import Gloora.Lib.Instants
import Gloora.Interleavings
import Gloora.Refinement

/-!
# Which requests are atomic

All requests but eight are brief: they run one SELECT, or one statement and its commit. Three of
the others put together a page from several SELECTs, which may see different tables. Each brief
request takes effect at one moment, as `handle` says, whatever the other
requests do in between. So a run of brief requests is a run of whole requests, up to the order.
-/

namespace Gloora
set_option autoImplicit false

open PyText Binary64 Runs Threads Transactions

/-- The handlers that run several statements are not brief. -/
def Request.brief : Request → Bool
  | .registerSalon _ | .rateSalon _ _ | .toggleVerify _ _ | .bookSlotForSalon _ _
  | .getBookedSlots _ _ | .adminDashboard | .databaseViews | .showSalons _ => false
  | _ => true

section Uniform
variable {P : Platform} {env : Env} {s : Session} {k : Nat} {w : Write}

/-- The reply depends on the tables it is formed over only in carrying them. -/
def Uniform (reply : Db → Outcome) : Prop := ∀ d d', reply d' = { reply d with db := d' }

/-- A brief program whose replies are uniform, and which ends in status 500 once a SELECT is
refused. -/
structure Prompt (s : Session) (p : Program) : Prop where
  brief : Brief p
  ends : Ends Uniform p
  aborts : Aborts (fun e db => raise db s e) p

theorem prompt_done {reply : Db → Outcome} (h : Uniform reply) : Prompt s (.done reply) :=
  ⟨.done _, h, trivial⟩

theorem prompt_ite {p q : Program} {b : Prop} [Decidable b] (hp : b → Prompt s p)
    (hq : ¬ b → Prompt s q) :
    Prompt s (if b then p else q) := by
  split
  · rename_i hb
    exact hp hb
  · rename_i hb
    exact hq hb

theorem prompt_answers {reply : Db → Outcome} : Prompt s (answers s reply) := by
  refine ⟨.reads (fun _ => rfl) fun _ => ⟨_, rfl⟩, ?_, fun _ => rfl, fun _ => trivial⟩
  intro r
  cases r <;> exact fun _ _ => rfl

/-- A write with its commit, both of whose refusals are answered by `failed`. -/
theorem prompt_write {next after : Except Text Db → Program} {reply : Db → Outcome}
    {failed : Text → Db → Outcome} (hwrite : ∀ d, next (.ok d) = .call (.commit k) after)
    (hfailed : ∀ e, next (.error e) = .done (failed e)) (hcommit : ∀ d, after (.ok d) = .done reply)
    (hlost : ∀ e, after (.error e) = .done (failed e)) (hreply : Uniform reply)
    (hrefusal : ∀ e, Uniform (failed e)) : Prompt s (.call (.write k w) next) := by
  refine ⟨.saves hwrite hfailed hcommit hlost, ?_, ?_⟩
  · intro r
    cases r with
    | error e => exact (hfailed e).symm ▸ hrefusal e
    | ok d =>
      rw [hwrite]
      intro r'
      cases r' with
      | error e => exact (hlost e).symm ▸ hrefusal e
      | ok d' => exact (hcommit d').symm ▸ hreply
  · intro r
    cases r with
    | error e => exact (hfailed e).symm ▸ trivial
    | ok d =>
      rw [hwrite]
      intro r'
      cases r' with
      | error e => exact (hlost e).symm ▸ trivial
      | ok d' => exact (hcommit d').symm ▸ trivial

theorem prompt_saves {reply : Db → Outcome} (h : Uniform reply) :
    Prompt s (saves s k w (.done reply)) :=
  prompt_write (fun _ => rfl) (fun _ => rfl) (fun _ => rfl) (fun _ => rfl) h fun _ _ _ => rfl

theorem insertUser_prompt (page : GenderPage) (user : User) :
    Prompt s (insertUserProgram s page user) := by
  have hfailed : ∀ e : Text, (if e = "IntegrityError".toList then
      .done fun db =>
        redirectTo db s page.endpoint "Username, Email, or Mobile already exists!" "error"
    else .done fun db => raise db s e : Program) = .done (if e = "IntegrityError".toList then
      fun db => redirectTo db s page.endpoint "Username, Email, or Mobile already exists!" "error"
    else fun db => raise db s e) := by
    intro e
    split <;> rfl
  apply prompt_write (fun _ => rfl) hfailed (fun _ => rfl) hfailed (fun _ _ => rfl)
  intro e
  split <;> exact fun _ _ => rfl

theorem loginPage_prompt (form : AuthForm) : Prompt s (loginPageProgram P s form) := by
  apply prompt_ite
  · intro hadmin
    have hlogin : ∀ db, loginPage P db s form =
        redirectTo db adminSession "admin_dashboard" "Admin Login Successful" "success" :=
      fun _ => if_pos hadmin
    apply prompt_done
    intro d d'
    simp only [hlogin]
    rfl
  · exact fun _ => prompt_answers

theorem handleAuth_prompt (action : Option Text) (page : GenderPage) (form : AuthForm) :
    Prompt s (handleAuthProgram P env s action page form) := by
  unfold handleAuthProgram
  apply prompt_ite <;> intro _
  · exact prompt_done fun _ _ => rfl
  apply prompt_ite <;> intro _
  · exact prompt_done fun _ _ => rfl
  apply prompt_ite <;> intro _
  · exact insertUser_prompt _ _
  apply prompt_ite <;> intro _
  · exact prompt_ite (fun _ => prompt_done fun _ _ => rfl) fun _ => prompt_answers
  · exact prompt_done fun _ _ => rfl

theorem forgotPasswordFemale_prompt (mobile : Option Text) :
    Prompt s (forgotPasswordFemaleProgram s mobile) := by
  apply prompt_ite
  · intro hempty
    apply prompt_done
    intro d d'
    simp only [forgotPasswordFemale, hempty, if_true]
    rfl
  · exact fun _ => prompt_answers

theorem resetPassword_prompt (password : Option Text) :
    Prompt s (resetPasswordProgram P env s password) := by
  unfold resetPasswordProgram
  apply prompt_ite <;> intro _
  · exact prompt_done fun _ _ => rfl
  split
  · exact prompt_done fun _ _ => rfl
  · exact prompt_done fun _ _ => rfl
  split
  · exact prompt_done fun _ _ => rfl
  · exact prompt_saves fun _ _ => rfl

theorem recommend_prompt (lat lon category : Option Text) :
    Prompt s (recommendProgram s lat lon category) := by
  apply prompt_ite
  · intro hnone
    apply prompt_done
    intro d d'
    simp only [recommend, hnone, if_true]
    rfl
  · exact fun _ => prompt_answers

theorem workerTogglePage_prompt (salonId : Nat) : Prompt s (workerTogglePageProgram s salonId) := by
  apply prompt_ite
  · intro hsession
    apply prompt_done
    intro d d'
    unfold workerTogglePage
    split
    · rfl
    · rename_i huser
      have hother : s.verifiedWorkerSalonId ≠ some salonId := by simpa [huser] using hsession
      simp only [if_pos hother]
      rfl
  · exact fun _ => prompt_answers

theorem verifyWorkerAccessPost_prompt (salonId : Nat) (enteredKey : Option Text) :
    Prompt s (verifyWorkerAccessPostProgram P s salonId enteredKey) := by
  apply prompt_ite
  · intro hverified
    apply prompt_done
    intro d d'
    simp only [verifyWorkerAccessPost, hverified, if_true]
    rfl
  · exact fun _ => prompt_answers

theorem updateWorkerCount_prompt (salonId : Nat) (field : Option Text) :
    Prompt s (updateWorkerCountProgram s salonId field) := by
  unfold updateWorkerCountProgram
  apply prompt_ite <;> intro _
  · exact prompt_done fun _ _ => rfl
  apply prompt_ite <;> intro _
  · exact prompt_done fun _ _ => rfl
  exact prompt_ite (fun _ => prompt_done fun _ _ => rfl) fun _ => prompt_saves fun _ _ => rfl

theorem paymentSuccess_prompt (form : PaymentForm) : Prompt s (paymentSuccessProgram P s form) := by
  unfold paymentSuccessProgram
  split
  · exact prompt_done fun _ _ => rfl
  apply prompt_ite <;> intro _
  · exact prompt_done fun _ _ => rfl
  apply prompt_ite <;> intro _
  · exact prompt_done fun _ _ => rfl
  split
  · exact prompt_done fun _ _ => rfl
  simp only
  split
  · exact prompt_done fun _ _ => rfl
  · exact prompt_write (fun _ => rfl) (fun _ => rfl) (fun _ => rfl) (fun _ => rfl) (fun _ _ => rfl)
      fun _ _ _ => rfl

theorem program_prompt {req : Request} (hreq : req.brief = true) : Prompt s (program P env s req) := by
  cases req with
  | registerSalon form => cases hreq
  | rateSalon salonId rating => cases hreq
  | toggleVerify salonId passKey => cases hreq
  | bookSlotForSalon salonId form => cases hreq
  | getBookedSlots salonId slotDate => cases hreq
  | adminDashboard => cases hreq
  | databaseViews => cases hreq
  | showSalons search => cases hreq
  | loginPage form =>
    cases form with
    | none => exact prompt_done fun _ _ => rfl
    | some form => exact loginPage_prompt form
  | deleteUser id => exact prompt_saves fun _ _ => rfl
  | deleteSalon id => exact prompt_saves fun _ _ => rfl
  | deleteService id => exact prompt_saves fun _ _ => rfl
  | deleteBooking id => exact prompt_saves fun _ _ => rfl
  | auth page action form => exact handleAuth_prompt action page form
  | forgotPassword page mobile =>
    cases page with
    | male => exact prompt_answers
    | female => exact forgotPasswordFemale_prompt mobile
  | resetPassword password => exact resetPassword_prompt password
  | recommend lat lon category => exact recommend_prompt lat lon category
  | workerTogglePage salonId => exact workerTogglePage_prompt salonId
  | verifyWorkerAccessPost salonId passKey => exact verifyWorkerAccessPost_prompt salonId passKey
  | verifyWorkerPage salonId passKey => exact prompt_answers
  | updateWorkerCount salonId field => exact updateWorkerCount_prompt salonId field
  | paymentSuccess form => exact paymentSuccess_prompt form
  | verifyOtp otp =>
    apply prompt_done
    intro d d'
    simp only [handle, verifyOtp]
    split <;> rfl
  | resetPasswordGet =>
    apply prompt_done
    intro d d'
    simp only [handle, resetPasswordGet]
    split <;> rfl
  | payment salonId =>
    apply prompt_done
    intro d d'
    simp only [handle, payment]
    split
    · split
      · rfl
      · split <;> rfl
    · rfl
  | _ => exact prompt_done fun _ _ => rfl

end Uniform

section Instants
variable {P : Platform} {env : Env} {s : Session} {db db' : Db} {reply : Db → Outcome}

/-- The program of a brief request reads the clock, the gateway and the salt, not which writes
are accepted. -/
theorem program_accepts {req : Request} (hreq : req.brief = true) (accepts : Nat → Bool) :
    program P { env with accepts } s req = program P env s req := by
  cases req with
  | registerSalon form => cases hreq
  | rateSalon salonId rating => cases hreq
  | toggleVerify salonId passKey => cases hreq
  | bookSlotForSalon salonId form => cases hreq
  | getBookedSlots salonId slotDate => cases hreq
  | adminDashboard => cases hreq
  | databaseViews => cases hreq
  | showSalons search => cases hreq
  | loginPage form => cases form <;> rfl
  | forgotPassword page mobile => cases page <;> rfl
  | _ => rfl

/-- `handle` serves the request on `db`, with some or all of its writes accepted. -/
def ServedAs (P : Platform) (a : Incoming) (db db' : Db) (reply : Db → Outcome) : Prop :=
  ∃ accepts : Nat → Bool, (handle P { a.env with accepts } db a.cookie a.request).db = db' ∧
    ∀ d, reply d = { handle P { a.env with accepts } db a.cookie a.request with db := d }

theorem servedAs_of_takes {a : Incoming} (hreq : a.request.brief = true)
    (h : Takes (site P) ((site P).program a) db db' reply) : ServedAs P a db db' reply := by
  obtain ⟨accepts, halone⟩ := h
  refine ⟨accepts, ?_⟩
  have hagrees : Agrees (P.alone { a.env with accepts }
      (program P { a.env with accepts } a.cookie a.request) db db)
      (handle P { a.env with accepts } db a.cookie a.request) := program_agrees a.request
  rw [program_accepts hreq] at hagrees
  have hresult : P.alone { a.env with accepts } (program P a.env a.cookie a.request) db db =
      (db', reply) := halone
  have hends : Ends Uniform ((site P).program a) := (program_prompt hreq).ends
  have huniform := alone_ends (V := site P) accepts hends db db
  rw [hresult] at hagrees
  rw [halone] at huniform
  generalize handle P { a.env with accepts } db a.cookie a.request = o at hagrees
  obtain ⟨rfl, hreply⟩ := hagrees
  refine ⟨rfl, ?_⟩
  intro d
  have hcarried : reply d = { reply o.db with db := d } := huniform o.db d
  rw [hcarried]
  exact congrArg (fun o : Outcome => { o with db := d }) hreply

/-- A move of the server; a brief request that is served in it is marked with its reply. -/
def ServerInstant (P : Platform) (τ : Server) (e : ServerMove × Option (Db → Outcome))
    (τ' : Server) : Prop :=
  PoolStep P τ e.1 τ' ∧ (e.1.input.request.brief = true →
    match e.2 with
    | none => τ'.store.db = τ.store.db
    | some reply => ServedAs P e.1.input τ.store.db τ'.store.db reply)

/-- What `brief_requests_take_effect_once` says of a brief request that has ended. -/
def Answered (es : List (ServerMove × Option (Db → Outcome))) (i : Nat) (a : Incoming)
    (reply : Db → Outcome) : Prop :=
  marks i es = [reply] ∨ (marks i es = [] ∧
    ∃ e, (.read, .error e) ∈ callsOf i (es.map Prod.fst) ∧ reply = fun d => raise d a.cookie e)

variable {jar : Nat → List Session} {evs : List ServerMove} {τ : Server}
  {es : List (ServerMove × Option (Db → Outcome))}

/-- A request whose handler is brief. -/
def Incoming.Brief (a : Incoming) : Prop := a.request.brief = true

theorem program_brief (a : Incoming) (ha : a.Brief) : Brief ((site P).program a) :=
  (program_prompt ha).brief

theorem serverInstant_of_instant {e : ServerMove × Option (Db → Outcome)} {τ' : Server}
    (h : Instant (site P) Incoming.Brief τ e τ') : ServerInstant P τ e τ' := by
  obtain ⟨m, o⟩ := e
  obtain ⟨hstep, heffect⟩ := h
  refine ⟨hstep, ?_⟩
  intro hb
  cases o with
  | none => exact heffect hb
  | some reply => exact servedAs_of_takes hb (heffect hb)

theorem answered_of_settled {i : Nat} {a : Incoming}
    (h : Run (PoolStep P) (Server.start db jar) (es.map Prod.fst) τ)
    (hends : ⟨i, a, .ends reply⟩ ∈ es.map Prod.fst) (hb : a.request.brief = true)
    (hsettled : Settled es i reply) : Answered es i a reply := by
  apply hsettled.imp_right
  rintro ⟨hmarks, e, he⟩
  exact ⟨hmarks, e, he, follows_aborts (program_prompt hb).aborts (follows_ended h hends).1 he⟩

/-- However requests interleave, each brief one is served as a whole at one of its own moves at
most, and its other moves change nothing. When it ends, it has been served, and its reply is
the one that `handle` gives on the tables committed at that moment, or a SELECT was refused. -/
theorem brief_requests_take_effect_once (h : Run (PoolStep P) (Server.start db jar) evs τ) :
    ∃ es, Run (ServerInstant P) (Server.start db jar) es τ ∧ es.map Prod.fst = evs ∧
      (∀ i t, τ.threads i = some t → t.input.request.brief = true → (marks i es).length ≤ 1) ∧
      ∀ i a reply, ⟨i, a, .ends reply⟩ ∈ evs → a.request.brief = true → Answered es i a reply := by
  obtain ⟨es, hes, rfl, hthreads, hsettled⟩ := run_marked program_brief h
  refine ⟨es, hes.mono fun _ _ _ => serverInstant_of_instant, rfl, ?_, ?_⟩
  · intro i t ht hb
    cases hthreads i t ht hb with
    | standing _ hmarks => simp [hmarks]
    | acted _ _ hmarks => simp [hmarks]
    | refused _ _ hmarks _ => simp [hmarks]
  · exact fun i a reply hends hb => answered_of_settled h hends hb (hsettled i a reply hends hb)

/-- Two registrations that arrive together; the first one ends last. -/
def registersAtOnce : Interleaving where
  tables := initAllDatabases
  choices := [comes 1 (registerAs "ann"), comes 2 (registerAs "bob")] ++ works 0 2 ++ works 1 3 ++
    works 0 1
  served := by decide +kernel

theorem registrations_take_effect_once : ∃ es,
    Run (ServerInstant plain) (Server.start initAllDatabases fun _ => []) es registersAtOnce.final ∧
      es.map Prod.fst = registersAtOnce.events ∧
      ∀ i a reply, ⟨i, a, .ends reply⟩ ∈ registersAtOnce.events → a.request.brief = true →
        Answered es i a reply := by
  obtain ⟨es, hes, hevs, -, hends⟩ := brief_requests_take_effect_once registersAtOnce.run
  exact ⟨es, hes, hevs, hends⟩

end Instants

section Linearization
variable {P : Platform} {db : Db} {jar : Nat → List Session} {evs : List ServerMove}
  {τ τ' : Server} {σ : Sys} {es : List (ServerMove × Option (Db → Outcome))} {fs : List Event}
  {m : ServerMove}

/-- `e` serves as a whole the request that is marked with `reply`. -/
structure Renders (r : Incoming × (Db → Outcome)) (e : Event) : Prop where
  browser : e.browser = r.1.browser
  cookie : e.cookie = r.1.cookie
  request : e.request = r.1.request
  env : e.env = { r.1.env with accepts := e.env.accepts }
  reply : ∀ d, r.2 d = { e.outcome with db := d }

/-- The requests that take effect, in the order in which they do. -/
def effects (es : List (ServerMove × Option (Db → Outcome))) : List (Incoming × (Db → Outcome)) :=
  es.filterMap fun e => e.2.map fun reply => (e.1.input, reply)

/-- The whole requests `fs` do what the marked moves `es` do. -/
structure Linear (P : Platform) (es : List (ServerMove × Option (Db → Outcome))) (τ : Server)
    (fs : List Event) (σ : Sys) : Prop where
  run : Run (Step P) Sys.init fs σ
  db : σ.db = τ.store.db
  renders : List.Forall₂ Renders (effects es) fs
  jar : ∀ b, ∀ c ∈ τ.store.side b, c = {} ∨ c ∈ σ.jar b
  threads : ∀ i t, τ.threads i = some t → t.input.cookie = {} ∨ t.input.cookie ∈ σ.jar t.input.browser
  issued : ∀ r ∈ effects es, ∀ d, (r.2 d).session ∈ σ.jar r.1.browser

theorem Linear.presented (h : Linear P es τ fs σ) (hstep : PoolStep P τ m τ') :
    m.input.cookie = {} ∨ m.input.cookie ∈ σ.jar m.input.browser := by
  cases hstep with
  | arrives hadmits => exact hadmits.elim .inl (h.jar _ _)
  | calls hthread hserves => exact h.threads _ _ hthread
  | ends hthread => exact h.threads _ _ hthread

theorem side_step (hstep : PoolStep P τ m τ') : τ'.store.side = τ.store.side ∨
    ∃ reply, m.act = .ends reply ∧ τ'.store.side = Function.update τ.store.side m.input.browser
      ((reply τ.store.db).session :: τ.store.side m.input.browser) := by
  cases hstep with
  | arrives => exact .inl rfl
  | calls hthread hserves =>
    refine .inl ?_
    cases hserves with
    | commit => exact Store.release_side
    | _ => rfl
  | @ends i a x hthread => exact .inr ⟨x, rfl, rfl⟩

/-- The marks on a move become whole requests, after which every cookie is still issued. -/
theorem Linear.marked (h : Linear P es τ fs σ) (hstep : PoolStep P τ m τ') {o : Option (Db → Outcome)}
    (heffect : match o with
      | none => τ'.store.db = τ.store.db
      | some reply => ServedAs P m.input τ.store.db τ'.store.db reply) :
    ∃ fs' σ', Run (Step P) Sys.init fs' σ' ∧ σ'.db = τ'.store.db ∧
      List.Forall₂ Renders (effects (es ++ [(m, o)])) fs' ∧
      (∀ b, ∀ c ∈ σ.jar b, c ∈ σ'.jar b) ∧
      ∀ r ∈ effects (es ++ [(m, o)]), ∀ d, (r.2 d).session ∈ σ'.jar r.1.browser := by
  cases o with
  | none =>
    have hsame : effects (es ++ [(m, none)]) = effects es := by simp [effects]
    rw [hsame]
    exact ⟨fs, σ, h.run, h.db.trans heffect.symm, h.renders, fun _ _ => id, h.issued⟩
  | some reply =>
    obtain ⟨accepts, hdb, hreply⟩ := heffect
    have hmore : effects (es ++ [(m, some reply)]) = effects es ++ [(m.input, reply)] := by
      simp [effects]
    let e : Event := ⟨m.input.browser, m.input.cookie, { m.input.env with accepts }, m.input.request,
      σ.db, handle P { m.input.env with accepts } σ.db m.input.cookie m.input.request⟩
    have hgrows : ∀ b, ∀ c ∈ σ.jar b, c ∈ (σ.after e).jar b := by
      intro b c hc
      by_cases hb : b = e.browser
      · subst hb
        simpa [Sys.after] using .inr hc
      · simpa [Sys.after, hb] using hc
    rw [← h.db] at hdb hreply
    rw [hmore]
    refine ⟨fs ++ [e], σ.after e, .snoc h.run ⟨h.presented hstep, rfl, rfl, rfl, rfl⟩, hdb, ?_, hgrows,
      ?_⟩
    · exact List.rel_append h.renders (.cons ⟨rfl, rfl, rfl, rfl, hreply⟩ .nil)
    · intro r hr d
      rcases List.mem_append.mp hr with hr | hr
      · exact hgrows _ _ (h.issued r hr d)
      · obtain rfl := List.mem_singleton.mp hr
        have hsession : (reply d).session = e.outcome.session := by rw [hreply]
        simp [Sys.after, e, hsession]

theorem Linear.snoc (h : Linear P es τ fs σ)
    (hrun : Run (PoolStep P) (Server.start db jar) (es.map Prod.fst ++ [m]) τ')
    {o : Option (Db → Outcome)} (hstep : ServerInstant P τ (m, o) τ')
    (hbrief : m.input.request.brief = true)
    (hends : ∀ reply, m.act = .ends reply → Answered (es ++ [(m, o)]) m.id m.input reply) :
    ∃ fs' σ', Linear P (es ++ [(m, o)]) τ' fs' σ' := by
  have hpresented := h.presented hstep.1
  obtain ⟨fs', σ', hfs, hdb, hrenders, hgrows, hissued⟩ := h.marked hstep.1 (hstep.2 hbrief)
  refine ⟨fs', σ', hfs, hdb, hrenders, ?_, ?_, hissued⟩
  · intro b c hc
    rcases side_step hstep.1 with hside | ⟨reply, hact, hside⟩
    · rw [hside] at hc
      exact (h.jar b c hc).imp_right (hgrows b c)
    rw [hside] at hc
    by_cases hb : b = m.input.browser
    · subst hb
      rw [Function.update_self] at hc
      rcases List.mem_cons.mp hc with rfl | hc
      · rcases hends reply hact with hmarks | ⟨-, e, -, rfl⟩
        · obtain ⟨m', hm', hid⟩ := exists_mark (hmarks ▸ List.mem_singleton_self reply)
          have hmoves : m' ∈ es.map Prod.fst ++ [m] := by
            have hmem := List.mem_map_of_mem (f := Prod.fst) hm'
            simpa using hmem
          have hlast : (⟨m.id, m.input, .ends reply⟩ : ServerMove) ∈ es.map Prod.fst ++ [m] := by
            rw [← hact]
            exact List.mem_append_right _ (List.mem_singleton_self m)
          have hinput : m'.input = m.input := input_of_ended hrun hlast hmoves hid
          refine .inr ?_
          rw [← hinput]
          refine hissued (m'.input, reply) ?_ _
          exact List.mem_filterMap.mpr ⟨_, hm', rfl⟩
        · exact hpresented.imp_right (hgrows _ _)
      · exact (h.jar _ c hc).imp_right (hgrows _ c)
    · rw [Function.update_of_ne hb] at hc
      exact (h.jar b c hc).imp_right (hgrows b c)
  · intro i t ht
    by_cases hi : i = m.id
    · subst hi
      rw [hstep.1.input_self ht]
      exact hpresented.imp_right (hgrows _ _)
    · rw [hstep.1.other hi] at ht
      exact (h.threads i t ht).imp_right (hgrows _ _)

theorem linear_of_marked (hes : Run (Instant (site P) Incoming.Brief)
      (Server.start initAllDatabases fun _ => []) es τ)
    (hbrief : ∀ m ∈ es.map Prod.fst, m.input.request.brief = true)
    (hsettled : ∀ i a reply, ⟨i, a, .ends reply⟩ ∈ es.map Prod.fst → Settled es i reply) :
    ∃ fs σ, Linear P es τ fs σ := by
  induction hes with
  | nil =>
    exact ⟨[], Sys.init, .nil, rfl, .nil, by simp [Server.start, Site.start, Pool.start],
      by simp [Server.start, Site.start, Pool.start], by simp [effects]⟩
  | @snoc es τ υ e hes hstep ih =>
    obtain ⟨m, o⟩ := e
    rw [List.map_append, List.map_singleton] at hbrief hsettled
    have hrun := unmarked hes
    obtain ⟨fs, σ, h⟩ := ih (fun m' hm' => hbrief m' (List.mem_append_left _ hm')) (by
      intro i a reply hends
      apply (hsettled i a reply (List.mem_append_left _ hends)).of_snoc
      exact Step.not_ended hstep.1 hrun hends)
    refine h.snoc (.snoc hrun hstep.1) (serverInstant_of_instant hstep) (hbrief m (by simp)) ?_
    intro reply hact
    have hlast : (⟨m.id, m.input, .ends reply⟩ : ServerMove) ∈ (es ++ [(m, o)]).map Prod.fst := by
      rw [← hact, List.map_append]
      exact List.mem_append_right _ (List.mem_singleton_self m)
    exact answered_of_settled (unmarked (.snoc hes hstep)) hlast (hbrief m (by simp))
      (hsettled _ _ _ (by simpa using hlast))

/-- A run of brief requests has the committed state and the replies of a run in which they
are served one after the other, in the order in which they take effect. -/
theorem brief_runs_linearize (hrun : Run (PoolStep P) (Server.start initAllDatabases fun _ => []) evs τ)
    (hbrief : ∀ m ∈ evs, m.input.request.brief = true) :
    ∃ es fs σ, es.map Prod.fst = evs ∧ Linear P es τ fs σ ∧
      ∀ i a reply, ⟨i, a, .ends reply⟩ ∈ evs → Answered es i a reply := by
  obtain ⟨es, hes, rfl, -, hsettled⟩ := run_marked program_brief hrun
  obtain ⟨fs, σ, h⟩ := linear_of_marked hes hbrief fun i a reply hends =>
    hsettled i a reply hends (hbrief _ hends)
  refine ⟨es, fs, σ, rfl, h, ?_⟩
  intro i a reply hends
  have hb : a.request.brief = true := hbrief _ hends
  exact answered_of_settled hrun hends hb (hsettled i a reply hends hb)

theorem registrations_linearize : ∃ es fs σ, es.map Prod.fst = registersAtOnce.events ∧
    Linear plain es registersAtOnce.final fs σ := by
  have hbrief : ∀ m ∈ registersAtOnce.events, m.input.request.brief = true := by decide +kernel
  obtain ⟨es, fs, σ, hevs, hlinear, -⟩ := brief_runs_linearize registersAtOnce.run hbrief
  exact ⟨es, fs, σ, hevs, hlinear⟩

end Linearization

end Gloora
