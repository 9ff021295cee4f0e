import Gloora.Lib.Budgets
import Gloora.Lib.Draining
import Gloora.Interleavings
import Gloora.ProgramEffects

/-!
# Every request comes to an end

One handler loops over what it finds in the database, and it runs a statement for each salon;
the number of all other statements is known when the request arrives. And no two requests can
block each other for good, unless a commit was refused on a connection that stays open.
-/

namespace Gloora
set_option autoImplicit false

open PyText Binary64 Keyed Runs Threads Transactions

/-- How many statements and commits the handler runs at most when it finds up to `n` salons. -/
def Request.calls (n : Nat) : Request → Nat
  | .loginPage (some _) => 1
  | .adminDashboard => 4
  | .databaseViews => 3
  | .deleteUser _ | .deleteSalon _ | .deleteService _ | .deleteBooking _ => 2
  | .auth _ _ _ => 2
  | .forgotPassword _ _ => 1
  | .resetPassword _ => 2
  | .registerSalon form => 4 * (validServices form).length + 3
  | .showSalons _ => n + 1
  | .recommend _ _ _ => 1
  | .rateSalon _ _ | .toggleVerify _ _ => 3
  | .workerTogglePage _ | .verifyWorkerAccessPost _ _ | .verifyWorkerPage _ _ => 1
  | .updateWorkerCount _ _ => 2
  | .bookSlotForSalon _ _ => 3
  | .getBookedSlots _ _ => 2
  | .paymentSuccess _ => 2
  | _ => 0

section Bounds
variable {P : Platform} {env : Env} {s : Session} {n k : Nat} {w : Write}
  {post : Except Text Db → Prop}

/-- The program makes at most `n` calls. -/
abbrev Short (post : Except Text Db → Prop) (n : Nat) (p : Program) : Prop :=
  p.Within (fun _ => 1) post n

theorem within_done {reply : Db → Outcome} : Short post n (.done reply) := .done n reply

theorem within_ite {p q : Program} {b : Prop} [Decidable b] (hp : Short post n p)
    (hq : Short post n q) : Short post n (if b then p else q) := by
  split
  · exact hp
  · exact hq

theorem within_reads {next : Db → Program} (h : ∀ view, post (.ok view) → Short post n (next view)) :
    Short post (n + 1) (reads s next) := by
  refine .call fun r hr => ?_
  cases r with
  | ok view => exact h view hr
  | error e => exact within_done

theorem within_readsOn {m : Nat} {next : Program} (h : Short post n next) :
    Short post (n + m) (readsOn s m next) := by
  induction m with
  | zero => exact h
  | succ m ih => exact within_reads fun _ _ => ih

theorem within_writes {next : Db → Program} (h : ∀ view, Short post n (next view)) :
    Short post (n + 1) (writes s k w next) := by
  refine .call fun r _ => ?_
  cases r with
  | ok view => exact h view
  | error e => exact within_done

theorem within_commits {next : Program} (h : Short post n next) :
    Short post (n + 1) (commits s k next) := by
  refine .call fun r _ => ?_
  cases r with
  | ok view => exact h
  | error e => exact within_done

theorem within_saves {reply : Db → Outcome} : Short post (n + 2) (saves s k w (.done reply)) :=
  within_writes fun _ => within_commits within_done

theorem within_answers {reply : Db → Outcome} : Short post (n + 1) (answers s reply) :=
  within_reads fun _ _ => within_done

/-- Up to four calls for each service, and the last commit. -/
theorem insertServices_within (salonId k : Nat) (services : List (Text × Double)) :
    Short post (4 * services.length + 1) (insertServicesProgram s salonId k services) := by
  induction services generalizing k with
  | nil => exact within_commits within_done
  | cons service rest ih =>
    obtain ⟨name, price⟩ := service
    have hrest : 4 * (rest.length + 1) + 1 = 4 * rest.length + 1 + 3 + 1 := by omega
    rw [List.length_cons, hrest]
    apply within_reads
    intro view _
    split
    · apply (within_writes fun _ => ih _).mono
      omega
    · exact within_writes fun _ => within_commits (within_writes fun _ => ih _)

theorem handleAuth_within (action : Option Text) (page : GenderPage) (form : AuthForm) :
    Short post 2 (handleAuthProgram P env s action page form) := by
  unfold handleAuthProgram
  apply within_ite within_done
  apply within_ite within_done
  apply within_ite
  · have hfailed : ∀ e m, (if e = "IntegrityError".toList then
        (.done fun db =>
          redirectTo db s page.endpoint "Username, Email, or Mobile already exists!" "error")
      else .done fun db => raise db s e : Program).Within (fun _ => 1) post m :=
      fun _ _ => within_ite within_done within_done
    refine .call fun r _ => ?_
    cases r with
    | error e => exact hfailed e 1
    | ok d =>
      refine .call fun r _ => ?_
      cases r with
      | error e => exact hfailed e 0
      | ok d' => exact within_done
  · exact within_ite (within_ite within_done within_answers) within_done

theorem resetPassword_within (password : Option Text) :
    Short post 2 (resetPasswordProgram P env s password) := by
  unfold resetPasswordProgram
  apply within_ite within_done
  split
  · exact within_done
  · exact within_done
  split
  · exact within_done
  · exact within_saves

theorem registerSalon_within (form : SalonForm) :
    Short post (4 * (validServices form).length + 3) (registerSalonProgram P env s form) := by
  unfold registerSalonProgram
  apply within_ite within_done
  apply within_ite within_done
  apply within_ite within_done
  exact within_writes fun _ => within_commits (insertServices_within _ _ _)

theorem rateSalon_within (salonId : Nat) (field : Option Text) :
    Short post 3 (rateSalonProgram s salonId field) := by
  unfold rateSalonProgram
  apply within_ite within_done
  apply within_reads
  intro view _
  split
  · exact within_done
  · exact within_saves

theorem toggleVerify_within (salonId : Nat) (passKey : Option Text) :
    Short post 3 (toggleVerifyProgram P s salonId passKey) := by
  unfold toggleVerifyProgram
  apply within_ite within_done
  apply within_reads
  intro view _
  split
  · exact within_done
  · exact within_saves
  · exact within_done

theorem updateWorkerCount_within (salonId : Nat) (field : Option Text) :
    Short post 2 (updateWorkerCountProgram s salonId field) := by
  unfold updateWorkerCountProgram
  apply within_ite within_done
  apply within_ite within_done
  exact within_ite within_done within_saves

theorem bookSlotForSalon_within (salonId : Nat) (form : Option BookForm) :
    Short post 3 (bookSlotForSalonProgram env s salonId form) := by
  unfold bookSlotForSalonProgram
  apply within_ite within_done
  apply within_reads
  intro view _
  apply within_readsOn (n := 1) (m := 1)
  split
  · exact within_done
  · exact within_done
  · simp only
    split
    · exact within_done
    · exact within_reads fun _ _ => within_done

theorem getBookedSlots_within (salonId : Nat) (slotDate : Text) :
    Short post 2 (getBookedSlotsProgram s salonId slotDate) := by
  apply within_reads
  intro view _
  split
  · exact within_done
  · exact within_reads fun _ _ => within_done

theorem paymentSuccess_within (form : PaymentForm) : Short post 2 (paymentSuccessProgram P s form) := by
  unfold paymentSuccessProgram
  split
  · exact within_done
  apply within_ite within_done
  apply within_ite within_done
  split
  · exact within_done
  simp only
  split
  · exact within_done
  · refine .call fun r _ => ?_
    cases r with
    | error e => exact within_done
    | ok d =>
      refine .call fun r _ => ?_
      cases r <;> exact within_done

/-- At most `n` salons are shown. -/
def Few (n : Nat) (r : Except Text Db) : Prop := ∀ d, r = .ok d → d.salons.rows.length ≤ n

theorem showSalons_within (search : Option Text) :
    Short (Few n) (n + 1) (showSalonsProgram P s search) := by
  apply within_reads
  intro view hview
  split
  · exact within_done
  · rename_i listed hlisted
    have hfew : 0 + listed.length ≤ n := by
      have hrows := hview view rfl
      have hlength := length_listed_le hlisted
      omega
    exact (within_readsOn within_done).mono hfew

theorem program_within (req : Request) : Short (Few n) (req.calls n) (program P env s req) := by
  cases req with
  | loginPage form =>
    cases form with
    | none => exact within_done
    | some form => exact within_ite within_done within_answers
  | adminDashboard => exact within_ite (within_readsOn (n := 0) (m := 4) within_done) within_done
  | databaseViews => exact within_ite (within_readsOn (n := 0) (m := 3) within_done) within_done
  | deleteUser id => exact within_saves
  | deleteSalon id => exact within_saves
  | deleteService id => exact within_saves
  | deleteBooking id => exact within_saves
  | auth page action form => exact handleAuth_within action page form
  | forgotPassword page mobile =>
    cases page with
    | male => exact within_answers
    | female => exact within_ite within_done within_answers
  | resetPassword password => exact resetPassword_within password
  | registerSalon form => exact registerSalon_within form
  | showSalons search => exact showSalons_within search
  | recommend lat lon category => exact within_ite within_done within_answers
  | rateSalon salonId field => exact rateSalon_within salonId field
  | toggleVerify salonId passKey => exact toggleVerify_within salonId passKey
  | workerTogglePage salonId => exact within_ite within_done within_answers
  | verifyWorkerAccessPost salonId passKey => exact within_ite within_done within_answers
  | verifyWorkerPage salonId passKey => exact within_answers
  | updateWorkerCount salonId field => exact updateWorkerCount_within salonId field
  | bookSlotForSalon salonId form => exact bookSlotForSalon_within salonId form
  | getBookedSlots salonId slotDate => exact getBookedSlots_within salonId slotDate
  | paymentSuccess form => exact paymentSuccess_within form
  | _ => exact within_done

end Bounds

section Salons
variable {P : Platform} {db db' : Db} {w : Write} {post : Except Text Db → Prop}

/-- How many salons a statement adds. -/
def Write.addsSalons : Write → Nat
  | .insertSalon _ => 1
  | _ => 0

theorem exec_length_salons (h : db.exec w = some db') :
    db'.salons.rows.length ≤ db.salons.rows.length + w.addsSalons := by
  rcases exec_cases h with rfl | rfl
  · exact Nat.le_add_right _ _
  cases w with
  | insertSalon r => simp [Db.written, Write.addsSalons, Table.insert]
  | setRating id total count => simp [Db.written, Db.setSalon, Table.update]
  | setStatus id status => simp [Db.written, Db.setSalon, Table.update]
  | setWorkerCount id count => simp [Db.written, Db.setSalon, Table.update]
  | deleteSalon id => exact Nat.le_trans (List.length_filter_le _ _) (Nat.le_add_right _ _)
  | _ => exact Nat.le_add_right _ _

/-- A program that inserts no salon adds none. -/
theorem adds_none {p : Program} (h : Keeps (fun _ => True) (fun w => w.addsSalons = 0) p) :
    p.Within (Command.growth Write.addsSalons) post 0 := by
  refine Prog.within_free (Prog.Safe.mono h ?_ fun _ _ _ _ _ => trivial)
  intro c hc
  cases c with
  | write k w => exact hc k w rfl
  | _ => rfl

theorem insertServices_addsNone (s : Session) (salonId k : Nat) (services : List (Text × Double)) :
    Keeps (fun _ => True) (fun w => w.addsSalons = 0) (insertServicesProgram s salonId k services) := by
  induction services generalizing k with
  | nil => exact keeps_commits trivial
  | cons service rest ih =>
    obtain ⟨name, price⟩ := service
    apply keeps_reads
    intro view _
    split
    · exact keeps_writes rfl fun _ _ => ih _
    · exact keeps_writes rfl fun _ _ => keeps_commits (keeps_writes rfl fun _ _ => ih _)

theorem registerSalon_addsOne (env : Env) (s : Session) (form : SalonForm) :
    (registerSalonProgram P env s form).Within (Command.growth Write.addsSalons) post 1 := by
  unfold registerSalonProgram
  split
  · exact .done 1 _
  split
  · exact .done 1 _
  split
  · exact .done 1 _
  change Prog.Within _ _
    (0 + Command.growth Write.addsSalons (.write 0 (.insertSalon (newSalon P env s form)))) _
  refine .call fun r _ => ?_
  cases r with
  | ok view => exact adds_none (keeps_commits (insertServices_addsNone _ _ _ _))
  | error e => exact .done 0 _

theorem issues_adds {s : Session} {req : Request} (h : req.issues s w)
    (hreg : req.registersSalon = false) : w.addsSalons = 0 := by
  cases req with
  | registerSalon form => cases hreg
  | deleteUser id => exact congrArg Write.addsSalons h
  | deleteSalon id => exact congrArg Write.addsSalons h
  | deleteService id => exact congrArg Write.addsSalons h
  | deleteBooking id => exact congrArg Write.addsSalons h
  | auth page action form =>
    obtain ⟨u, rfl⟩ := h
    rfl
  | resetPassword password =>
    obtain ⟨mobile, hash, rfl⟩ := h
    rfl
  | rateSalon id rating =>
    obtain ⟨total, count, rfl⟩ := h
    rfl
  | toggleVerify id passKey =>
    obtain ⟨status, rfl⟩ := h
    rfl
  | updateWorkerCount id workerCount =>
    obtain ⟨count, rfl⟩ := h
    rfl
  | paymentSuccess form =>
    obtain ⟨_, _, _, _, _, _, rfl⟩ := h
    rfl
  | _ => cases h

/-- A registration adds one salon at most, and no other request adds any. -/
theorem program_adds (a : Incoming) : ((site P).program a).Within (Command.growth Write.addsSalons)
    post (if a.request.registersSalon then 1 else 0) := by
  cases hreg : a.request.registersSalon with
  | true =>
    obtain ⟨browser, s, env, req⟩ := a
    cases req with
    | registerSalon form => exact registerSalon_addsOne env s form
    | _ => cases hreg
  | false => exact adds_none ((program_issues P a).mono fun w hw => issues_adds hw hreg)

end Salons

section Runs
variable {P : Platform} {db : Db} {jar : Nat → List Session} {evs : List ServerMove} {τ : Server}

def ServerMove.registers (m : ServerMove) : Bool := m.isArrival && m.input.request.registersSalon

/-- The salons of the beginning, and one for each registration that has arrived. -/
def salonsMet (db : Db) (evs : List ServerMove) : Nat :=
  db.salons.rows.length + evs.countP ServerMove.registers

/-- No request is shown more salons than these. -/
theorem salons_met (h : Run (PoolStep P) (Server.start db jar) evs τ) :
    AnswersHave (Few (salonsMet db evs)) evs := by
  have hgranted : ∀ l : List ServerMove, (l.map (Move.granted fun a : Incoming =>
      if a.request.registersSalon then 1 else 0)).sum = l.countP ServerMove.registers := by
    intro l
    induction l with
    | nil => rfl
    | cons m l ih =>
      rw [List.map_cons, List.sum_cons, ih, List.countP_cons, Nat.add_comm]
      cases harrival : m.isArrival <;> simp [Move.granted, ServerMove.registers, harrival]
  have hspent : (evs.map (Move.spent (Command.growth Write.addsSalons))).sum ≤
      evs.countP ServerMove.registers := by
    have hanswers : AnswersHave (fun _ => True) evs := fun _ _ _ _ _ => trivial
    rw [← hgranted]
    exact spent_le program_adds h hanswers
  have hshown := (run_sizes (V := site P) (fun _ _ _ => exec_length_salons) h).2
  intro m hm c r hact d hr
  exact Nat.le_trans (hshown m hm c r hact d hr) (Nat.add_le_add_left hspent _)

/-- A request makes at most `calls` calls, however the others interleave with it, so a run is
no longer than the requests that arrive in it allow. -/
theorem requests_are_bounded (h : Run (PoolStep P) (Server.start db jar) evs τ) :
    (∀ i a, ⟨i, a, .arrives⟩ ∈ evs →
      (callsOf i evs).length ≤ a.request.calls (salonsMet db evs)) ∧
    evs.length ≤ (evs.map (Move.granted fun a => a.request.calls (salonsMet db evs) + 2)).sum := by
  have hbound : ∀ a, Short (Few (salonsMet db evs)) (a.request.calls (salonsMet db evs))
      ((site P).program a) := fun a => program_within a.request
  refine ⟨?_, length_le hbound h (salons_met h)⟩
  intro i a ha
  have hcost := cost_callsOf_le (hbound a) h (salons_met h) ha
  simpa using hcost

/-- A salon and a user are being registered while the salons are listed, and the user's INSERT
holds the lock. -/
def registrationsUnderway : Interleaving where
  tables := initAllDatabases
  choices := [comes 1 (openSalon "1" ["cut", "shave"] ["100", "50"]), comes 2 (registerAs "ann"),
    comes 3 (.showSalons none)] ++ works 0 3 ++ works 2 2 ++ works 1 1
  served := by decide +kernel

theorem registrations_are_bounded : (∀ i a, ⟨i, a, .arrives⟩ ∈ registrationsUnderway.events →
    (callsOf i registrationsUnderway.events).length ≤
      a.request.calls (salonsMet initAllDatabases registrationsUnderway.events)) ∧
    registrationsUnderway.events.length = 9 ∧
    salonsMet initAllDatabases registrationsUnderway.events = 1 ∧
    (registrationsUnderway.events.map (Move.granted fun a =>
      a.request.calls (salonsMet initAllDatabases registrationsUnderway.events) + 2)).sum = 21 :=
  ⟨(requests_are_bounded registrationsUnderway.run).1, by decide +kernel, by decide +kernel,
    by decide +kernel⟩

/-- No commit was refused to a request that closes its connection in its last lines. -/
def CommitsGranted (evs : List ServerMove) : Prop :=
  ∀ m ∈ evs, m.input.request.closesLast = true → ∀ k e, m.act ≠ .calls (.commit k) (.error e)

theorem stuck_after_refusal {i : Nat} {d : Db} (h : Run (PoolStep P) (Server.start db jar) evs τ)
    (hw : τ.store.writer = some (i, d)) (hended : τ.threads i = none) :
    ∃ a reply k e, ⟨i, a, .ends reply⟩ ∈ evs ∧ a.request.closesLast = true ∧
      (.commit k, .error e) ∈ callsOf i evs := by
  obtain ⟨a, reply, k, e, hends, hopen, hcall⟩ :=
    commit_refused (program_closes granting_committed) h hw hended
  refine ⟨a, reply, k, e, hends, ?_, hcall⟩
  by_contra hlast
  simp [site, hlast] at hopen

theorem attended (h : Run (PoolStep P) (Server.start db jar) evs τ) (hcommits : CommitsGranted evs) :
    Attended (site P) τ where
  closes i t ht := by
    cases hlast : t.input.request.closesLast with
    | false => exact closes_always fun x => by simp [site, hlast]
    | true =>
      apply closes_of_commits (program_closes granting_committed t.input) h (follows_callsOf h ht)
      intro k e hcall
      obtain ⟨m, hm, hid, hact⟩ := mem_callsOf hcall
      rw [← input_of_running h ht hm hid] at hlast
      exact hcommits m hm hlast k e hact
  running i d hw := by
    by_contra hended
    have hnone : τ.threads i = none := Option.not_isSome_iff_eq_none.mp hended
    obtain ⟨a, reply, k, e, hends, hlast, hcall⟩ := stuck_after_refusal h hw hnone
    obtain ⟨m, hm, hid, hact⟩ := mem_callsOf hcall
    rw [← input_of_ended h hends hm hid] at hlast
    exact hcommits m hm hlast k e hact

/-- As long as no such commit was refused, all running requests can end without a refusal. A
request that has ended holds the lock only if its commit was refused, and then the tables stay
as they are. -/
theorem server_drains (h : Run (PoolStep P) (Server.start db jar) evs τ) :
    (CommitsGranted evs →
      ∃ evs' τ', Run (PoolStep P) τ evs' τ' ∧ τ'.Quiet ∧ ∀ m ∈ evs', Onward (site P) m) ∧
    ∀ i d, τ.store.writer = some (i, d) → τ.threads i = none →
      (∃ a reply k e, ⟨i, a, .ends reply⟩ ∈ evs ∧ a.request.closesLast = true ∧
        (.commit k, .error e) ∈ callsOf i evs) ∧
      ∀ evs' τ', Run (PoolStep P) τ evs' τ' → τ'.store.db = τ.store.db ∧
        ∀ m ∈ evs', ∀ k w d', m.act ≠ .calls (.write k w) (.ok d') := by
  refine ⟨fun hcommits => drains busy_ne_conflict.symm h (attended h hcommits), ?_⟩
  intro i d hw hended
  refine ⟨stuck_after_refusal h hw hended, ?_⟩
  exact fun evs' τ' hrun => (Abandoned.run ⟨hw, hended, (coherent h).2 i d hw⟩ hrun).2

/-- Ann's account is deleted but the commit is refused. -/
def deletionStuck : Interleaving where
  tables := openedSalon
  choices := [comes 1 (.deleteUser 1), comes 2 (.deleteUser 1)] ++ works 0 1 ++ [.refuses 0] ++
    works 0 1
  served := by decide +kernel

theorem registrations_drain :
    (registrationsUnderway.final.store.writer.isSome = true ∧
      ∃ evs' τ', Run (PoolStep plain) registrationsUnderway.final evs' τ' ∧ τ'.Quiet ∧
        ∀ m ∈ evs', Onward (site plain) m) ∧
    ∃ d, deletionStuck.final.store.writer = some (0, d) ∧
      ∀ evs' τ', Run (PoolStep plain) deletionStuck.final evs' τ' →
        τ'.store.db = deletionStuck.final.store.db := by
  have hgranted : ∀ m ∈ registrationsUnderway.events, refused m = false := by decide +kernel
  constructor
  · refine ⟨by decide +kernel, (server_drains registrationsUnderway.run).1 ?_⟩
    intro m hm _ k e hact
    have hrefused := hgranted m hm
    rw [refused, Move.call?, hact] at hrefused
    cases hrefused
  · obtain ⟨⟨i, d⟩, hw⟩ : ∃ x, deletionStuck.final.store.writer = some x :=
      Option.isSome_iff_exists.mp (by decide +kernel)
    have hholder : deletionStuck.final.store.writer.map Prod.fst = some 0 := by decide +kernel
    rw [hw] at hholder
    obtain rfl : i = 0 := Option.some.inj hholder
    have hended : deletionStuck.final.threads 0 = none :=
      Option.isNone_iff_eq_none.mp (by decide +kernel)
    refine ⟨d, hw, fun evs' τ' hrun => ?_⟩
    exact (((server_drains deletionStuck.run).2 0 d hw hended).2 evs' τ' hrun).1

end Runs

end Gloora
