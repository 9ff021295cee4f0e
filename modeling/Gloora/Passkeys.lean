import Gloora.History
import Gloora.Sessions
import Gloora.Refinement
import Gloora.SalonRows

/-!
# What a passkey opens

Three handlers look at the passkey of a salon, and each remembers under a key of its own that
it was right. The update of the worker count looks at none of these keys, and the page for
workers at one of them.
-/

namespace Gloora
set_option autoImplicit false

open PyText Keyed Runs

/-- The keys under which a session remembers the passkeys it has submitted. -/
def Session.verified (s : Session) : Option Nat × Option Nat × Option Nat :=
  (s.verifiedSalonToggleId, s.verifiedWorkerSalonId, s.verifiedSalonId)

def Session.VerifiedFor (s : Session) (salonId : Nat) : Prop :=
  s.verifiedSalonToggleId = some salonId ∨ s.verifiedWorkerSalonId = some salonId ∨
    s.verifiedSalonId = some salonId

instance (s : Session) (salonId : Nat) : Decidable (s.VerifiedFor salonId) := by
  unfold Session.VerifiedFor
  infer_instance

/-- A request that carries the passkey with this hash. -/
def Request.submits (P : Platform) (passKey : Text) (salonId : Nat) : Request → Bool
  | .toggleVerify id (some key) | .verifyWorkerAccessPost id (some key)
  | .verifyWorkerPage id (some key) => id == salonId && P.checkPasswordHash passKey key
  | _ => false

section Sessions
variable {P : Platform} {env : Env} {db : Db} {s : Session} {req : Request} {o : Outcome}

theorem wrongPasskey_false {salonId : Nat} {key : Option Text}
    (h : wrongPasskey P (db.salons.find? salonId) key = .ok false) : ∃ r key', key = some key' ∧
      (salonId, r) ∈ db.salons.rows ∧ P.checkPasswordHash r.passKey key' = true := by
  unfold wrongPasskey at h
  split at h
  · cases h
  · cases h
  · rename_i r key' hfind
    have hcheck : (!P.checkPasswordHash r.passKey key') = false := Except.ok.inj h
    exact ⟨r, key', rfl, Table.find?_eq_some.mp hfind, by simpa using hcheck⟩

theorem not_verifiedFor {salonId : Nat} (h : s.verified = (none, none, none)) :
    ¬ s.VerifiedFor salonId := by
  unfold Session.verified at h
  unfold Session.VerifiedFor
  simp only [Prod.mk.injEq] at h
  obtain ⟨htoggle, hworker, hsalon⟩ := h
  rw [htoggle, hworker, hsalon]
  simp

/-- A session remembers a salon only if it did before or submits the passkey now. -/
theorem handle_verified {salonId : Nat}
    (h : (handle P env db s req).session.VerifiedFor salonId) : s.VerifiedFor salonId ∨
      ∃ r, (salonId, r) ∈ db.salons.rows ∧ req.submits P r.passKey salonId = true := by
  have hleaves := handle_leaves P env db s req
  generalize (handle P env db s req).session = s' at h hleaves
  cases hleaves with
  | same => exact .inl h
  | fresh => exact absurd h (not_verifiedFor rfl)
  | admin => exact absurd h (not_verifiedFor rfl)
  | user id u => exact absurd h (not_verifiedFor rfl)
  | booking booking => exact .inl h
  | toggle id key haccepted =>
    obtain ⟨r, key', rfl, hr, hcheck⟩ := wrongPasskey_false haccepted
    rcases h with hnew | hold
    · obtain rfl := Option.some.inj hnew
      exact .inr ⟨r, hr, by simpa [Request.submits] using hcheck⟩
    · exact .inl (.inr hold)
  | worker id key haccepted =>
    obtain ⟨r, key', rfl, hr, hcheck⟩ := wrongPasskey_false haccepted
    rcases h with hold | hnew | hold
    · exact .inl (.inl hold)
    · obtain rfl := Option.some.inj hnew
      exact .inr ⟨r, hr, by simpa [Request.submits] using hcheck⟩
    · exact .inl (.inr (.inr hold))
  | salon id key haccepted =>
    obtain ⟨r, key', rfl, hr, hcheck⟩ := wrongPasskey_false haccepted
    rcases h with hold | hold | hnew
    · exact .inl (.inl hold)
    · exact .inl (.inr (.inl hold))
    · obtain rfl := Option.some.inj hnew
      exact .inr ⟨r, hr, by simpa [Request.submits] using hcheck⟩
  | reset password => exact .inl h

/-- Where a login leads to. -/
def welcome (body : Body) : Bool :=
  body == .redirect "help_page".toList none || body == .redirect "admin_dashboard".toList none

theorem welcome_endpoint (page : GenderPage) :
    welcome (.redirect page.endpoint.toList none) = false := by
  cases page <;> decide

theorem asksLogin_verified (hreq : req.asksLogin = true) :
    (handle P env db s req).session.verified = (none, none, none) ∨
      welcome (handle P env db s req).body = false := by
  cases req with
  | loginPage form =>
    cases form with
    | none => cases hreq
    | some form =>
      simp only [handle, loginPage]
      have hback := welcome_endpoint .male
      repeat' split
      all_goals first | exact .inl rfl | exact .inr hback
  | auth page action form =>
    simp only [handle, handleAuth]
    have hback := welcome_endpoint page
    repeat' split
    all_goals first | exact .inl rfl | exact .inr hback | exact .inr rfl
  | _ => cases hreq

end Sessions

theorem restarts_verified {P : Platform} {σ σ' : Sys} {e : Event} (h : Step P σ e σ')
    (hrestarts : e.restarts = true) : e.outcome.session.verified = (none, none, none) := by
  unfold Event.restarts at hrestarts
  rw [h.served]
  split at hrestarts
  · rename_i hreq
    rw [hreq]
    rfl
  · rename_i hreq
    rw [hreq]
    rfl
  · obtain ⟨hasks, hbody⟩ := Bool.and_eq_true_iff.mp hrestarts
    rcases @asksLogin_verified P e.env e.before e.cookie e.request hasks with hnone | hwelcome
    · exact hnone
    · rw [← h.served] at hwelcome
      rw [welcome] at hwelcome
      rw [hbody] at hwelcome
      cases hwelcome

/-- The session that holds this cookie of browser `b` has submitted the passkey of the salon
since its last login or logout. -/
inductive Granted (P : Platform) (passKey : Text) (salonId : Nat) :
    List Event → Nat → Session → Prop where
  | submitted {evs : List Event} {e : Event} (h : e.request.submits P passKey salonId = true) :
      Granted P passKey salonId (evs ++ [e]) e.browser e.outcome.session
  | carried {evs : List Event} {e : Event} (h : Granted P passKey salonId evs e.browser e.cookie)
      (hrestarts : e.restarts = false) :
      Granted P passKey salonId (evs ++ [e]) e.browser e.outcome.session
  | earlier {evs : List Event} {e : Event} {b : Nat} {c : Session}
      (h : Granted P passKey salonId evs b c) : Granted P passKey salonId (evs ++ [e]) b c

section Runs
variable {P : Platform} {evs : List Event} {σ σ' : Sys} {e : Event} {b salonId : Nat} {c : Session}
  {r r' : Salon} {passKey : Text}

theorem Granted.submits (h : Granted P passKey salonId evs b c) :
    ∃ e ∈ evs, e.request.submits P passKey salonId = true := by
  induction h with
  | submitted h => exact ⟨_, by simp, h⟩
  | carried _ _ ih =>
    obtain ⟨e, he, hsubmits⟩ := ih
    exact ⟨e, List.mem_append_left _ he, hsubmits⟩
  | earlier _ ih =>
    obtain ⟨e, he, hsubmits⟩ := ih
    exact ⟨e, List.mem_append_left _ he, hsubmits⟩

/-- A request other than a rating, toggle or update of the salon keeps what `f` reads of it. -/
theorem Step.salon_kept {β : Type} {f : Salon → β} (h : Step P σ e σ')
    (hspares : ∀ w, e.request.issues e.cookie w → w.Spares f salonId)
    (hid : salonId ≤ e.before.salons.seq) (hr' : (salonId, r') ∈ e.outcome.db.salons.rows) :
    ∃ r, (salonId, r) ∈ e.before.salons.rows ∧ f r' = f r := by
  obtain ⟨ws, hws, hissues⟩ := h.effect.writes
  have hkept : salonId ≤ e.outcome.db.salons.seq ∧ ∀ r', (salonId, r') ∈ e.outcome.db.salons.rows →
      ∃ r, (salonId, r) ∈ e.before.salons.rows ∧ f r' = f r := by
    apply hws.preserved (fun db => salonId ≤ db.salons.seq ∧ ∀ r', (salonId, r') ∈ db.salons.rows →
      ∃ r, (salonId, r) ∈ e.before.salons.rows ∧ f r' = f r) ⟨hid, fun r hr => ⟨r, hr, rfl⟩⟩
    intro a d w hw ha hexec
    refine ⟨exec_known salonId ha.1 hexec, ?_⟩
    intro r hr
    obtain ⟨r₁, hr₁, heq⟩ := exec_spares hexec (hspares w (hissues w hw)) ha.1 hr
    obtain ⟨r₂, hr₂, heq₂⟩ := ha.2 r₁ hr₁
    exact ⟨r₂, hr₂, heq.trans heq₂⟩
  exact hkept.2 r' hr'

theorem spares_passKey (w : Write) : w.Spares Salon.passKey salonId := by
  cases w with
  | setRating k total count => exact fun _ _ => rfl
  | setStatus k status => exact fun _ _ => rfl
  | setWorkerCount k count => exact fun _ _ => rfl
  | _ => trivial

theorem Step.salons_seq (h : Step P σ e σ') : e.before.salons.seq ≤ e.outcome.db.salons.seq := by
  obtain ⟨ws, hws, -⟩ := h.effect.writes
  apply hws.preserved (fun db => e.before.salons.seq ≤ db.salons.seq) (Nat.le_refl _)
  intro a d w _ ha hexec
  exact exec_known _ ha hexec

/-- A cookie that remembers a salon belongs to a session that has submitted its passkey. -/
theorem granted_run (h : Run (Step P) Sys.init evs σ) : ∀ b c, c ∈ σ.jar b → ∀ salonId,
    c.VerifiedFor salonId → salonId ≤ σ.db.salons.seq ∧
      ∀ r, (salonId, r) ∈ σ.db.salons.rows → Granted P r.passKey salonId evs b c := by
  induction h with
  | nil =>
    intro b c hc
    cases hc
  | @snoc es τ υ e hrun hstep ih =>
    -- what the invariant says of the cookie that was presented
    have hpresented : ∀ salonId, e.cookie.VerifiedFor salonId → salonId ≤ e.before.salons.seq ∧
        ∀ r, (salonId, r) ∈ e.before.salons.rows →
          Granted P r.passKey salonId es e.browser e.cookie := by
      rw [hstep.before]
      exact hstep.presented_keeps _ (fun _ hfresh => absurd hfresh (not_verifiedFor rfl)) (ih _)
    have hseq := hstep.salons_seq
    have hkeys : ∀ {salonId r'}, salonId ≤ e.before.salons.seq →
        (salonId, r') ∈ e.outcome.db.salons.rows →
        ∃ r, (salonId, r) ∈ e.before.salons.rows ∧ r'.passKey = r.passKey :=
      fun hid hr' => hstep.salon_kept (fun w _ => spares_passKey w) hid hr'
    intro b c hc salonId hverified
    rw [hstep.db]
    rcases (mem_jar hstep).mp hc with ⟨rfl, rfl⟩ | hold
    · rw [hstep.served] at hverified
      rcases handle_verified hverified with hbefore | ⟨r, hr, hsubmits⟩
      · obtain ⟨hid, hgranted⟩ := hpresented salonId hbefore
        refine ⟨Nat.le_trans hid hseq, ?_⟩
        intro r' hr'
        obtain ⟨r, hr, hsame⟩ := hkeys hid hr'
        rw [hsame]
        apply Granted.carried (hgranted r hr)
        by_contra hrestarts
        rw [← hstep.served] at hverified
        exact not_verifiedFor (restarts_verified hstep (by simpa using hrestarts)) hverified
      · refine ⟨Nat.le_trans (Table.le_seq hr) hseq, ?_⟩
        intro r' hr'
        obtain ⟨r₁, hr₁, hsame⟩ := hkeys (Table.le_seq hr) hr'
        rw [hsame, Table.mem_unique hr₁ hr]
        exact .submitted hsubmits
    · obtain ⟨hid, hgranted⟩ := ih b c hold salonId hverified
      rw [← hstep.before] at hid hgranted
      refine ⟨Nat.le_trans hid hseq, ?_⟩
      intro r' hr'
      obtain ⟨r, hr, hsame⟩ := hkeys hid hr'
      rw [hsame]
      exact .earlier (hgranted r hr)

/-- What opens a salon: its status and worker count. -/
def Salon.controls (r : Salon) : Text × Option Int := (r.status, r.workerCount)

/-- Only toggles and updates of the salon itself change its controls, a toggle only with the
passkey. -/
theorem Step.controls_changed (h : Step P σ e σ') (hr : (salonId, r) ∈ e.before.salons.rows)
    (hr' : (salonId, r') ∈ e.outcome.db.salons.rows) (hne : r'.controls ≠ r.controls) :
    e.request.submits P r.passKey salonId = true ∨
      ∃ field, e.request = .updateWorkerCount salonId field := by
  by_cases hupdate : ∃ field, e.request = .updateWorkerCount salonId field
  · exact .inr hupdate
  by_cases htoggle : ∃ key, e.request = .toggleVerify salonId key
  · left
    obtain ⟨key, hreq⟩ := htoggle
    by_contra hlocked
    apply hne
    have hdb : e.outcome.db = e.before := by
      rw [h.served, hreq]
      simp only [handle, toggleVerify]
      split
      · rfl
      split
      · rfl
      · rename_i hkey _
        obtain ⟨r₁, key', rfl, hr₁, hcheck⟩ := wrongPasskey_false hkey
        obtain rfl := Table.mem_unique hr₁ hr
        rw [hreq] at hlocked
        exact absurd (by simpa [Request.submits] using hcheck) hlocked
      · rfl
    rw [hdb] at hr'
    rw [Table.mem_unique hr' hr]
  · have hspares : ∀ w, e.request.issues e.cookie w → w.Spares Salon.controls salonId := by
      intro w hw
      apply issues_spares hw
      · exact fun _ _ _ _ _ => rfl
      · exact fun key hreq => absurd ⟨key, hreq⟩ htoggle
      · exact fun field hreq => absurd ⟨field, hreq⟩ hupdate
    obtain ⟨r₀, hr₀, hsame⟩ := h.salon_kept hspares (Table.le_seq hr) hr'
    rw [Table.mem_unique hr₀ hr] at hsame
    exact absurd hsame hne

/-- The salon to which update_worker_count gives another count: the session is logged in, the
count is one that the handler takes, and SQLite accepts the UPDATE. -/
def Event.updated? (e : Event) : Option Nat :=
  match e.request with
  | .updateWorkerCount salonId field =>
    let workerCount := (pyInt (field.getD "1".toList)).getD 1
    if e.cookie.username.isSome ∧ 1 ≤ workerCount ∧ fitsInteger workerCount ∧ e.env.accepts 0 ∧
        (e.before.salons.find? salonId).any fun r => r.workerCount ≠ some workerCount then
      some salonId
    else none
  | _ => none

/-- An UPDATE of the worker count that changes it comes from a session that remembers the salon. -/
def AsksVerified (e : Event) : Prop :=
  ∀ salonId ∈ e.updated?, e.cookie.VerifiedFor salonId

instance (e : Event) : Decidable (AsksVerified e) :=
  inferInstanceAs (Decidable (∀ salonId ∈ e.updated?, e.cookie.VerifiedFor salonId))

/-- Every other request to update_worker_count is sent back before the UPDATE, or changes nothing. -/
theorem Step.updated {field : Option Text} (h : Step P σ e σ')
    (hreq : e.request = .updateWorkerCount salonId field) (hr : (salonId, r) ∈ e.before.salons.rows)
    (hr' : (salonId, r') ∈ e.outcome.db.salons.rows) (hne : r'.controls ≠ r.controls) :
    e.updated? = some salonId := by
  have hkept : e.outcome.db ≠ e.before := by
    intro hdb
    rw [hdb] at hr'
    exact hne (by rw [Table.mem_unique hr' hr])
  have hserved := h.served
  rw [hreq] at hserved
  simp only [handle, updateWorkerCount] at hserved
  simp only [Event.updated?, hreq]
  rw [if_pos]
  split at hserved
  · exact absurd (congrArg Outcome.db hserved) hkept
  rename_i huser
  split at hserved
  · exact absurd (congrArg Outcome.db hserved) hkept
  rename_i hcount
  split at hserved
  · exact absurd (congrArg Outcome.db hserved) hkept
  rename_i hfits
  split at hserved
  · exact absurd (congrArg Outcome.db hserved) hkept
  rename_i db' hexec
  obtain ⟨haccepts, hexec⟩ := Env.execute_ok.mp hexec
  have hdb : e.outcome.db = db' := congrArg Outcome.db hserved
  rw [hdb, ← Option.some.inj hexec] at hr'
  obtain ⟨r₀, hr₀, rfl⟩ := Table.mem_update.mp hr'
  obtain rfl := Table.mem_unique hr₀ hr
  refine ⟨Option.isSome_iff_ne_none.mpr (by simpa using huser), by omega, by simpa using hfits, haccepts, ?_⟩
  rw [Table.find?_eq_some.mpr hr, Option.any_some, decide_eq_true_eq]
  intro hsame
  apply hne
  simp [Salon.controls, hsame]

/-- A session that is logged in has the passkey accepted by one of the two worker routes. -/
structure Admitted (P : Platform) (e : Event) (salonId : Nat) : Prop where
  user : e.cookie.username.isSome = true
  route : ∃ key, e.request = .verifyWorkerPage salonId key ∨
    e.request = .verifyWorkerAccessPost salonId key
  key : ∃ r, (salonId, r) ∈ e.before.salons.rows ∧ e.request.submits P r.passKey salonId = true

/-- The page for workers will find what it looks for. -/
def RemembersWorker (e : Event) (salonId : Nat) : Prop :=
  (∃ key, e.request = .verifyWorkerAccessPost salonId key) ∨
    e.cookie.verifiedWorkerSalonId = some salonId

theorem submits_accepted {db : Db} {key : Option Text} {req : Request}
    (hroute : req = .verifyWorkerPage salonId key ∨ req = .verifyWorkerAccessPost salonId key)
    (hr : (salonId, r) ∈ db.salons.rows) (hsubmits : req.submits P r.passKey salonId = true) :
    wrongPasskey P (db.salons.find? salonId) key = .ok false := by
  rw [Table.find?_eq_some.mpr hr]
  cases key with
  | none => rcases hroute with rfl | rfl <;> cases hsubmits
  | some key' =>
    have hcheck : P.checkPasswordHash r.passKey key' = true := by
      rcases hroute with rfl | rfl <;> simpa [Request.submits] using hsubmits
    simp [wrongPasskey, hcheck]

theorem Admitted.session (h : Admitted P e salonId) (hstep : Step P σ e σ') :
    e.outcome.session.username.isSome = true ∧
      (e.outcome.session.verifiedWorkerSalonId = some salonId ↔ RemembersWorker e salonId) := by
  obtain ⟨key, hroute⟩ := h.route
  obtain ⟨r, hr, hsubmits⟩ := h.key
  have haccepted := submits_accepted hroute hr hsubmits
  have huser := h.user
  rw [hstep.served]
  rcases hroute with hreq | hreq
  · rw [hreq]
    simp only [handle, verifyWorkerPage, haccepted, redirectToSalon]
    exact ⟨huser, by simp [RemembersWorker, hreq]⟩
  · rw [hreq]
    have hremembers : RemembersWorker e salonId := .inl ⟨key, hreq⟩
    simp only [handle, verifyWorkerAccessPost, haccepted]
    split
    · rename_i hverified
      exact ⟨huser, fun _ => hremembers, fun _ => hverified⟩
    · exact ⟨huser, fun _ => hremembers, fun _ => rfl⟩

theorem salons_sound (h : Run (Step P) Sys.init evs σ) : SalonsSound σ.db := by
  obtain ⟨moves, τ, hrun, -, hstore⟩ := pool_of_run h
  have hsound := salonsSound_run hrun salonsSound_init
  rwa [hstore] at hsound

theorem workerTogglePage_opens {db : Db} {s : Session} (huser : s.username.isSome = true)
    (hr : (salonId, r) ∈ db.salons.rows) (hsound : r.Sound) :
    (workerTogglePage db s salonId).body = .page "worker_toggle.html".toList ↔
      s.verifiedWorkerSalonId = some salonId := by
  obtain ⟨count, hcount, -⟩ := hsound.workers
  have hlogin : s.username.isNone = false := by simpa using huser
  unfold workerTogglePage
  rw [Table.find?_eq_some.mpr hr]
  by_cases hverified : s.verifiedWorkerSalonId = some salonId
  · simp [hlogin, hverified, hcount, renderTemplate]
  · simp [hlogin, hverified, redirectToSalon]

/-- The controls of a salon change only with its passkey when every UPDATE of the worker count
that changes it comes from a session that remembers it, and in any run the page for workers
opens exactly when the key was accepted where the page looks for it. -/
theorem passkey_controls (h : Run (Step P) Sys.init evs σ) :
    ((∀ e ∈ evs, AsksVerified e) → ∀ pre e post salonId r r', evs = pre ++ e :: post →
      (salonId, r) ∈ e.before.salons.rows → (salonId, r') ∈ e.outcome.db.salons.rows →
      r'.controls ≠ r.controls → e.request.submits P r.passKey salonId = true ∨
        Granted P r.passKey salonId pre e.browser e.cookie) ∧
    (∀ e ∈ evs, ∀ e' ∈ evs, ∀ salonId, Admitted P e salonId →
      e'.cookie = e.outcome.session → e'.request = .workerTogglePage salonId →
      e'.before.salons.HasKey salonId →
      (e'.outcome.body = .page "worker_toggle.html".toList ↔ RemembersWorker e salonId)) := by
  constructor
  · intro hcond pre e post salonId r r' hevs hr hr' hne
    rw [hevs] at h
    obtain ⟨τ, τ', hpre, hstep, -⟩ := h.at_event
    rcases hstep.controls_changed hr hr' hne with hsubmits | ⟨field, hreq⟩
    · exact .inl hsubmits
    · right
      have hverified := hcond e (hevs ▸ List.mem_append_right _ List.mem_cons_self) salonId
        (hstep.updated hreq hr hr' hne)
      rw [hstep.before] at hr
      rcases hstep.presented with hempty | hjar
      · rw [hempty] at hverified
        exact absurd hverified (not_verifiedFor rfl)
      · exact (granted_run hpre _ _ hjar salonId hverified).2 r hr
  · intro e he e' he' salonId hadmitted hcookie hreq hkey
    obtain ⟨_, _, _, _, -, -, hstep, -⟩ := h.at_mem he
    obtain ⟨_, _, τ, _, -, hpre', hstep', -⟩ := h.at_mem he'
    obtain ⟨huser, hremembers⟩ := hadmitted.session hstep
    obtain ⟨r, hr⟩ := hkey
    have hsound : r.Sound := by
      rw [hstep'.before] at hr
      exact salons_sound hpre' salonId r hr
    rw [← hremembers, hstep'.served, hreq, hcookie]
    exact workerTogglePage_opens huser hr hsound

end Runs

/-- Strangers ask for a new count in vain; bob submits the passkey where the page for workers
looks for it, and then uses the page. -/
def verifiedUpdate : Script where
  inputs := sends 3 (.updateWorkerCount 1 (some "9".toList)) :: (opening "1" ++
    [sends 2 (.updateWorkerCount 1 (some "0".toList)),
    sends 2 (.verifyWorkerAccessPost 1 (some "1234".toList)),
    sends 2 (.workerTogglePage 1), sends 2 (.updateWorkerCount 1 (some "5".toList))])
  served := by decide +kernel

theorem passkey_controls_verified :
    (∀ pre e post salonId r r', verifiedUpdate.events = pre ++ e :: post →
      (salonId, r) ∈ e.before.salons.rows → (salonId, r') ∈ e.outcome.db.salons.rows →
      r'.controls ≠ r.controls → e.request.submits plain r.passKey salonId = true ∨
        Granted plain r.passKey salonId pre e.browser e.cookie) ∧
    (∀ e ∈ verifiedUpdate.events, ∀ e' ∈ verifiedUpdate.events, ∀ salonId,
      Admitted plain e salonId → e'.cookie = e.outcome.session →
      e'.request = .workerTogglePage salonId → e'.before.salons.HasKey salonId →
      (e'.outcome.body = .page "worker_toggle.html".toList ↔ RemembersWorker e salonId)) :=
  ⟨(passkey_controls verifiedUpdate.steps).1 (by decide +kernel),
    (passkey_controls verifiedUpdate.steps).2⟩

/-- Bob, who has never submitted a passkey, sets the worker count of ann's salon. -/
theorem workers_set_without_passkey : ¬ ∀ (P : Platform) (evs : List Event) (σ σ' : Sys)
    (e : Event) (salonId : Nat) (r r' : Salon), Run (Step P) Sys.init evs σ → Step P σ e σ' →
    (salonId, r) ∈ e.before.salons.rows → (salonId, r') ∈ e.outcome.db.salons.rows →
    r'.controls ≠ r.controls → e.request.submits P r.passKey salonId = true ∨
      Granted P r.passKey salonId evs e.browser e.cookie := by
  intro h
  let before := (play plain Sys.init (opening "1")).2
  let e := before.event plain (sends 2 (.updateWorkerCount 1 (some "5".toList)))
  obtain ⟨r, hr⟩ : e.before.salons.HasKey 1 := by decide +kernel
  obtain ⟨r', hr'⟩ : e.outcome.db.salons.HasKey 1 := by decide +kernel
  have hrows : (e.before.salons.find? 1).map (fun r => (r.passKey, r.controls)) =
        some ("1234".toList, "ON".toList, some 1) ∧
      (e.outcome.db.salons.find? 1).map Salon.controls = some ("ON".toList, some 5) := by
    decide +kernel
  rw [Table.find?_eq_some.mpr hr, Table.find?_eq_some.mpr hr'] at hrows
  simp only [Option.map_some, Option.some.injEq, Prod.mk.injEq] at hrows
  obtain ⟨⟨hkey, hold⟩, hnew⟩ := hrows
  have hne : r'.controls ≠ r.controls := by
    rw [hold, hnew]
    decide
  rcases h plain _ _ _ e 1 r r' (play_steps plain Sys.init (opening "1"))
    (step_event plain _ _) hr hr' hne with hsubmits | hgranted
  · cases hsubmits
  · obtain ⟨f, hf, hsubmits⟩ := hgranted.submits
    have hnever : ∀ f ∈ (play plain Sys.init (opening "1")).1,
        f.request.submits plain "1234".toList 1 = false := by decide +kernel
    rw [hkey, hnever f hf] at hsubmits
    cases hsubmits

end Gloora
