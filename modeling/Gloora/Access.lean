import Gloora.Statements
import Gloora.Play

/-!
# Who can delete rows

Only the four delete routes remove a row of any table, and they do so for every session.
-/

namespace Gloora
set_option autoImplicit false

open PyText Keyed Runs

/-- Every row of the five tables is still there, under its key. -/
structure RowsKept (db db' : Db) : Prop where
  users : ∀ id, db.users.HasKey id → db'.users.HasKey id
  salons : ∀ id, db.salons.HasKey id → db'.salons.HasKey id
  services : ∀ id, db.services.HasKey id → db'.services.HasKey id
  salonServices : ∀ id, db.salonServices.HasKey id → db'.salonServices.HasKey id
  slots : ∀ id, db.slots.HasKey id → db'.slots.HasKey id

theorem RowsKept.refl (db : Db) : RowsKept db db :=
  ⟨fun _ h => h, fun _ h => h, fun _ h => h, fun _ h => h, fun _ h => h⟩

theorem RowsKept.trans {a b c : Db} (hab : RowsKept a b) (hbc : RowsKept b c) : RowsKept a c where
  users := fun id h => hbc.users id (hab.users id h)
  salons := fun id h => hbc.salons id (hab.salons id h)
  services := fun id h => hbc.services id (hab.services id h)
  salonServices := fun id h => hbc.salonServices id (hab.salonServices id h)
  slots := fun id h => hbc.slots id (hab.slots id h)

def Write.isDelete : Write → Bool
  | .deleteUser _ | .deleteSalon _ | .deleteService _ | .deleteBooking _ => true
  | _ => false

theorem rowsKept_setSalon (db : Db) (id : Nat) (f : Salon → Salon) :
    RowsKept db (db.setSalon id f) :=
  { RowsKept.refl db with salons := fun _ h => (hasKey_setSalon db id _ f).mpr h }

theorem exec_rowsKept {db db' : Db} {w : Write} (h : db.exec w = some db')
    (hw : w.isDelete = false) : RowsKept db db' := by
  rcases exec_cases h with rfl | rfl
  · exact .refl _
  cases w with
  | insertUser u =>
    exact { RowsKept.refl db with users := fun _ h => Table.hasKey_insert.mpr (.inl h) }
  | setPassword mobile hash =>
    exact { RowsKept.refl db with users := fun _ h => Table.hasKey_update.mpr h }
  | insertSalon r =>
    exact { RowsKept.refl db with salons := fun _ h => Table.hasKey_insert.mpr (.inl h) }
  | insertService name =>
    exact { RowsKept.refl db with services := fun _ h => Table.hasKey_insert.mpr (.inl h) }
  | insertSalonService r =>
    exact { RowsKept.refl db with
      salonServices := fun _ h => Table.hasKey_insert.mpr (.inl h) }
  | insertSlot r =>
    exact { RowsKept.refl db with slots := fun _ h => Table.hasKey_insert.mpr (.inl h) }
  | setRating id total count => exact rowsKept_setSalon _ _ _
  | setStatus id status => exact rowsKept_setSalon _ _ _
  | setWorkerCount id count => exact rowsKept_setSalon _ _ _
  | deleteUser id => cases hw
  | deleteSalon id => cases hw
  | deleteService id => cases hw
  | deleteBooking id => cases hw

def Request.isDeleteRoute : Request → Bool
  | .deleteUser _ | .deleteSalon _ | .deleteService _ | .deleteBooking _ => true
  | _ => false

theorem issues_isDelete {s : Session} {req : Request} {w : Write} (h : req.issues s w) :
    w.isDelete = req.isDeleteRoute := by
  cases req with
  | deleteUser id =>
    obtain rfl : w = .deleteUser id := h
    rfl
  | deleteSalon id =>
    obtain rfl : w = .deleteSalon id := h
    rfl
  | deleteService id =>
    obtain rfl : w = .deleteService id := h
    rfl
  | deleteBooking id =>
    obtain rfl : w = .deleteBooking id := h
    rfl
  | auth page action form =>
    obtain ⟨_, rfl⟩ := h
    rfl
  | resetPassword password =>
    obtain ⟨_, _, rfl⟩ := h
    rfl
  | registerSalon form =>
    rcases h with ⟨_, rfl⟩ | ⟨_, rfl⟩ | ⟨_, rfl⟩ <;> rfl
  | rateSalon id rating =>
    obtain ⟨_, _, rfl⟩ := h
    rfl
  | toggleVerify id passKey =>
    obtain ⟨_, rfl⟩ := h
    rfl
  | updateWorkerCount id count =>
    obtain ⟨_, rfl⟩ := h
    rfl
  | paymentSuccess form =>
    obtain ⟨_, _, _, _, _, _, rfl⟩ := h
    rfl
  | _ => exact False.elim h

def Request.removes (db : Db) : Request → Prop
  | .deleteUser id => db.users.HasKey id
  | .deleteSalon id => db.salons.HasKey id
  | .deleteService id => db.services.HasKey id
  | .deleteBooking id => db.slots.HasKey id
  | _ => False

section Delete
variable {env : Env} {db : Db} {s : Session} {w : Write}

theorem deleteRow_db : (deleteRow env db s w).db =
    if env.accepts 0 = true then (db.exec w).getD db else db := by
  unfold deleteRow Env.execute
  cases haccept : env.accepts 0
  · rfl
  · cases hexec : db.exec w <;> simp [quietRedirect, raise]

/-- A delete route keeps all rows exactly when its statement is refused or finds no row. -/
theorem deleteRow_rowsKept {removed : Prop} (hmiss : ¬ removed → (db.exec w).getD db = db)
    (hhit : removed → ¬ RowsKept db ((db.exec w).getD db)) :
    RowsKept db (deleteRow env db s w).db ↔ ¬ (env.accepts 0 = true ∧ removed) := by
  rw [deleteRow_db]
  by_cases haccept : env.accepts 0 = true
  · rw [if_pos haccept]
    constructor
    · intro hkept h
      exact hhit h.2 hkept
    · intro h
      rw [hmiss fun hremoved => h ⟨haccept, hremoved⟩]
      exact .refl db
  · rw [if_neg haccept]
    exact ⟨fun _ h => haccept h.1, fun _ => .refl db⟩

theorem not_hasKey_deleted {α : Type} (t : Table α) (id : Nat) :
    ¬ (t.delete fun k _ => k == id).HasKey id := by
  rintro ⟨a, ha⟩
  simpa using (Table.mem_delete.mp ha).2

theorem delete_missing {α : Type} {t : Table α} {id : Nat} (h : ¬ t.HasKey id) :
    (t.delete fun k _ => k == id) = t := by
  have hrows : (t.rows.filter fun r => !(r.1 == id)) = t.rows := by
    rw [List.filter_eq_self]
    rintro ⟨k, a⟩ hr
    simp only [Bool.not_eq_true', beq_eq_false_iff_ne, ne_eq]
    rintro rfl
    exact h ⟨a, hr⟩
  cases t
  simp only [Table.delete, Table.mk.injEq, and_true]
  exact hrows

end Delete

theorem removes_isDeleteRoute {db : Db} {req : Request} (h : req.removes db) :
    req.isDeleteRoute = true := by
  unfold Request.removes at h
  split at h
  all_goals first | rfl | exact h.elim

theorem other_rowsKept {P : Platform} {env : Env} {db : Db} {s : Session} {req : Request}
    (hreq : req.isDeleteRoute = false) : RowsKept db (handle P env db s req).db := by
  obtain ⟨ws, hws, hissues⟩ := (handle_effect P env db s req).writes
  apply hws.preserved (RowsKept db) (.refl db)
  intro a b w hw ha hexec
  exact ha.trans (exec_rowsKept hexec ((issues_isDelete (hissues w hw)).trans hreq))

/-- A request keeps all rows unless it is a delete route that hits a row; the session plays
no part. -/
theorem rows_kept_iff (P : Platform) (env : Env) (db : Db) (s : Session) (req : Request) :
    RowsKept db (handle P env db s req).db ↔ ¬ (env.accepts 0 = true ∧ req.removes db) := by
  cases hroute : req.isDeleteRoute with
  | false =>
    refine ⟨fun _ h => ?_, fun _ => other_rowsKept hroute⟩
    simp [removes_isDeleteRoute h.2] at hroute
  | true =>
    cases req with
    | deleteUser id =>
      apply deleteRow_rowsKept (fun (h : ¬ db.users.HasKey id) => by simp [Db.exec, h])
      intro (h : db.users.HasKey id) hkept
      simp only [Db.exec, h, if_true, Option.getD_some] at hkept
      exact not_hasKey_deleted _ _ (hkept.users id h)
    | deleteSalon id =>
      apply deleteRow_rowsKept (fun (h : ¬ db.salons.HasKey id) => by simp [Db.exec, h])
      intro (h : db.salons.HasKey id) hkept
      simp only [Db.exec, h, if_true, Option.getD_some] at hkept
      exact not_hasKey_deleted _ _ (hkept.salons id h)
    | deleteService id =>
      apply deleteRow_rowsKept (fun (h : ¬ db.services.HasKey id) => by simp [Db.exec, h])
      intro (h : db.services.HasKey id) hkept
      simp only [Db.exec, h, if_true, Option.getD_some] at hkept
      exact not_hasKey_deleted _ _ (hkept.services id h)
    | deleteBooking id =>
      apply deleteRow_rowsKept (fun h => by simp [Db.exec, delete_missing h])
      intro (h : db.slots.HasKey id) hkept
      exact not_hasKey_deleted _ _ (hkept.slots id h)
    | _ => cases hroute

theorem stranger_deletes_user : ¬ ∀ (P : Platform) (evs : List Event) (σ σ' : Sys) (e : Event),
    Run (Step P) Sys.init evs σ → Step P σ e σ' → e.cookie.admin = false →
      RowsKept σ.db σ'.db := by
  intro h
  have hkept := h plain _ _ _ _ (play_steps plain Sys.init (opening "1"))
    (step_event plain _ (sends 3 (.deleteUser 1))) rfl
  exact absurd (hkept.users 1 (by decide +kernel)) (by decide +kernel)

end Gloora
