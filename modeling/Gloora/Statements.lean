import Gloora.Effects

/-!
# What one statement preserves

Facts about `Db.exec`, one case per statement: users keep their key and name, rows of
`slot_data` appear only by `INSERT INTO slot_data`, and the cascades keep every such row
attached to an existing user and salon.
-/

namespace Gloora
set_option autoImplicit false

open PyText Keyed

/-- Users of the later database with an old key were there before, under the same name and
email; a key above the old `seq` is new. -/
structure UsersEvolve (db db' : Db) : Prop where
  seq : db.users.seq ≤ db'.users.seq
  rows : ∀ id u', (id, u') ∈ db'.users.rows → id ≤ db.users.seq →
    ∃ u, (id, u) ∈ db.users.rows ∧ u.username = u'.username ∧ u.email = u'.email

theorem UsersEvolve.of_eq {db db' : Db} (h : db'.users = db.users) : UsersEvolve db db' :=
  ⟨Nat.le_of_eq (congrArg Table.seq h).symm, fun _ u hu _ => ⟨u, h ▸ hu, rfl, rfl⟩⟩

theorem hasKey_setSalon (db : Db) (id k : Nat) (f : Salon → Salon) :
    (db.setSalon id f).salons.HasKey k ↔ db.salons.HasKey k := Table.hasKey_update

theorem UsersEvolve.trans {a b c : Db} (hab : UsersEvolve a b) (hbc : UsersEvolve b c) :
    UsersEvolve a c := by
  refine ⟨Nat.le_trans hab.seq hbc.seq, ?_⟩
  intro id w hw hid
  obtain ⟨v, hv, hname, hemail⟩ := hbc.rows id w hw (Nat.le_trans hid hab.seq)
  obtain ⟨u, hu, hname', hemail'⟩ := hab.rows id v hv hid
  exact ⟨u, hu, hname'.trans hname, hemail'.trans hemail⟩

/-- The tables after a statement that no constraint stops and that finds its row. -/
def Db.written (db : Db) : Write → Db
  | .insertUser u => { db with users := db.users.insert u }
  | .setPassword mobile hash =>
    { db with users := db.users.update (fun _ u => u.mobile == mobile) fun u =>
        { u with password := hash } }
  | .deleteUser id =>
    { db with
      users := db.users.delete fun k _ => k == id
      slots := db.slots.delete fun _ r => r.userId == id }
  | .insertSalon r => { db with salons := db.salons.insert r }
  | .setRating id total count =>
    db.setSalon id fun r => { r with ratingTotal := total, ratingCount := count }
  | .setStatus id status => db.setSalon id fun r => { r with status := status }
  | .setWorkerCount id count => db.setSalon id fun r => { r with workerCount := some count }
  | .deleteSalon id =>
    { db with
      salons := db.salons.delete fun k _ => k == id
      salonServices := db.salonServices.delete fun _ r => r.salonId == id
      slots := db.slots.delete fun _ r => r.salonId == id }
  | .insertService name => { db with services := db.services.insert name }
  | .insertSalonService r => { db with salonServices := db.salonServices.insert r }
  | .deleteService id =>
    { db with
      services := db.services.delete fun k _ => k == id
      salonServices := db.salonServices.delete fun _ r => r.serviceId == id
      slots := db.slots.delete fun _ r => r.serviceId == some id }
  | .insertSlot r => { db with slots := db.slots.insert r }
  | .deleteBooking id => { db with slots := db.slots.delete fun k _ => k == id }

/-- A statement that succeeds writes all it says or, finding no row, nothing. -/
theorem exec_cases {db db' : Db} {w : Write} (h : db.exec w = some db') :
    db' = db ∨ db' = db.written w := by
  have hfound : ∀ {p : Prop} [Decidable p] {a : Db},
      (if p then some a else some db) = some db' → db' = db ∨ db' = a := by
    intro p _ a hp
    split at hp
    · exact .inr (Option.some.inj hp).symm
    · exact .inl (Option.some.inj hp).symm
  cases w with
  | insertUser u =>
    simp only [Db.exec] at h
    split at h
    · cases h
    · exact .inr (Option.some.inj h).symm
  | insertService name =>
    simp only [Db.exec] at h
    split at h
    · cases h
    · exact .inr (Option.some.inj h).symm
  | insertSalonService r =>
    simp only [Db.exec] at h
    split at h
    · exact .inr (Option.some.inj h).symm
    · cases h
  | insertSlot r =>
    simp only [Db.exec] at h
    split at h
    · exact .inr (Option.some.inj h).symm
    · cases h
  | deleteUser id => exact hfound h
  | deleteSalon id => exact hfound h
  | deleteService id => exact hfound h
  | _ => exact .inr (Option.some.inj h).symm

/-- The statements that a constraint can stop. -/
def Write.checked : Write → Bool
  | .insertUser _ | .insertService _ | .insertSalonService _ | .insertSlot _ => true
  | _ => false

theorem exec_unchecked {w : Write} (hw : w.checked = false) (db : Db) : db.exec w ≠ none := by
  cases w with
  | insertUser u => cases hw
  | insertService name => cases hw
  | insertSalonService r => cases hw
  | insertSlot r => cases hw
  | deleteUser id => simp only [Db.exec]; split <;> simp
  | deleteSalon id => simp only [Db.exec]; split <;> simp
  | deleteService id => simp only [Db.exec]; split <;> simp
  | _ => simp [Db.exec]

theorem exec_users {db db' : Db} {w : Write} (h : db.exec w = some db') : UsersEvolve db db' := by
  rcases exec_cases h with rfl | rfl
  · exact .of_eq rfl
  cases w with
  | insertUser u =>
    refine ⟨Nat.le_succ _, ?_⟩
    intro id v hv hid
    rcases Table.mem_insert.mp hv with hold | ⟨rfl, _⟩
    · exact ⟨v, hold, rfl, rfl⟩
    · exact absurd hid (Nat.not_succ_le_self _)
  | setPassword mobile hash =>
    refine ⟨Nat.le_refl _, ?_⟩
    intro id v hv _
    obtain ⟨u, hu, rfl⟩ := Table.mem_update.mp hv
    refine ⟨u, hu, ?_⟩
    split <;> exact ⟨rfl, rfl⟩
  | deleteUser id =>
    refine ⟨Nat.le_refl _, ?_⟩
    intro k v hv _
    exact ⟨v, (Table.mem_delete.mp hv).1, rfl, rfl⟩
  | _ => exact .of_eq rfl

theorem writes_users {db db' : Db} {ws : List Write} (h : Writes db ws db') :
    UsersEvolve db db' := by
  induction h with
  | nil => exact .of_eq rfl
  | snoc _ hexec ih => exact ih.trans (exec_users hexec)

theorem exec_insertSlot {db db' : Db} {r : Slot} :
    db.exec (.insertSlot r) = some db' ↔
      db.refersTo r = true ∧ db' = { db with slots := db.slots.insert r } := by
  simp only [Db.exec]
  constructor
  · intro h
    split at h
    · rename_i hrefers
      exact ⟨hrefers, (Option.some.inj h).symm⟩
    · cases h
  · rintro ⟨hrefers, rfl⟩
    rw [if_pos hrefers]

theorem refersTo_keys {db : Db} {r : Slot} (h : db.refersTo r = true) :
    db.users.HasKey r.userId ∧ db.salons.HasKey r.salonId := by
  simp only [Db.refersTo, Bool.and_eq_true, decide_eq_true_eq] at h
  exact h.1

/-- Every statement but `INSERT INTO slot_data` at most removes rows of `slot_data`. -/
theorem exec_slots {db db' : Db} {w : Write} (h : db.exec w = some db')
    (hw : ∀ r, w ≠ .insertSlot r) : db'.slots.rows.Sublist db.slots.rows := by
  rcases exec_cases h with rfl | rfl
  · exact .refl _
  cases w with
  | insertSlot r => exact absurd rfl (hw r)
  | deleteUser id => exact List.filter_sublist
  | deleteSalon id => exact List.filter_sublist
  | deleteService id => exact List.filter_sublist
  | deleteBooking id => exact List.filter_sublist
  | _ => exact .refl _

/-- Every booking belongs to an existing user of that name and to an existing salon. -/
def Owned (db : Db) : Prop := ∀ id r, (id, r) ∈ db.slots.rows →
  (∃ u, (r.userId, u) ∈ db.users.rows ∧ u.username = r.username) ∧ db.salons.HasKey r.salonId

theorem Owned.of_sublist {db db' : Db} (h : Owned db)
    (hslots : ∀ id r, (id, r) ∈ db'.slots.rows → (id, r) ∈ db.slots.rows)
    (husers : ∀ id r, (id, r) ∈ db'.slots.rows → ∀ u, (r.userId, u) ∈ db.users.rows →
      ∃ v, (r.userId, v) ∈ db'.users.rows ∧ v.username = u.username)
    (hsalons : ∀ id r, (id, r) ∈ db'.slots.rows → db.salons.HasKey r.salonId →
      db'.salons.HasKey r.salonId) : Owned db' := by
  intro id r hr
  obtain ⟨⟨u, hu, hname⟩, hsalon⟩ := h id r (hslots id r hr)
  obtain ⟨v, hv, hname'⟩ := husers id r hr u hu
  exact ⟨⟨v, hv, hname'.trans hname⟩, hsalons id r hr hsalon⟩

/-- The cascades of the four deletions keep `Owned`; an insertion needs the right name. -/
theorem exec_owned {db db' : Db} {w : Write} (h : db.exec w = some db') (howned : Owned db)
    (hname : ∀ r, w = .insertSlot r → ∀ u, (r.userId, u) ∈ db.users.rows → u.username = r.username) :
    Owned db' := by
  rcases exec_cases h with rfl | rfl
  · exact howned
  cases w with
  | insertUser u =>
    exact howned.of_sublist (fun _ _ hr => hr)
      (fun _ _ _ v hv => ⟨v, Table.mem_insert.mpr (.inl hv), rfl⟩) (fun _ _ _ hs => hs)
  | setPassword mobile hash =>
    refine howned.of_sublist (fun _ _ hr => hr) ?_ (fun _ _ _ hs => hs)
    intro _ r _ v hv
    refine ⟨_, Table.mem_update.mpr ⟨v, hv, rfl⟩, ?_⟩
    split <;> rfl
  | deleteUser id =>
    refine howned.of_sublist (fun _ _ hr => (Table.mem_delete.mp hr).1) ?_ (fun _ _ _ hs => hs)
    intro _ r hr v hv
    exact ⟨v, Table.mem_delete.mpr ⟨hv, (Table.mem_delete.mp hr).2⟩, rfl⟩
  | insertSalon r =>
    exact howned.of_sublist (fun _ _ hr => hr) (fun _ _ _ v hv => ⟨v, hv, rfl⟩)
      (fun _ _ _ hs => Table.hasKey_insert.mpr (.inl hs))
  | deleteSalon id =>
    refine howned.of_sublist (fun _ _ hr => (Table.mem_delete.mp hr).1)
      (fun _ _ _ v hv => ⟨v, hv, rfl⟩) ?_
    rintro _ r hr ⟨salon, hsalon⟩
    exact ⟨salon, Table.mem_delete.mpr ⟨hsalon, (Table.mem_delete.mp hr).2⟩⟩
  | insertService name => exact howned
  | insertSalonService r => exact howned
  | insertSlot r =>
    obtain ⟨hrefers, -⟩ := exec_insertSlot.mp h
    intro id r' hr'
    rcases Table.mem_insert.mp hr' with hold | ⟨_, rfl⟩
    · exact howned id r' hold
    · obtain ⟨⟨u, hu⟩, hsalon⟩ := refersTo_keys hrefers
      exact ⟨⟨u, hu, hname r' rfl u hu⟩, hsalon⟩
  | deleteService id =>
    exact howned.of_sublist (fun _ _ hr => (Table.mem_delete.mp hr).1)
      (fun _ _ _ v hv => ⟨v, hv, rfl⟩) (fun _ _ _ hs => hs)
  | deleteBooking id =>
    exact howned.of_sublist (fun _ _ hr => (Table.mem_delete.mp hr).1)
      (fun _ _ _ v hv => ⟨v, hv, rfl⟩) (fun _ _ _ hs => hs)
  | _ =>
    exact howned.of_sublist (fun _ _ hr => hr) (fun _ _ _ v hv => ⟨v, hv, rfl⟩)
      (fun _ _ _ hs => (hasKey_setSalon _ _ _ _).mpr hs)

section Columns
variable {β : Type} {f : Salon → β} {id : Nat} {db db' : Db} {w : Write} {r : Salon}

/-- The statement does not change what `f` reads of the salon with this key. -/
def Write.Spares (f : Salon → β) (id : Nat) : Write → Prop
  | .setRating k total count =>
    k = id → ∀ r : Salon, f { r with ratingTotal := total, ratingCount := count } = f r
  | .setStatus k status => k = id → ∀ r : Salon, f { r with status := status } = f r
  | .setWorkerCount k count => k = id → ∀ r : Salon, f { r with workerCount := some count } = f r
  | _ => True

/-- Only ratings, toggles and worker updates of the salon itself can change what `f` reads. -/
theorem issues_spares {s : Session} {req : Request} (h : req.issues s w)
    (hrate : ∀ field, req = .rateSalon id field → ∀ total count (r : Salon),
      f { r with ratingTotal := total, ratingCount := count } = f r)
    (htoggle : ∀ passKey, req = .toggleVerify id passKey → ∀ status (r : Salon),
      f { r with status := status } = f r)
    (hworkers : ∀ field, req = .updateWorkerCount id field → ∀ count (r : Salon),
      f { r with workerCount := some count } = f r) : w.Spares f id := by
  cases req with
  | rateSalon k field =>
    obtain ⟨total, count, rfl⟩ := h
    rintro rfl
    exact hrate field rfl total count
  | toggleVerify k passKey =>
    obtain ⟨status, rfl⟩ := h
    rintro rfl
    exact htoggle passKey rfl status
  | updateWorkerCount k field =>
    obtain ⟨count, rfl⟩ := h
    rintro rfl
    exact hworkers field rfl count
  | deleteUser k =>
    obtain rfl : w = .deleteUser k := h
    trivial
  | deleteSalon k =>
    obtain rfl : w = .deleteSalon k := h
    trivial
  | deleteService k =>
    obtain rfl : w = .deleteService k := h
    trivial
  | deleteBooking k =>
    obtain rfl : w = .deleteBooking k := h
    trivial
  | auth page action form =>
    obtain ⟨_, rfl⟩ := h
    trivial
  | resetPassword password =>
    obtain ⟨_, _, rfl⟩ := h
    trivial
  | registerSalon form => rcases h with ⟨_, rfl⟩ | ⟨_, rfl⟩ | ⟨_, rfl⟩ <;> trivial
  | paymentSuccess form =>
    obtain ⟨_, _, _, _, _, _, rfl⟩ := h
    trivial
  | _ => exact h.elim

theorem exec_salons_seq (h : db.exec w = some db') : db.salons.seq ≤ db'.salons.seq := by
  rcases exec_cases h with rfl | rfl
  · exact Nat.le_refl _
  cases w with
  | insertSalon r => exact Nat.le_succ _
  | _ => exact Nat.le_refl _

/-- A key that has been given out stays below the counter. -/
theorem exec_known (id : Nat) {db : Db} {w : Write} {db' : Db} (hid : id ≤ db.salons.seq)
    (h : db.exec w = some db') : id ≤ db'.salons.seq :=
  Nat.le_trans hid (exec_salons_seq h)

theorem setSalon_spares {k : Nat} {g : Salon → Salon} (hg : k = id → ∀ r, f (g r) = f r)
    (hr : (id, r) ∈ (db.setSalon k g).salons.rows) :
    ∃ r₀, (id, r₀) ∈ db.salons.rows ∧ f r = f r₀ := by
  obtain ⟨r₀, hr₀, rfl⟩ := Table.mem_update.mp hr
  refine ⟨r₀, hr₀, ?_⟩
  split
  · rename_i hk
    exact hg (beq_iff_eq.mp hk).symm r₀
  · rfl

/-- A salon with an old key was there before, and what the statement spares is unchanged. -/
theorem exec_spares (h : db.exec w = some db') (hw : w.Spares f id) (hid : id ≤ db.salons.seq)
    (hr : (id, r) ∈ db'.salons.rows) : ∃ r₀, (id, r₀) ∈ db.salons.rows ∧ f r = f r₀ := by
  rcases exec_cases h with rfl | rfl
  · exact ⟨r, hr, rfl⟩
  cases w with
  | insertSalon r' =>
    rcases Table.mem_insert.mp hr with hold | ⟨rfl, -⟩
    · exact ⟨r, hold, rfl⟩
    · exact absurd hid (Nat.not_succ_le_self _)
  | setRating k total count => exact setSalon_spares hw hr
  | setStatus k status => exact setSalon_spares hw hr
  | setWorkerCount k count => exact setSalon_spares hw hr
  | deleteSalon k => exact ⟨r, (Table.mem_delete.mp hr).1, rfl⟩
  | _ => exact ⟨r, hr, rfl⟩

end Columns

end Gloora
