import Gloora.Lib.Journals
import Gloora.Accounts
import Gloora.Registration

/-!
# What the constraints keep

The UNIQUE and FOREIGN KEY constraints hold of every state a request is ever shown, whether
it is committed or still inside a transaction. A booking is removed by the deletion of itself,
of its user or of its salon, and by nothing else.
-/

namespace Gloora
set_option autoImplicit false

open PyText Keyed Runs Threads Transactions

/-- What the UNIQUE and FOREIGN KEY constraints promise of the tables. -/
structure Consistent (db : Db) : Prop where
  users : UsersUnique db
  linked : Linked db
  bookings : ∀ id r, (id, r) ∈ db.slots.rows → db.refersTo r = true

theorem consistent_init : Consistent initAllDatabases := by
  refine ⟨?_, ?_, ?_⟩
  · simp [UsersUnique, initAllDatabases]
  · constructor <;> simp [initAllDatabases]
  · simp [initAllDatabases]

/-- The statement deletes the booking `id` with the row `r`, by itself or by a cascade. -/
def Write.Removes (id : Nat) (r : Slot) : Write → Prop
  | .deleteUser k => r.userId = k
  | .deleteSalon k => r.salonId = k
  | .deleteService k => r.serviceId = some k
  | .deleteBooking k => id = k
  | _ => False

section Statements
variable {db db' : Db} {w : Write} {id k : Nat} {r : Slot}

theorem refersTo_iff : db.refersTo r = true ↔ db.users.HasKey r.userId ∧
    db.salons.HasKey r.salonId ∧ ∀ k, r.serviceId = some k → db.services.HasKey k := by
  cases hservice : r.serviceId <;> simp [Db.refersTo, hservice, and_assoc]

theorem mem_slots_written : (id, r) ∈ (db.written w).slots.rows ↔
    ((id, r) ∈ db.slots.rows ∧ ¬ w.Removes id r) ∨ (w = .insertSlot r ∧ id = db.slots.seq + 1) := by
  cases w with
  | deleteUser k => simp [Db.written, Write.Removes]
  | deleteSalon k => simp [Db.written, Write.Removes]
  | deleteService k => simp [Db.written, Write.Removes]
  | deleteBooking k => simp [Db.written, Write.Removes]
  | insertSlot r' =>
    simp only [Db.written, Table.mem_insert, Write.Removes, not_false_eq_true, and_true,
      Write.insertSlot.injEq]
    apply or_congr_right
    constructor
    · rintro ⟨hid, rfl⟩
      exact ⟨rfl, hid⟩
    · rintro ⟨rfl, hid⟩
      exact ⟨hid, rfl⟩
  | _ => simp [Db.written, Db.setSalon, Write.Removes]

theorem hasKey_deleted {α : Type} {t : Table α} (hk : t.HasKey k) (hne : k ≠ id) :
    (t.delete fun j _ => j == id).HasKey k := by
  obtain ⟨a, ha⟩ := hk
  exact ⟨a, Table.mem_delete.mpr ⟨ha, beq_eq_false_iff_ne.mpr hne⟩⟩

theorem users_written (hk : db.users.HasKey k) (hw : w ≠ .deleteUser k) :
    (db.written w).users.HasKey k := by
  cases w with
  | insertUser u => exact Table.hasKey_insert.mpr (.inl hk)
  | setPassword mobile hash => exact Table.hasKey_update.mpr hk
  | deleteUser id =>
    apply hasKey_deleted hk
    rintro rfl
    exact hw rfl
  | _ => exact hk

theorem salons_written (hk : db.salons.HasKey k) (hw : w ≠ .deleteSalon k) :
    (db.written w).salons.HasKey k := by
  cases w with
  | insertSalon r => exact Table.hasKey_insert.mpr (.inl hk)
  | setRating | setStatus | setWorkerCount => exact (hasKey_setSalon _ _ _ _).mpr hk
  | deleteSalon id =>
    apply hasKey_deleted hk
    rintro rfl
    exact hw rfl
  | _ => exact hk

theorem services_written (hk : db.services.HasKey k) (hw : w ≠ .deleteService k) :
    (db.written w).services.HasKey k := by
  cases w with
  | insertService name => exact Table.hasKey_insert.mpr (.inl hk)
  | deleteService id =>
    apply hasKey_deleted hk
    rintro rfl
    exact hw rfl
  | _ => exact hk

/-- A statement that does not remove a booking keeps what it refers to. -/
theorem refersTo_written (hr : db.refersTo r = true) (hw : ¬ w.Removes id r) :
    (db.written w).refersTo r = true := by
  obtain ⟨huser, hsalon, hservice⟩ := refersTo_iff.mp hr
  refine refersTo_iff.mpr ⟨users_written huser ?_, salons_written hsalon ?_, ?_⟩
  · rintro rfl
    exact hw rfl
  · rintro rfl
    exact hw rfl
  · intro k hk
    apply services_written (hservice k hk)
    rintro rfl
    exact hw hk

theorem exec_consistent (hdb : Consistent db) (h : db.exec w = some db') : Consistent db' := by
  refine ⟨exec_unique h hdb.users, exec_linked hdb.linked h, ?_⟩
  intro id r hr
  rcases exec_cases h with rfl | rfl
  · exact hdb.bookings id r hr
  rcases mem_slots_written.mp hr with ⟨hold, hkept⟩ | ⟨rfl, -⟩
  · exact refersTo_written (hdb.bookings id r hold) hkept
  · exact (exec_insertSlot.mp h).1

/-- A deletion that concerns a booking finds its row. -/
theorem exec_removes (hdb : Consistent db) (hr : (id, r) ∈ db.slots.rows) (hw : w.Removes id r) :
    db.exec w = some (db.written w) := by
  obtain ⟨huser, hsalon, hservice⟩ := refersTo_iff.mp (hdb.bookings id r hr)
  cases w with
  | deleteUser k =>
    obtain rfl : r.userId = k := hw
    exact if_pos huser
  | deleteSalon k =>
    obtain rfl : r.salonId = k := hw
    exact if_pos hsalon
  | deleteService k => exact if_pos (hservice k hw)
  | deleteBooking k => rfl
  | _ => exact hw.elim

/-- A booking is removed by exactly the statements that name it, its user, its salon or its
service. -/
theorem exec_slot (hdb : Consistent db) (h : db.exec w = some db')
    (hr : (id, r) ∈ db.slots.rows) : (id, r) ∈ db'.slots.rows ↔ ¬ w.Removes id r := by
  by_cases hw : w.Removes id r
  · obtain rfl := Option.some.inj ((exec_removes hdb hr hw).symm.trans h)
    refine iff_of_false ?_ (not_not_intro hw)
    intro hmem
    rcases mem_slots_written.mp hmem with ⟨-, hkept⟩ | ⟨rfl, -⟩
    · exact hkept hw
    · exact hw
  · refine iff_of_true ?_ hw
    rcases exec_cases h with rfl | rfl
    · exact hr
    · exact mem_slots_written.mpr (.inl ⟨hr, hw⟩)

end Statements

section Runs
variable {P : Platform} {jar : Nat → List Session} {evs : List ServerMove} {τ : Server}

theorem consistent_run (h : Run (PoolStep P) (Server.start initAllDatabases jar) evs τ) :
    (Consistent τ.store.db ∧ ∀ i d, τ.store.writer = some (i, d) → Consistent d) ∧
      ∀ m ∈ evs, ∀ c d, m.act = .calls c (.ok d) → Consistent d :=
  run_keeps consistent_init (fun _ => keeps_true _) (fun _ _ _ hd _ => exec_consistent hd) h

end Runs

end Gloora
