import Gloora.Access
import Gloora.History
import Gloora.Prices

/-!
# What a deletion leaves behind

The foreign keys cascade. The owner of a salon and the services of a booking are kept in
columns without a constraint.
-/

namespace Gloora
set_option autoImplicit false

open PyText Keyed Runs

/-- A row that a delete route of the administrator can remove, and that others refer to. -/
inductive Entity where
  | user (id : Nat) (u : User)
  | salon (id : Nat)
  | service (id : Nat)
deriving DecidableEq

namespace Entity

def deletion : Entity → Request
  | .user id _ => .deleteUser id
  | .salon id => .deleteSalon id
  | .service id => .deleteService id

def Stored (db : Db) : Entity → Prop
  | .user id u => (id, u) ∈ db.users.rows
  | .salon id => db.salons.HasKey id
  | .service id => db.services.HasKey id

/-- The salon names the entity as its owner. -/
def InSalon (r : Salon) : Entity → Prop
  | .user id u => r.ownerId = some id ∨ r.ownerUsername = u.username
  | _ => False

def InSalonService (r : SalonService) : Entity → Prop
  | .user _ _ => False
  | .salon id => r.salonId = id
  | .service id => r.serviceId = id

/-- The paid booking lists the service. -/
def ListedIn (r : Slot) : Entity → Prop
  | .service id => r.paymentStatus = "paid".toList ∧ idText id ∈ splitComma r.selectedServices
  | _ => False

def InSlot (r : Slot) : Entity → Prop
  | .user id _ => r.userId = id
  | .salon id => r.salonId = id
  | .service id => r.serviceId = some id ∨ (Entity.service id).ListedIn r

/-- The entity's own row, in one of the three tables. -/
def isUser (k : Nat) : Entity → Prop
  | .user id _ => k = id
  | _ => False

def isSalon (k : Nat) : Entity → Prop
  | .salon id => k = id
  | _ => False

def isService (k : Nat) : Entity → Prop
  | .service id => k = id
  | _ => False

/-- After the deletion nothing refers to the entity, and all other rows are as before. -/
structure CleanDelete (x : Entity) (db db' : Db) : Prop where
  gone : ¬ x.Stored db'
  salons : ∀ k r, (k, r) ∈ db'.salons.rows → ¬ x.InSalon r
  salonServices : ∀ k r, (k, r) ∈ db'.salonServices.rows → ¬ x.InSalonService r
  slots : ∀ k r, (k, r) ∈ db'.slots.rows → ¬ x.InSlot r
  otherUsers : ∀ k u, ¬ x.isUser k → ((k, u) ∈ db'.users.rows ↔ (k, u) ∈ db.users.rows)
  otherSalons : ∀ k r, ¬ x.isSalon k → ¬ x.InSalon r →
    ((k, r) ∈ db'.salons.rows ↔ (k, r) ∈ db.salons.rows)
  otherServices : ∀ k name, ¬ x.isService k →
    ((k, name) ∈ db'.services.rows ↔ (k, name) ∈ db.services.rows)
  otherSalonServices : ∀ k r, ¬ x.InSalonService r →
    ((k, r) ∈ db'.salonServices.rows ↔ (k, r) ∈ db.salonServices.rows)
  otherSlots : ∀ k r, ¬ x.InSlot r → ((k, r) ∈ db'.slots.rows ↔ (k, r) ∈ db.slots.rows)

/-- No column without a constraint refers to the entity. -/
structure Unnamed (x : Entity) (db : Db) : Prop where
  owner : ∀ k r, (k, r) ∈ db.salons.rows → ¬ x.InSalon r
  listed : ∀ k r, (k, r) ∈ db.slots.rows → ¬ x.ListedIn r

end Entity

section Delete
variable {db db' : Db} {id k : Nat} {u : User}

theorem deleteUser_clean (hdb' : db' = db.written (.deleteUser id))
    (h : (Entity.user id u).Unnamed db) : (Entity.user id u).CleanDelete db db' := by
  subst hdb'
  refine ⟨?_, h.owner, fun _ _ _ hin => hin, ?_, ?_, fun _ _ _ _ => Iff.rfl,
    fun _ _ _ => Iff.rfl, fun _ _ _ => Iff.rfl, ?_⟩
  · intro hstored
    exact not_hasKey_deleted _ _ ⟨u, hstored⟩
  · intro k r hr
    simpa [Entity.InSlot] using (Table.mem_delete.mp hr).2
  · intro k v hk
    exact Table.mem_delete_of_not (beq_eq_false_iff_ne.mpr hk)
  · intro k r hr
    exact Table.mem_delete_of_not (by simpa [Entity.InSlot] using hr)

theorem deleteSalon_clean (hdb' : db' = db.written (.deleteSalon id)) :
    (Entity.salon id).CleanDelete db db' := by
  subst hdb'
  refine ⟨?_, fun _ _ _ hin => hin, ?_, ?_, fun _ _ _ => Iff.rfl, ?_, fun _ _ _ => Iff.rfl, ?_, ?_⟩
  · exact not_hasKey_deleted _ _
  · intro k r hr
    simpa [Entity.InSalonService] using (Table.mem_delete.mp hr).2
  · intro k r hr
    simpa [Entity.InSlot] using (Table.mem_delete.mp hr).2
  · intro k r hk _
    exact Table.mem_delete_of_not (beq_eq_false_iff_ne.mpr hk)
  · intro k r hr
    exact Table.mem_delete_of_not (by simpa [Entity.InSalonService] using hr)
  · intro k r hr
    exact Table.mem_delete_of_not (by simpa [Entity.InSlot] using hr)

theorem deleteService_clean (hdb' : db' = db.written (.deleteService id))
    (h : (Entity.service id).Unnamed db) : (Entity.service id).CleanDelete db db' := by
  subst hdb'
  refine ⟨?_, fun _ _ _ hin => hin, ?_, ?_, fun _ _ _ => Iff.rfl, fun _ _ _ _ => Iff.rfl,
    ?_, ?_, ?_⟩
  · exact not_hasKey_deleted _ _
  · intro k r hr
    simpa [Entity.InSalonService] using (Table.mem_delete.mp hr).2
  · rintro k r hr (hservice | hlisted)
    · simpa [hservice] using (Table.mem_delete.mp hr).2
    · exact h.listed k r (Table.mem_delete.mp hr).1 hlisted
  · intro k name hk
    exact Table.mem_delete_of_not (beq_eq_false_iff_ne.mpr hk)
  · intro k r hr
    exact Table.mem_delete_of_not (by simpa [Entity.InSalonService] using hr)
  · intro k r hr
    exact Table.mem_delete_of_not (beq_eq_false_iff_ne.mpr fun hservice => hr (.inl hservice))

end Delete

section Step
variable {P : Platform} {σ σ' : Sys} {evs : List Event} {e : Event} {x : Entity}

/-- The statement of the delete route. -/
def Entity.write : Entity → Write
  | .user id _ => .deleteUser id
  | .salon id => .deleteSalon id
  | .service id => .deleteService id

theorem Step.deleted (hstep : Step P σ e σ') (hreq : e.request = x.deletion)
    (haccepts : e.env.accepts 0 = true) (hstored : x.Stored σ.db) :
    σ'.db = σ.db.written x.write := by
  rw [hstep.db, hstep.served, hreq, hstep.before]
  cases x with
  | user id u =>
    have hkey : σ.db.users.HasKey id := ⟨u, hstored⟩
    simp [Entity.deletion, Entity.write, handle, deleteUser, deleteRow_db, haccepts, Db.exec, hkey,
      Db.written]
  | salon id =>
    have hkey : σ.db.salons.HasKey id := hstored
    simp [Entity.deletion, Entity.write, handle, deleteSalon, deleteRow_db, haccepts, Db.exec, hkey,
      Db.written]
  | service id =>
    have hkey : σ.db.services.HasKey id := hstored
    simp [Entity.deletion, Entity.write, handle, deleteService, deleteRow_db, haccepts, Db.exec,
      hkey, Db.written]

/-- A deletion leaves nothing dangling exactly when the columns without a constraint do not
name what it deletes. -/
theorem deletion_clean_iff (h : Run (Step P) Sys.init evs σ) (hstep : Step P σ e σ')
    (hreq : e.request = x.deletion) (haccepts : e.env.accepts 0 = true)
    (hstored : x.Stored σ.db) : x.CleanDelete σ.db σ'.db ↔ x.Unnamed σ.db := by
  have hdb' := hstep.deleted hreq haccepts hstored
  cases x with
  | user id u =>
    refine ⟨fun hclean => ⟨?_, fun _ _ _ hlisted => hlisted⟩, deleteUser_clean hdb'⟩
    intro k r hr
    exact hclean.salons k r (hdb' ▸ hr)
  | salon id =>
    exact ⟨fun _ => ⟨fun _ _ _ hin => hin, fun _ _ _ hlisted => hlisted⟩,
      fun _ => deleteSalon_clean hdb'⟩
  | service id =>
    refine ⟨fun hclean => ⟨fun _ _ _ hin => hin, ?_⟩, deleteService_clean hdb'⟩
    intro k r hr hlisted
    -- no INSERT fills `service_id`, so the cascade misses the row
    obtain ⟨_, _, _, _, booking, _, _, _, _, hrow⟩ := row_requested h hr
    have hservice : r.serviceId = none := by rw [hrow]; rfl
    refine hclean.slots k r ?_ (.inr hlisted)
    rw [hdb']
    exact Table.mem_delete.mpr ⟨hr, by simp [hservice]⟩

end Step

/-- The service that the visit's booking does not list. -/
def shaveDeleted : Event := visit.final.event plain (sends 3 (.deleteService 2))

theorem deletion_clean_iff_shave :
    (Entity.service 2).CleanDelete visit.final.db (visit.final.after shaveDeleted).db := by
  have hstored : (Entity.service 2).Stored visit.final.db := by
    change visit.final.db.services.HasKey 2
    decide +kernel
  have hlisted : ∀ r ∈ visit.final.db.slots.rows,
      idText 2 ∉ splitComma r.2.selectedServices := by decide +kernel
  exact (deletion_clean_iff (e := shaveDeleted) visit.steps (step_event plain _ _) rfl rfl
    hstored).mpr ⟨fun _ _ _ hin => hin, fun k r hr hin => hlisted (k, r) hr hin.2⟩

/-- Ann owns a salon when her account is deleted. -/
def annsSalon : Script where
  inputs := [sends 1 (registerAs "ann"), sends 1 (loginAs "ann"),
    sends 1 (openSalon "1" ["cut"] ["100"])]
  served := by decide +kernel

theorem owner_left_dangling : ¬ ∀ (P : Platform) (evs : List Event) (σ σ' : Sys) (e : Event)
    (x : Entity), Run (Step P) Sys.init evs σ → Step P σ e σ' → e.request = x.deletion →
    e.env.accepts 0 = true → x.Stored σ.db → x.CleanDelete σ.db σ'.db := by
  intro h
  have hann : (annsSalon.final.db.users.find? 1).isSome := by decide +kernel
  obtain ⟨u, hu⟩ := Option.isSome_iff_exists.mp hann
  have hclean := h plain _ _ _ _ (.user 1 u) annsSalon.steps
    (step_event plain annsSalon.final (sends 3 (.deleteUser 1))) rfl rfl
    (Table.find?_eq_some.mp hu)
  have hsalon : ∃ r ∈ (annsSalon.final.after (annsSalon.final.event plain
      (sends 3 (.deleteUser 1)))).db.salons.rows, r.2.ownerId = some 1 := by decide +kernel
  obtain ⟨⟨k, r⟩, hr, howner⟩ := hsalon
  exact hclean.salons k r hr (.inl howner)

end Gloora
