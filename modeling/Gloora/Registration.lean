import Gloora.Interleavings
import Gloora.Statements

/-!
# What a registration adds to the services

A registration inserts its salon, the services that are not known yet and one row of
`salon_services` for each pair it keeps. `exec_foreign` says which of these statements leave
the services of a salon alone.
-/

namespace Gloora
set_option autoImplicit false

open PyText Binary64 Keyed Runs Threads Transactions

/-- What FOREIGN KEY and UNIQUE keep of the services. -/
structure Linked (db : Db) : Prop where
  salons : ∀ id r, (id, r) ∈ db.salonServices.rows → db.salons.HasKey r.salonId
  services : ∀ id r, (id, r) ∈ db.salonServices.rows → db.services.HasKey r.serviceId
  names : (db.services.rows.map Prod.snd).Nodup

section Statements
variable {db db' : Db} {w : Write} {salonId : Nat}

theorem exec_insertService {name : Text} : db.exec (.insertService name) = some db' ↔
    (∀ id, (id, name) ∉ db.services.rows) ∧
      db' = { db with services := db.services.insert name } := by
  have hnone : (db.services.first? (· == name)).isSome = false ↔
      ∀ id, (id, name) ∉ db.services.rows := by
    rw [Option.isSome_eq_false_iff, Option.isNone_iff_eq_none, Table.first?,
      List.find?_eq_none]
    constructor
    · intro h id hmem
      exact h _ hmem (beq_self_eq_true name)
    · rintro h ⟨id, other⟩ hmem hbeq
      obtain rfl : other = name := beq_iff_eq.mp hbeq
      exact h id hmem
  rw [← hnone]
  simp only [Db.exec]
  cases (db.services.first? (· == name)).isSome <;> simp [eq_comm]

theorem exec_insertSalonService {r : SalonService} : db.exec (.insertSalonService r) = some db' ↔
    (db.salons.HasKey r.salonId ∧ db.services.HasKey r.serviceId) ∧
      db' = { db with salonServices := db.salonServices.insert r } := by
  simp only [Db.exec]
  split
  · rename_i hkeys
    simp [hkeys, eq_comm]
  · rename_i hkeys
    simp [hkeys]

theorem exec_linked (hlinked : Linked db) (h : db.exec w = some db') : Linked db' := by
  have hboth := exec_cases h
  cases w with
  | insertSalonService r =>
    obtain ⟨⟨hsalon, hservice⟩, rfl⟩ := exec_insertSalonService.mp h
    refine ⟨?_, ?_, hlinked.names⟩
    · intro id r' hr'
      rcases Table.mem_insert.mp hr' with hold | ⟨-, rfl⟩
      · exact hlinked.salons id r' hold
      · exact hsalon
    · intro id r' hr'
      rcases Table.mem_insert.mp hr' with hold | ⟨-, rfl⟩
      · exact hlinked.services id r' hold
      · exact hservice
  | insertService name =>
    obtain ⟨hnew, rfl⟩ := exec_insertService.mp h
    refine ⟨hlinked.salons, ?_, ?_⟩
    · intro id r hr
      exact Table.hasKey_insert.mpr (.inl (hlinked.services id r hr))
    · simp only [Table.insert, List.map_append, List.map_cons, List.map_nil]
      apply List.nodup_append'.mpr
      refine ⟨hlinked.names, List.nodup_singleton _, ?_⟩
      rw [List.disjoint_singleton]
      intro hmem
      obtain ⟨⟨id, other⟩, hid, rfl⟩ := List.mem_map.mp hmem
      exact hnew id hid
  | insertSalon r =>
    obtain rfl := (Option.some.inj h).symm
    refine ⟨?_, hlinked.services, hlinked.names⟩
    intro id r' hr'
    exact Table.hasKey_insert.mpr (.inl (hlinked.salons id r' hr'))
  | deleteSalon id =>
    rcases hboth with rfl | rfl
    · exact hlinked
    refine ⟨?_, ?_, hlinked.names⟩
    · intro k r hr
      obtain ⟨hr, hother⟩ := Table.mem_delete.mp hr
      obtain ⟨salon, hsalon⟩ := hlinked.salons k r hr
      exact ⟨salon, Table.mem_delete.mpr ⟨hsalon, hother⟩⟩
    · intro k r hr
      exact hlinked.services k r (Table.mem_delete.mp hr).1
  | deleteService id =>
    rcases hboth with rfl | rfl
    · exact hlinked
    refine ⟨?_, ?_, ?_⟩
    · intro k r hr
      exact hlinked.salons k r (Table.mem_delete.mp hr).1
    · intro k r hr
      obtain ⟨hr, hother⟩ := Table.mem_delete.mp hr
      obtain ⟨name, hname⟩ := hlinked.services k r hr
      exact ⟨name, Table.mem_delete.mpr ⟨hname, hother⟩⟩
    · exact hlinked.names.sublist (List.filter_sublist.map _)
  | setRating | setStatus | setWorkerCount =>
    obtain rfl := (Option.some.inj h).symm
    refine ⟨?_, hlinked.services, hlinked.names⟩
    intro k r hr
    exact (hasKey_setSalon _ _ _ _).mpr (hlinked.salons k r hr)
  | insertUser | setPassword | deleteUser | insertSlot | deleteBooking =>
    rcases hboth with rfl | rfl <;> exact ⟨hlinked.salons, hlinked.services, hlinked.names⟩

/-- The statements of a registration. -/
def Write.Registers : Write → Prop
  | .insertSalon _ | .insertService _ | .insertSalonService _ => True
  | _ => False

/-- Those that concern no service of this salon. -/
def Write.Foreign (salonId : Nat) : Write → Prop
  | .insertSalon _ | .insertService _ => True
  | .insertSalonService r => r.salonId ≠ salonId
  | _ => False

theorem find?_insert_of_le {t : Table Text} {name : Text} {id : Nat} (h : id ≤ t.seq) :
    (t.insert name).find? id = t.find? id := by
  simp only [Table.find?, Table.insert, List.find?_append]
  have hnew : ((t.seq + 1, name).1 == id) = false := by
    simp only [beq_eq_false_iff_ne]
    omega
  simp [hnew]

theorem exec_foreign (hlinked : Linked db) (h : db.exec w = some db') (hw : w.Foreign salonId) :
    getSalonServices db' salonId = getSalonServices db salonId := by
  cases w with
  | insertSalon r =>
    obtain rfl := (Option.some.inj h).symm
    rfl
  | insertService name =>
    obtain ⟨-, rfl⟩ := exec_insertService.mp h
    apply List.filterMap_congr
    intro r hr
    obtain ⟨⟨id, hrow⟩, -⟩ := Table.mem_select.mp hr
    obtain ⟨name', hname'⟩ := hlinked.services id r hrow
    rw [find?_insert_of_le (Table.le_seq hname')]
  | insertSalonService r =>
    obtain ⟨-, rfl⟩ := exec_insertSalonService.mp h
    have hother : (r.salonId == salonId) = false := beq_eq_false_iff_ne.mpr hw
    simp only [getSalonServices, Table.select_insert, hother]
    simp
  | _ => exact hw.elim

/-- One more row of `salon_services`. -/
theorem exec_own {r : SalonService} {name : Text} (hname : (r.serviceId, name) ∈ db.services.rows)
    (h : db.exec (.insertSalonService r) = some db') : getSalonServices db' r.salonId =
      getSalonServices db r.salonId ++ [⟨r.serviceId, name, r.price⟩] := by
  obtain ⟨-, rfl⟩ := exec_insertSalonService.mp h
  simp only [getSalonServices, Table.select_insert, beq_self_eq_true, if_true,
    List.filterMap_append]
  simp [Table.find?_eq_some.mpr hname]

/-- A registration removes nothing and changes no row. -/
structure Grows (db db' : Db) : Prop where
  salons : ∀ id r, (id, r) ∈ db.salons.rows → (id, r) ∈ db'.salons.rows
  services : ∀ id name, (id, name) ∈ db.services.rows → (id, name) ∈ db'.services.rows

theorem Grows.refl (db : Db) : Grows db db := ⟨fun _ _ h => h, fun _ _ h => h⟩

theorem Grows.trans {a b c : Db} (hab : Grows a b) (hbc : Grows b c) : Grows a c where
  salons id r h := hbc.salons id r (hab.salons id r h)
  services id name h := hbc.services id name (hab.services id name h)

theorem exec_grows (h : db.exec w = some db') (hw : w.Registers) : Grows db db' := by
  cases w with
  | insertSalon r =>
    obtain rfl := (Option.some.inj h).symm
    exact ⟨fun _ _ hr => Table.mem_insert.mpr (.inl hr), fun _ _ hname => hname⟩
  | insertService name =>
    obtain ⟨-, rfl⟩ := exec_insertService.mp h
    exact ⟨fun _ _ hr => hr, fun _ _ hname => Table.mem_insert.mpr (.inl hname)⟩
  | insertSalonService r =>
    obtain ⟨-, rfl⟩ := exec_insertSalonService.mp h
    exact ⟨fun _ _ hr => hr, fun _ _ hname => hname⟩
  | _ => exact hw.elim

theorem linked_after {P : Platform} {jar : Nat → List Session} {evs : List ServerMove} {σ : Server}
    (h : Run (PoolStep P) (Server.start db jar) evs σ) (hlinked : Linked db) :
    Linked σ.store.db :=
  (run_keeps hlinked (fun _ => keeps_true _) (fun _ _ _ hd _ => exec_linked hd) h).1.1

theorem linked_run {P : Platform} {jar : Nat → List Session} {evs : List ServerMove} {σ : Server}
    (h : Run (PoolStep P) (Server.start initAllDatabases jar) evs σ) : Linked σ.store.db := by
  apply linked_after h
  constructor <;> simp [initAllDatabases]

end Statements

section Loop
variable {db db' : Db} {salonId : Nat}

def menu (db : Db) (salonId : Nat) : List (Text × Option Double) :=
  (getSalonServices db salonId).map fun item => (item.name, item.price)

/-- What `services` become in the database. -/
def priced (services : List (Text × Double)) : List (Text × Option Double) :=
  services.map fun p => (p.1, sqliteReal p.2)

/-- These services were added to the salon, and nothing else was changed that
`get_salon_services` reads. -/
structure Adds (salonId : Nat) (items : List (Text × Option Double)) (db db' : Db) : Prop where
  menu : menu db' salonId = menu db salonId ++ items
  others : ∀ k, k ≠ salonId → getSalonServices db' k = getSalonServices db k
  grows : Grows db db'
  linked : Linked db'

theorem Adds.refl (h : Linked db) : Adds salonId [] db db :=
  ⟨(List.append_nil _).symm, fun _ _ => rfl, .refl db, h⟩

theorem Adds.trans {a b c : Db} {items items' : List (Text × Option Double)}
    (hab : Adds salonId items a b) (hbc : Adds salonId items' b c) :
    Adds salonId (items ++ items') a c where
  menu := by rw [hbc.menu, hab.menu, List.append_assoc]
  others k hk := (hbc.others k hk).trans (hab.others k hk)
  grows := hab.grows.trans hbc.grows
  linked := hbc.linked

theorem adds_insertService {name : Text} (hlinked : Linked db)
    (h : db.exec (.insertService name) = some db') : Adds salonId [] db db' where
  menu := by rw [Gloora.menu, Gloora.menu, exec_foreign hlinked h trivial, List.append_nil]
  others k _ := exec_foreign hlinked h trivial
  grows := exec_grows h trivial
  linked := exec_linked hlinked h

theorem adds_insertSalonService {serviceId : Nat} {name : Text} {price : Option Double}
    (hlinked : Linked db) (hname : (serviceId, name) ∈ db.services.rows)
    (h : db.exec (.insertSalonService ⟨salonId, serviceId, price⟩) = some db') :
    Adds salonId [(name, price)] db db' where
  menu := by
    have hown := exec_own hname h
    rw [Gloora.menu, hown, List.map_append]
    rfl
  others k hk := exec_foreign hlinked h hk.symm
  grows := exec_grows h trivial
  linked := exec_linked hlinked h

theorem inserted_service {name : Text} (h : db.exec (.insertService name) = some db') :
    (db'.services.seq, name) ∈ db'.services.rows := by
  obtain ⟨-, rfl⟩ := exec_insertService.mp h
  exact Table.mem_insert.mpr (.inr ⟨rfl, rfl⟩)

/-- The loop adds one row for each service, with the id its name has or is given. -/
theorem insertServices_adds {env : Env} {services : List (Text × Double)} {k : Nat} {done cur : Db}
    (hlinked : Linked cur) (h : insertServices env salonId k services done cur = (db', none)) :
    Adds salonId (priced services) cur db' := by
  induction services generalizing k done cur with
  | nil =>
    unfold insertServices at h
    split at h
    · obtain rfl := (Prod.mk.inj h).1
      exact .refl hlinked
    · cases (Prod.mk.inj h).2
  | cons service rest ih =>
    obtain ⟨name, price⟩ := service
    unfold insertServices at h
    split at h
    · rename_i serviceId known hfirst
      obtain ⟨hmem, hbeq⟩ := Table.first?_mem hfirst
      obtain rfl : known = name := beq_iff_eq.mp hbeq
      split at h
      · cases (Prod.mk.inj h).2
      · rename_i cur' hexec
        have hadd := adds_insertSalonService hlinked hmem (Env.execute_ok.mp hexec).2
        exact hadd.trans (ih hadd.linked h)
    · split at h
      · cases (Prod.mk.inj h).2
      · rename_i cur' hexec
        have hservice := (Env.execute_ok.mp hexec).2
        have hnew : Adds salonId [] cur cur' := adds_insertService hlinked hservice
        split at h
        · cases (Prod.mk.inj h).2
        · rename_i cur'' hexec'
          have hadd := hnew.trans (adds_insertSalonService hnew.linked (inserted_service hservice)
            (Env.execute_ok.mp hexec').2)
          exact hadd.trans (ih hadd.linked h)

end Loop

section Accepted
variable {P : Platform} {env : Env} {db : Db} {s : Session} {form : SalonForm}

/-- The pairs of `service_name[]` and `service_price[]` with a name and a finite price. -/
def submittedServices (form : SalonForm) : List (Text × Option Double) :=
  (form.serviceNames.zip form.servicePrices).filterMap fun p =>
    (pyFloat (strip p.2)).bind fun price =>
      if strip p.1 ≠ [] ∧ IsFinite price then some (strip p.1, some price) else none

theorem priced_validServices (hfinite : ∀ text ∈ form.servicePrices, ∀ price,
      pyFloat (strip text) = some price → IsFinite price) :
    priced (validServices form) = submittedServices form := by
  have hpair : ∀ p ∈ form.serviceNames.zip form.servicePrices,
      (validService p.1 p.2).map (fun v => (v.1, sqliteReal v.2)) =
        (pyFloat (strip p.2)).bind fun price =>
          if strip p.1 ≠ [] ∧ IsFinite price then some (strip p.1, some price) else none := by
    intro p hp
    have hprice := hfinite p.2 (List.of_mem_zip hp).2
    unfold validService
    cases hname : strip p.1 with
    | nil => cases pyFloat (strip p.2) <;> simp
    | cons c cs =>
      cases htext : strip p.2 with
      | nil =>
        have hnil : pyFloat [] = none := by decide
        simp [hnil]
      | cons d ds =>
        rw [htext] at hprice
        cases hread : pyFloat (d :: ds) with
        | none => simp [hread]
        | some price =>
          cases price with
          | fin n => simp [hread, sqliteReal, IsFinite]
          | nan => exact (hprice .nan hread).elim
          | inf negative => exact (hprice (.inf negative) hread).elim
  rw [priced, validServices, List.map_filterMap, submittedServices]
  exact List.filterMap_congr hpair

theorem getSalonServices_fresh {salonId : Nat} (hlinked : Linked db)
    (hfresh : db.salons.seq < salonId) : getSalonServices db salonId = [] := by
  have hnone : db.salonServices.select (fun r => r.salonId == salonId) = [] := by
    rw [List.eq_nil_iff_forall_not_mem]
    intro r hr
    obtain ⟨⟨id, hrow⟩, hsalon⟩ := Table.mem_select.mp hr
    obtain rfl : r.salonId = salonId := beq_iff_eq.mp hsalon
    exact Table.not_hasKey_of_lt hfresh (hlinked.salons id r hrow)
  rw [getSalonServices, hnone]
  rfl

/-- An accepted form adds its salon, under the next key, and then its services. -/
theorem registerSalon_adds {db' : Db} (hlinked : Linked db)
    (hbody : (registerSalon P env db s form).body = .redirect "show_salons".toList none)
    (hdb : (registerSalon P env db s form).db = db') :
    (db.salons.seq + 1, newSalon P env s form) ∈ db'.salons.rows ∧
      Adds (db.salons.seq + 1) (priced (validServices form)) db db' := by
  unfold registerSalon at hbody hdb
  split at hbody
  · cases hbody
  rename_i hmandatory
  split at hbody
  · cases hbody
  rename_i hservices
  split at hbody
  · cases hbody
  rename_i hworkers
  split at hbody
  · cases hbody
  · rename_i db₁ hexec
    obtain ⟨-, hinsert⟩ := Env.execute_ok.mp hexec
    split at hbody
    · cases hbody
    · rename_i db₂ hloop
      rw [if_neg hmandatory, if_neg hservices, if_neg hworkers, hexec] at hdb
      simp only [hloop] at hdb
      obtain rfl : db₂ = db' := hdb
      have hsalon : Adds (db.salons.seq + 1) [] db db₁ := by
        refine ⟨?_, ?_, exec_grows hinsert trivial, exec_linked hlinked hinsert⟩
        · rw [menu, exec_foreign hlinked hinsert trivial, menu, List.append_nil]
        · exact fun k _ => exec_foreign hlinked hinsert trivial
      obtain rfl := (Option.some.inj hinsert).symm
      have hadds := insertServices_adds hsalon.linked hloop
      refine ⟨hadds.grows.salons _ _ (Table.mem_insert.mpr (.inr ⟨rfl, rfl⟩)), ?_⟩
      exact hsalon.trans hadds

/-- What a registration lists for its salon is what it has kept of the form. -/
theorem menu_registered (hlinked : Linked db) (haccepted : (registerSalon P env db s form).body =
      .redirect "show_salons".toList none) :
    menu (registerSalon P env db s form).db (db.salons.seq + 1) = priced (validServices form) := by
  obtain ⟨-, hadds⟩ := registerSalon_adds hlinked haccepted rfl
  have hfresh : menu db (db.salons.seq + 1) = [] := by
    rw [menu, getSalonServices_fresh hlinked (Nat.lt_succ_self _)]
    rfl
  rw [hadds.menu, hfresh, List.nil_append]

/-- What a salon's page shows after its registration is what the form has submitted. -/
theorem services_registered (P : Platform) (jar : Nat → List Session) (evs : List ServerMove)
    (σ : Server) (h : Run (PoolStep P) (Server.start initAllDatabases jar) evs σ) (env : Env)
    (s : Session) (form : SalonForm)
    (haccepted : (handle P env σ.store.db s (.registerSalon form)).body =
      .redirect "show_salons".toList none)
    (hfinite : ∀ text ∈ form.servicePrices, ∀ price,
      pyFloat (strip text) = some price → IsFinite price) :
    let salonId := σ.store.db.salons.seq + 1
    let db' := (handle P env σ.store.db s (.registerSalon form)).db
    (salonId, newSalon P env s form) ∈ db'.salons.rows ∧
      ((getSalonServices db' salonId).map fun item => (item.name, item.price)).Perm
        (submittedServices form) ∧
      (db'.services.rows.map Prod.snd).Nodup ∧
      (∀ id name, (id, name) ∈ σ.store.db.services.rows → (id, name) ∈ db'.services.rows) ∧
      ∀ k, k ≠ salonId → getSalonServices db' k = getSalonServices σ.store.db k := by
  intro salonId db'
  have hlinked := linked_run h
  obtain ⟨hsalon, hadds⟩ := registerSalon_adds hlinked haccepted rfl
  have hmenu : menu db' salonId = submittedServices form := by
    rw [← priced_validServices hfinite]
    exact menu_registered hlinked haccepted
  exact ⟨hsalon, .of_eq hmenu, hadds.linked.names, hadds.grows.services, hadds.others⟩

end Accepted

/-- A salon with one service. -/
def firstSalon : Interleaving where
  tables := initAllDatabases
  choices := comes 1 (openSalon "2" ["cut"] ["100"]) :: works 0 8
  served := by decide +kernel

/-- A form that names a known service twice, a new one, and none at all. -/
def secondForm : SalonForm where
  name := some "Unisex".toList
  address := none
  city := some "Nagpur".toList
  state := some "MH".toList
  contact := some "1".toList
  passKey := some "4321".toList
  workerCount := none
  image := none
  serviceNames := ["cut".toList, " shave ".toList, "cut".toList, " ".toList]
  servicePrices := ["80".toList, "1_0.5".toList, "75".toList, "5".toList]

theorem services_registered_again : (submittedServices secondForm).length = 3 ∧
    let db := firstSalon.final.store.db
    let salonId := db.salons.seq + 1
    let db' := (handle plain (calmly 0 "order") db {} (.registerSalon secondForm)).db
    (salonId, newSalon plain (calmly 0 "order") {} secondForm) ∈ db'.salons.rows ∧
      ((getSalonServices db' salonId).map fun item => (item.name, item.price)).Perm
        (submittedServices secondForm) ∧
      (db'.services.rows.map Prod.snd).Nodup ∧
      (∀ id name, (id, name) ∈ db.services.rows → (id, name) ∈ db'.services.rows) ∧
      ∀ k, k ≠ salonId → getSalonServices db' k = getSalonServices db k := by
  refine ⟨by decide +kernel, ?_⟩
  apply services_registered plain _ _ _ firstSalon.run
  · decide +kernel
  · have hall : ∀ text ∈ secondForm.servicePrices,
        ((pyFloat (strip text)).all fun price => decide (IsFinite price)) = true := by
      decide +kernel
    intro text htext price hprice
    have hfinite := hall text htext
    rw [hprice] at hfinite
    exact of_decide_eq_true hfinite

end Gloora
