import Gloora.Integrity
import Gloora.Ownership
import Gloora.ProgramEffects
import Gloora.Refinement

/-!
# What becomes of a row

Between two moments of any run a key keeps standing for the same user, salon, service or
booking: only password hashes, ratings, the status and the number of workers change. So a
menu shrinks, and a booking stays until it is deleted.
-/

namespace Gloora
set_option autoImplicit false

open PyText Keyed Runs Threads Transactions

/-- The same account, perhaps with another password. -/
def User.SameAccount (u v : User) : Prop := v = { u with password := v.password }

/-- The same salon, perhaps with other ratings, another status or another number of workers. -/
def Salon.SameSalon (r q : Salon) : Prop :=
  q = { r with
    status := q.status, ratingTotal := q.ratingTotal, ratingCount := q.ratingCount
    workerCount := q.workerCount }

theorem User.SameAccount.refl (u : User) : u.SameAccount u := rfl

theorem Salon.SameSalon.refl (r : Salon) : r.SameSalon r := rfl

theorem User.SameAccount.trans {u v x : User} (huv : u.SameAccount v) (hvx : v.SameAccount x) :
    u.SameAccount x := by
  unfold User.SameAccount at huv hvx ⊢
  rw [hvx, huv]

theorem Salon.SameSalon.trans {r q x : Salon} (hrq : r.SameSalon q) (hqx : q.SameSalon x) :
    r.SameSalon x := by
  unfold Salon.SameSalon at hrq hqx ⊢
  rw [hqx, hrq]

structure Db.Evolves (db db' : Db) : Prop where
  users : Table.Evolves User.SameAccount db.users db'.users
  salons : Table.Evolves Salon.SameSalon db.salons db'.salons
  services : Table.Evolves Eq db.services db'.services
  salonServices : Table.Evolves Eq db.salonServices db'.salonServices
  slots : Table.Evolves Eq db.slots db'.slots

section Statements
variable {db db' db'' : Db} {w : Write} {ws : List Write} {id : Nat} {r : Slot}

theorem Db.Evolves.refl (db : Db) : Db.Evolves db db :=
  ⟨.refl User.SameAccount.refl _, .refl Salon.SameSalon.refl _, .refl (fun _ => rfl) _,
    .refl (fun _ => rfl) _, .refl (fun _ => rfl) _⟩

theorem Db.Evolves.trans (h : Db.Evolves db db') (h' : Db.Evolves db' db'') : Db.Evolves db db'' where
  users := h.users.trans (fun _ _ _ => User.SameAccount.trans) h'.users
  salons := h.salons.trans (fun _ _ _ => Salon.SameSalon.trans) h'.salons
  services := h.services.trans (fun _ _ _ => Eq.trans) h'.services
  salonServices := h.salonServices.trans (fun _ _ _ => Eq.trans) h'.salonServices
  slots := h.slots.trans (fun _ _ _ => Eq.trans) h'.slots

theorem written_users (w : Write) :
    Table.Evolves User.SameAccount db.users (db.written w).users := by
  have hrefl := User.SameAccount.refl
  cases w with
  | insertUser u => exact Table.evolves_insert hrefl db.users u
  | setPassword mobile hash =>
    have hkept (u : User) : u.SameAccount { u with password := hash } := rfl
    exact Table.evolves_update (p := fun _ u => u.mobile == mobile) hrefl hkept db.users
  | deleteUser id => exact Table.evolves_delete hrefl db.users fun k _ => k == id
  | _ => exact .refl hrefl db.users

theorem setSalon_salons {f : Salon → Salon} (hf : ∀ r : Salon, r.SameSalon (f r)) :
    Table.Evolves Salon.SameSalon db.salons (db.setSalon id f).salons :=
  Table.evolves_update (p := fun k _ => k == id) Salon.SameSalon.refl hf db.salons

theorem written_salons (w : Write) :
    Table.Evolves Salon.SameSalon db.salons (db.written w).salons := by
  have hrefl := Salon.SameSalon.refl
  cases w with
  | insertSalon r => exact Table.evolves_insert hrefl db.salons r
  | setRating id total count => exact setSalon_salons fun _ => rfl
  | setStatus id status => exact setSalon_salons fun _ => rfl
  | setWorkerCount id count => exact setSalon_salons fun _ => rfl
  | deleteSalon id => exact Table.evolves_delete hrefl db.salons fun k _ => k == id
  | _ => exact .refl hrefl db.salons

theorem written_services (w : Write) : Table.Evolves Eq db.services (db.written w).services := by
  have hrefl := @Eq.refl Text
  cases w with
  | insertService name => exact Table.evolves_insert hrefl db.services name
  | deleteService id => exact Table.evolves_delete hrefl db.services fun k _ => k == id
  | _ => exact .refl hrefl db.services

theorem written_salonServices (w : Write) :
    Table.Evolves Eq db.salonServices (db.written w).salonServices := by
  have hrefl := @Eq.refl SalonService
  cases w with
  | insertSalonService r => exact Table.evolves_insert hrefl db.salonServices r
  | deleteSalon id => exact Table.evolves_delete hrefl db.salonServices fun _ r => r.salonId == id
  | deleteService id =>
    exact Table.evolves_delete hrefl db.salonServices fun _ r => r.serviceId == id
  | _ => exact .refl hrefl db.salonServices

theorem written_slots (w : Write) : Table.Evolves Eq db.slots (db.written w).slots := by
  have hrefl := @Eq.refl Slot
  cases w with
  | insertSlot r => exact Table.evolves_insert hrefl db.slots r
  | deleteUser id => exact Table.evolves_delete hrefl db.slots fun _ r => r.userId == id
  | deleteSalon id => exact Table.evolves_delete hrefl db.slots fun _ r => r.salonId == id
  | deleteService id => exact Table.evolves_delete hrefl db.slots fun _ r => r.serviceId == some id
  | deleteBooking id => exact Table.evolves_delete hrefl db.slots fun k _ => k == id
  | _ => exact .refl hrefl db.slots

theorem exec_evolves (h : db.exec w = some db') : Db.Evolves db db' := by
  rcases exec_cases h with rfl | rfl
  · exact .refl _
  · exact ⟨written_users w, written_salons w, written_services w, written_salonServices w,
      written_slots w⟩

theorem execs_evolve (h : ws.foldlM Db.exec db = some db') : Db.Evolves db db' :=
  foldlM_kept (I := Db.Evolves db) (.refl db)
    (fun _ _ _ hd _ hexec => hd.trans (exec_evolves hexec)) h

/-- A booking is there after some statements if and only if none of them removes it. -/
theorem execs_slot (hdb : Consistent db) (h : ws.foldlM Db.exec db = some db')
    (hr : (id, r) ∈ db.slots.rows) :
    (id, r) ∈ db'.slots.rows ↔ ∀ w ∈ ws, ¬ w.Removes id r := by
  induction ws generalizing db with
  | nil =>
    obtain rfl : db = db' := by simpa using h
    simpa using hr
  | cons w ws ih =>
    rw [List.foldlM_cons] at h
    obtain ⟨d, hd, hrest⟩ := Option.bind_eq_some_iff.mp h
    rw [List.forall_mem_cons, ← exec_slot hdb hd hr]
    by_cases hkept : (id, r) ∈ d.slots.rows
    · rw [ih (exec_consistent hdb hd) hrest hkept]
      simp [hkept]
    · refine iff_of_false ?_ fun hboth => hkept hboth.1
      intro hlater
      -- its key is not given out again
      have hid : id ≤ d.slots.seq := Nat.le_trans (Table.le_seq hr) (exec_evolves hd).slots.seq
      obtain ⟨r', hr', rfl⟩ := (execs_evolve hrest).slots.rows id r hlater hid
      exact hkept hr'

end Statements

section Runs
variable {P : Platform} {db : Db} {jar : Nat → List Session} {evs evs' : List ServerMove}
  {τ τ' : Server} {id : Nat} {r : Slot}

/-- However requests interleave, no key is given to a second row, and a row that is there at
two moments is the same but for the columns that are meant to change. -/
theorem tables_evolve (h : Run (PoolStep P) (Server.start db jar) evs τ)
    (h' : Run (PoolStep P) τ evs' τ') : Db.Evolves τ.store.db τ'.store.db :=
  execs_evolve (journalFrom_builds h h')

theorem issues_insertSlot {s : Session} {req : Request} (h : req.issues s (.insertSlot r)) :
    ∃ userId username booking, r = paidRow userId username booking := by
  cases req with
  | paymentSuccess form =>
    obtain ⟨userId, username, booking, -, -, -, hrow⟩ := h
    exact ⟨userId, username, booking, Write.insertSlot.inj hrow⟩
  | _ => simp [Request.issues] at h

/-- No booking refers to a service. -/
def Unserviced (db : Db) : Prop := ∀ id r, (id, r) ∈ db.slots.rows → r.serviceId = none

theorem exec_unserviced {db db' : Db} {w : Write} (hdb : Unserviced db)
    (hw : ∀ r, w = .insertSlot r → r.serviceId = none) (h : db.exec w = some db') : Unserviced db' := by
  intro id r hr
  rcases exec_cases h with rfl | rfl
  · exact hdb id r hr
  rcases mem_slots_written.mp hr with ⟨hold, -⟩ | ⟨hinsert, -⟩
  · exact hdb id r hold
  · exact hw r hinsert

theorem unserviced_run (h : Run (PoolStep P) (Server.start initAllDatabases jar) evs τ) :
    Unserviced τ.store.db := by
  have hstart : Unserviced initAllDatabases := by simp [Unserviced, initAllDatabases]
  suffices hkeeps : ∀ a, Keeps Unserviced (fun w => ∀ r, w = .insertSlot r → r.serviceId = none)
      ((site P).program a) from
    (run_keeps hstart hkeeps (fun _ _ _ hd hw hexec => exec_unserviced hd hw hexec) h).1.1
  intro a
  apply (program_keeps P a.env a.cookie Unserviced a.request).mono
  rintro w hw r rfl
  obtain ⟨userId, username, booking, rfl⟩ := issues_insertSlot (issues_of_executes hw)
  rfl

/-- However requests interleave and whatever they are, each booking stays in `slot_data` until
the deletion of its user, its salon or itself is committed, and no other commit removes it. -/
theorem bookings_survive (h : Run (PoolStep P) (Server.start initAllDatabases jar) evs τ)
    (h' : Run (PoolStep P) τ evs' τ') (hr : (id, r) ∈ τ.store.db.slots.rows) :
    (id, r) ∈ τ'.store.db.slots.rows ↔ ∀ x ∈ journalFrom evs evs',
      x.2 ≠ .deleteUser r.userId ∧ x.2 ≠ .deleteSalon r.salonId ∧ x.2 ≠ .deleteBooking id := by
  have hremoves : ∀ w : Write, ¬ w.Removes id r ↔
      w ≠ .deleteUser r.userId ∧ w ≠ .deleteSalon r.salonId ∧ w ≠ .deleteBooking id := by
    have hnone := unserviced_run h id r hr
    intro w
    cases w with
    | deleteUser k => simp [Write.Removes, eq_comm]
    | deleteSalon k => simp [Write.Removes, eq_comm]
    | deleteService k => simp [Write.Removes, hnone]
    | deleteBooking k => simp [Write.Removes, eq_comm]
    | _ => simp [Write.Removes]
  rw [execs_slot (consistent_run h).1.1 (journalFrom_builds h h') hr, List.forall_mem_map]
  exact forall₂_congr fun x _ => hremoves x.2

/-- Every state that is committed, that a transaction has reached or that a request is shown
satisfies the UNIQUE and FOREIGN KEY constraints. -/
theorem tables_consistent (h : Run (PoolStep P) (Server.start initAllDatabases jar) evs τ) :
    Consistent τ.store.db ∧ (∀ i d, τ.store.writer = some (i, d) → Consistent d) ∧
      ∀ m ∈ evs, ∀ c d, m.act = .calls c (.ok d) → Consistent d :=
  ⟨(consistent_run h).1.1, (consistent_run h).1.2, (consistent_run h).2⟩

end Runs

section Menus
variable {db db' db'' : Db} {w : Write} {salonId : Nat} {item : ServiceItem}

/-- The salon and the service are both still there. -/
def Db.offers (db : Db) (salonId : Nat) (item : ServiceItem) : Bool :=
  decide (db.salons.HasKey salonId) && decide (db.services.HasKey item.id)

theorem offers_iff : db.offers salonId item = true ↔
    db.salons.HasKey salonId ∧ db.services.HasKey item.id := by
  simp [Db.offers]

theorem offers_of_mem (hlinked : Linked db) (h : item ∈ getSalonServices db salonId) :
    db.offers salonId item = true := by
  obtain ⟨r, hr, hitem⟩ := List.mem_filterMap.mp h
  obtain ⟨⟨id, hrow⟩, hsalon⟩ := Table.mem_select.mp hr
  obtain ⟨name, hname, rfl⟩ := Option.map_eq_some_iff.mp hitem
  obtain rfl : r.salonId = salonId := by simpa using hsalon
  exact offers_iff.mpr ⟨hlinked.salons id r hrow, name, Table.find?_eq_some.mp hname⟩

/-- The menu is the earlier one without the services that are gone since. -/
structure MenuKept (salonId : Nat) (db db' : Db) : Prop where
  menu : getSalonServices db' salonId = (getSalonServices db salonId).filter (db'.offers salonId)
  linked : Linked db'
  evolves : Db.Evolves db db'

theorem menuKept_of_eq (hlinked : Linked db') (hevolves : Db.Evolves db db')
    (hsame : getSalonServices db' salonId = getSalonServices db salonId) :
    MenuKept salonId db db' := by
  refine ⟨?_, hlinked, hevolves⟩
  rw [← hsame]
  exact (List.filter_eq_self.mpr fun item hitem => offers_of_mem hlinked hitem).symm

theorem MenuKept.trans (hlinked : Linked db) (hid : salonId ≤ db.salons.seq)
    (h : MenuKept salonId db db') (h' : MenuKept salonId db' db'') : MenuKept salonId db db'' := by
  refine ⟨?_, h'.linked, h.evolves.trans h'.evolves⟩
  rw [h'.menu, h.menu, List.filter_filter]
  apply List.filter_congr
  intro item hitem
  rw [Bool.and_eq_left_iff_imp]
  intro hoffers
  obtain ⟨hsalon, hservice⟩ := offers_iff.mp hoffers
  obtain ⟨-, _, hname⟩ := offers_iff.mp (offers_of_mem hlinked hitem)
  -- what is there in the end was there in between
  refine offers_iff.mpr ⟨?_, ?_⟩
  · by_contra hgone
    exact h'.evolves.salons.gone (Nat.le_trans hid h.evolves.salons.seq) hgone hsalon
  · by_contra hgone
    exact h'.evolves.services.gone
      (Nat.le_trans (Table.le_seq hname) h.evolves.services.seq) hgone hservice

theorem not_hasKey_delete {α : Type} {t : Table α} {k : Nat} :
    ¬ (t.delete fun j _ => j == k).HasKey k := by
  rintro ⟨a, ha⟩
  simpa using (Table.mem_delete.mp ha).2

/-- The services of a deleted salon go with it, those of the others stay. -/
theorem menu_deleteSalon (k : Nat) : getSalonServices (db.written (.deleteSalon k)) salonId =
    if k = salonId then [] else getSalonServices db salonId := by
  simp only [getSalonServices, Db.written, Table.select_delete]
  split
  · rename_i hk
    subst hk
    have hnone : (db.salonServices.select fun r => r.salonId == k).filter
        (fun r => !(r.salonId == k)) = [] := by
      apply List.filter_eq_nil_iff.mpr
      intro r hr
      simpa using (Table.mem_select.mp hr).2
    rw [hnone]
    rfl
  · rename_i hk
    have hall : (db.salonServices.select fun r => r.salonId == salonId).filter
        (fun r => !(r.salonId == k)) = db.salonServices.select fun r => r.salonId == salonId := by
      apply List.filter_eq_self.mpr
      intro r hr
      have hsalon : r.salonId = salonId := by simpa using (Table.mem_select.mp hr).2
      simpa [hsalon] using Ne.symm hk
    rw [hall]

theorem find?_delete {α : Type} {t : Table α} {k id : Nat} (hk : id ≠ k) :
    (t.delete fun j _ => j == k).find? id = t.find? id := by
  cases hrow : t.find? id with
  | none =>
    apply Table.find?_eq_none.mpr
    rintro ⟨a, ha⟩
    exact Table.find?_eq_none.mp hrow ⟨a, (Table.mem_delete.mp ha).1⟩
  | some a =>
    apply Table.find?_eq_some.mpr
    exact Table.mem_delete.mpr ⟨Table.find?_eq_some.mp hrow, beq_eq_false_iff_ne.mpr hk⟩

theorem menu_deleteService (k : Nat) : getSalonServices (db.written (.deleteService k)) salonId =
    (getSalonServices db salonId).filter fun item => !(item.id == k) := by
  simp only [getSalonServices, Db.written, Table.select_delete, List.filterMap_filter,
    List.filter_filterMap]
  apply List.filterMap_congr
  intro r _
  by_cases hk : r.serviceId = k
  · cases db.services.find? r.serviceId <;> simp [hk, Option.filter]
  · rw [find?_delete hk]
    cases db.services.find? r.serviceId <;> simp [hk, Option.filter]

theorem exec_menuKept (hlinked : Linked db) (h : db.exec w = some db')
    (hw : ∀ r, w = .insertSalonService r → r.salonId ≠ salonId) : MenuKept salonId db db' := by
  have hlinked' := exec_linked hlinked h
  have hevolves := exec_evolves h
  have hboth := exec_cases h
  cases w with
  | insertService name => exact menuKept_of_eq hlinked' hevolves (exec_foreign hlinked h trivial)
  | insertSalonService r =>
    exact menuKept_of_eq hlinked' hevolves (exec_foreign hlinked h (hw r rfl))
  | deleteSalon k =>
    rcases hboth with rfl | rfl
    · exact menuKept_of_eq hlinked' hevolves rfl
    by_cases hk : k = salonId
    · subst hk
      refine ⟨?_, hlinked', hevolves⟩
      rw [menu_deleteSalon, if_pos rfl]
      apply Eq.symm
      apply List.filter_eq_nil_iff.mpr
      intro item _ hoffers
      exact not_hasKey_delete (offers_iff.mp hoffers).1
    · apply menuKept_of_eq hlinked' hevolves
      rw [menu_deleteSalon, if_neg hk]
  | deleteService k =>
    rcases hboth with rfl | rfl
    · exact menuKept_of_eq hlinked' hevolves rfl
    refine ⟨?_, hlinked', hevolves⟩
    rw [menu_deleteService]
    apply List.filter_congr
    intro item hitem
    obtain ⟨hsalon, hservice⟩ := offers_iff.mp (offers_of_mem hlinked hitem)
    rw [Bool.eq_iff_iff, offers_iff]
    constructor
    · intro hne
      exact ⟨hsalon, hasKey_deleted hservice (by simpa using hne)⟩
    · rintro ⟨-, hkept⟩
      have hne : item.id ≠ k := by
        rintro rfl
        exact not_hasKey_delete hkept
      simpa using hne
  | _ => rcases hboth with rfl | rfl <;> exact menuKept_of_eq hlinked' hevolves rfl

theorem MenuKept.exec (hlinked : Linked db) (hid : salonId ≤ db.salons.seq)
    (h : MenuKept salonId db db') (hexec : db'.exec w = some db'')
    (hw : ∀ r, w = .insertSalonService r → r.salonId ≠ salonId) : MenuKept salonId db db'' :=
  h.trans hlinked hid (exec_menuKept h.linked hexec hw)

/-- The loop over the services of one salon leaves the menus of the others alone, also where
it fails. -/
theorem insertServices_menuKept {env : Env} {k own : Nat} {services : List (Text × Binary64.Double)}
    {start done cur : Db} (hlinked : Linked start) (hid : salonId ≤ start.salons.seq)
    (hown : own ≠ salonId) (hdone : MenuKept salonId start done) (hcur : MenuKept salonId start cur) :
    MenuKept salonId start (insertServices env own k services done cur).1 := by
  have hrow : ∀ (serviceId : Nat) (price : Option Binary64.Double) (r : SalonService),
      Write.insertSalonService ⟨own, serviceId, price⟩ = .insertSalonService r →
        r.salonId ≠ salonId := by
    rintro _ _ _ ⟨⟩
    exact hown
  induction services generalizing k done cur with
  | nil =>
    unfold insertServices
    split
    · exact hcur
    · exact hdone
  | cons service rest ih =>
    obtain ⟨name, price⟩ := service
    unfold insertServices
    split
    · split
      · exact hdone
      · rename_i hexec
        exact ih hdone (hcur.exec hlinked hid (Env.execute_ok.mp hexec).2 (hrow _ _))
    · split
      · exact hdone
      · rename_i cur' hexec
        have hcur' := hcur.exec hlinked hid (Env.execute_ok.mp hexec).2 (by simp)
        split
        · exact hcur'
        · rename_i hexec'
          exact ih hcur' (hcur'.exec hlinked hid (Env.execute_ok.mp hexec').2 (hrow _ _))

theorem registerSalon_menuKept (P : Platform) (env : Env) (s : Session) (form : SalonForm)
    (hlinked : Linked db) (hid : salonId ≤ db.salons.seq) :
    MenuKept salonId db (registerSalon P env db s form).db := by
  have hsame : MenuKept salonId db db := menuKept_of_eq hlinked (.refl db) rfl
  unfold registerSalon
  split
  · exact hsame
  split
  · exact hsame
  split
  · exact hsame
  split
  · exact hsame
  · rename_i db' hexec
    have hinserted := (Env.execute_ok.mp hexec).2
    have hstart := hsame.exec hlinked hid hinserted (by simp)
    have hown : db'.salons.seq ≠ salonId := by
      obtain rfl := (Option.some.inj hinserted).symm
      exact Nat.ne_of_gt (Nat.lt_succ_of_le hid)
    have hloop : MenuKept salonId db
        (insertServices env db'.salons.seq 1 (validServices form) db' db').1 :=
      insertServices_menuKept hlinked hid hown hstart hstart
    split
    · rename_i heq
      rwa [heq] at hloop
    · rename_i heq
      rwa [heq] at hloop

theorem handle_menuKept (P : Platform) (env : Env) (s : Session) (req : Request)
    (hlinked : Linked db) (hid : salonId ≤ db.salons.seq) :
    MenuKept salonId db (handle P env db s req).db := by
  by_cases hreq : ∃ form, req = .registerSalon form
  · obtain ⟨form, rfl⟩ := hreq
    exact registerSalon_menuKept P env s form hlinked hid
  · obtain ⟨ws, hws, hissues⟩ := (handle_effect P env db s req).writes
    apply hws.preserved (fun d => MenuKept salonId db d)
    · exact menuKept_of_eq hlinked (.refl db) rfl
    · intro a b w hw ha hexec
      apply ha.exec hlinked hid hexec
      rintro r rfl
      have hrow := hissues _ hw
      cases req with
      | registerSalon form => exact absurd ⟨form, rfl⟩ hreq
      | _ => simp [Request.issues] at hrow

end Menus

section Runs
variable {P : Platform} {evs evs' : List Event} {σ σ' : Sys} {salonId : Nat}

theorem linked_steps (h : Run (Step P) Sys.init evs σ) : Linked σ.db := by
  obtain ⟨moves, τ, hrun, -, hstore⟩ := pool_of_run h
  have hlinked := linked_run hrun
  rwa [hstore] at hlinked

/-- Once a salon is registered its menu only loses services: at any later moment it consists of
the same services at the same prices, less those that were deleted, and of none once the salon
itself is deleted. -/
theorem menu_only_shrinks (h : Run (Step P) Sys.init evs σ) (h' : Run (Step P) σ evs' σ')
    (hid : salonId ≤ σ.db.salons.seq) : getSalonServices σ'.db salonId =
      (getSalonServices σ.db salonId).filter (σ'.db.offers salonId) := by
  have hlinked := linked_steps h
  suffices hkept : MenuKept salonId σ.db σ'.db from hkept.menu
  refine h'.preserved (fun τ => MenuKept salonId σ.db τ.db) ?_ ?_
  · exact menuKept_of_eq hlinked (.refl _) rfl
  · intro τ e υ _ hτ hstep
    apply hτ.trans hlinked hid
    rw [hstep.db, hstep.served, hstep.before]
    exact handle_menuKept P e.env e.cookie e.request hτ.linked
      (Nat.le_trans hid hτ.evolves.salons.seq)

/-- After the visit of `Ownership`, the first service of the salon is deleted. -/
def cutDeleted : Event := visit.final.event plain (sends 3 (.deleteService 1))

theorem cutDeleted_step : Step plain visit.final cutDeleted (visit.final.after cutDeleted) :=
  step_event plain visit.final (sends 3 (.deleteService 1))

theorem menu_only_shrinks_cut : (getSalonServices visit.final.db 1).length = 2 ∧
    getSalonServices (visit.final.after cutDeleted).db 1 =
      (getSalonServices visit.final.db 1).filter ((visit.final.after cutDeleted).db.offers 1) := by
  have hregistered : 1 ≤ visit.final.db.salons.seq := by decide +kernel
  have hmenu : (getSalonServices visit.final.db 1).length = 2 := by decide +kernel
  exact ⟨hmenu, menu_only_shrinks visit.steps (.single cutDeleted_step) hregistered⟩

/-- After the visit the service is deleted but not yet committed, while somebody registers. -/
def deletionUnderway : Interleaving where
  tables := initAllDatabases
  choices := oneByOne (visit.events.zip [3, 3, 12, 2, 2, 4, 1, 2]) ++
    [comes 3 (.deleteService 1), comes 4 (registerAs "eve")] ++ works 8 1
  served := by decide +kernel

def deletionCommitted : Resumption deletionUnderway where
  choices := works 9 1 ++ works 8 1 ++ works 7 1 ++ works 9 1
  served := by decide +kernel

def bookingDeleted : Resumption deletionUnderway where
  choices := comes 5 (.deleteBooking 1) :: works 9 1 ++ works 8 1 ++ works 10 2
  served := by decide +kernel

theorem tables_consistent_cut : ∃ d, deletionUnderway.final.store.writer = some (8, d) ∧
    deletionUnderway.final.store.db.services.rows.length = 2 ∧ d.services.rows.length = 1 ∧
    Consistent deletionUnderway.final.store.db ∧ Consistent d ∧
    ∀ m ∈ deletionUnderway.events, ∀ c d, m.act = .calls c (.ok d) → Consistent d := by
  obtain ⟨⟨i, d⟩, hw⟩ : ∃ x, deletionUnderway.final.store.writer = some x :=
    Option.isSome_iff_exists.mp (by decide +kernel)
  have hopen : deletionUnderway.final.store.writer.map
      (fun x => (x.1, x.2.services.rows.length)) = some (8, 1) := by decide +kernel
  rw [hw] at hopen
  obtain ⟨rfl, hlength⟩ := Prod.mk.inj (Option.some.inj hopen)
  obtain ⟨hcommitted, hwriter, hshown⟩ := tables_consistent deletionUnderway.run
  exact ⟨d, hw, by decide +kernel, hlength, hcommitted, hwriter 8 d hw, hshown⟩

theorem tables_evolve_cut : deletionUnderway.final.store.db.services.HasKey 1 ∧
    ¬ deletionCommitted.final.store.db.services.HasKey 1 ∧
    Db.Evolves deletionUnderway.final.store.db deletionCommitted.final.store.db :=
  ⟨by decide +kernel, by decide +kernel, tables_evolve deletionUnderway.run deletionCommitted.run⟩

theorem bookings_survive_cut : ∃ r, (1, r) ∈ deletionUnderway.final.store.db.slots.rows ∧
    (1, r) ∈ deletionCommitted.final.store.db.slots.rows ∧
    (1, r) ∉ bookingDeleted.final.store.db.slots.rows := by
  obtain ⟨r, hr⟩ : deletionUnderway.final.store.db.slots.HasKey 1 := by decide +kernel
  have hservice : ∀ x ∈ journalFrom deletionUnderway.events deletionCommitted.events,
      x.2 = .deleteService 1 := by decide +kernel
  have hbooking : (10, .deleteBooking 1) ∈
      journalFrom deletionUnderway.events bookingDeleted.events := by decide +kernel
  refine ⟨r, hr, ?_, ?_⟩
  · apply (bookings_survive deletionUnderway.run deletionCommitted.run hr).mpr
    intro x hx
    simp [hservice x hx]
  · intro hstill
    exact ((bookings_survive deletionUnderway.run bookingDeleted.run hr).mp hstill _ hbooking).2.2
      rfl

end Runs

end Gloora
