import Gloora.Lib.Journals
import Gloora.ProgramEffects
import Gloora.Registration

/-!
# Registrations side by side

A registration commits its salon before it looks at the services. `Stage` says what each of
any number of registrations has reached while the others go on: as long as nothing fails
after that first commit, a registration ends with all of its services or with nothing.
-/

namespace Gloora
set_option autoImplicit false

open PyText Binary64 Keyed Runs Threads Transactions

/-- The key of the salon a registration has committed. -/
def salonKey : List (Command Write × Except Text Db) → Option Nat
  | (.write _ (.insertSalon _), .ok view) :: (.commit _, .ok _) :: _ => some view.salons.seq
  | _ => none

def registered (reply : Db → Outcome) : Bool :=
  (reply initAllDatabases).body = .redirect "show_salons".toList none

section Stages
variable {P : Platform} {a : Incoming} {form : SalonForm} {D V D' V' : Db}
  {l l' : List (Command Write × Except Text Db)} {x : Command Write × Except Text Db} {K : Nat}
  {taken items : List (Text × Option Double)} {c : Command Write} {r : Except Text Db}
  {next : Except Text Db → Program} {reply : Db → Outcome} {q : Program}

theorem salonKey_append (h : salonKey l = some K) : salonKey (l ++ l') = some K := by
  unfold salonKey at h
  split at h
  · exact h
  · cases h

/-- A registration that has committed salon `K`: its open transaction leads from `D` to `V` and
adds services of this salon only, which are now `taken`. -/
structure Holding (P : Platform) (a : Incoming) (form : SalonForm) (D V : Db)
    (l : List (Command Write × Except Text Db)) (K : Nat) (taken : List (Text × Option Double)) :
    Prop where
  key : salonKey l = some K
  row : (K, newSalon P a.env a.cookie form) ∈ V.salons.rows
  menu : menu V K = taken
  seq : V.salons.seq = D.salons.seq
  adds : ∃ items, Adds K items D V

theorem Holding.read (h : Holding P a form D V l K taken) :
    Holding P a form D V (l ++ [x]) K taken :=
  ⟨salonKey_append h.key, h.row, h.menu, h.seq, h.adds⟩

theorem Holding.wrote (h : Holding P a form D V l K taken) (hadds : Adds K items V V')
    (hseq : V'.salons.seq = V.salons.seq) :
    Holding P a form D V' (l ++ [x]) K (taken ++ items) where
  key := salonKey_append h.key
  row := hadds.grows.salons _ _ h.row
  menu := by rw [hadds.menu, h.menu]
  seq := hseq.trans h.seq
  adds := by
    obtain ⟨before, hbefore⟩ := h.adds
    exact ⟨before ++ items, hbefore.trans hadds⟩

theorem Holding.committed (h : Holding P a form D V l K taken) :
    Holding P a form V V (l ++ [x]) K taken := by
  obtain ⟨_, hadds⟩ := h.adds
  exact ⟨salonKey_append h.key, h.row, h.menu, rfl, [], .refl hadds.linked⟩

/-- How a registration may have ended when `D` is committed. -/
inductive Ended (P : Platform) (a : Incoming) (form : SalonForm) (D : Db)
    (l : List (Command Write × Except Text Db)) (reply : Db → Outcome) : Prop where
  | rejected (hkey : salonKey l = none) (hnothing : Transactions.committed l = [])
      (hreply : registered reply = false)
  | accepted (K : Nat) (hkey : salonKey l = some K)
      (hrow : (K, newSalon P a.env a.cookie form) ∈ D.salons.rows)
      (hmenu : menu D K = priced (validServices form)) (hreply : registered reply = true)

/-- Where a registration stands after the calls `l` when it sees the last database and `D` is
committed. -/
inductive Stage (P : Platform) (a : Incoming) (form : SalonForm) (D : Db) :
    Db → List (Command Write × Except Text Db) → Program → Prop where
  | starts : Stage P a form D D [] (registerSalonProgram P a.env a.cookie form)
  | inserted {V : Db} {salon : Salon} (hseq : V.salons.seq = D.salons.seq + 1)
      (hrow : (V.salons.seq, newSalon P a.env a.cookie form) ∈ V.salons.rows)
      (hmenu : menu V V.salons.seq = []) (hadds : Adds V.salons.seq [] D V) :
      Stage P a form D V [(.write 0 (.insertSalon salon), .ok V)] (commits a.cookie 0
        (insertServicesProgram a.cookie V.salons.seq 1 (validServices form)))
  | loop {V : Db} {l : List (Command Write × Except Text Db)} {K k : Nat}
      {taken : List (Text × Option Double)} {rest : List (Text × Double)}
      (h : Holding P a form D V l K taken)
      (hrest : taken ++ priced rest = priced (validServices form)) :
      Stage P a form D V l (insertServicesProgram a.cookie K k rest)
  | known {V : Db} {l : List (Command Write × Except Text Db)} {K k k' serviceId : Nat}
      {taken : List (Text × Option Double)} {name : Text} {price : Double}
      {rest : List (Text × Double)} (h : Holding P a form D V l K taken)
      (hrest : taken ++ priced ((name, price) :: rest) = priced (validServices form))
      (hname : (serviceId, name) ∈ V.services.rows) :
      Stage P a form D V l (writes a.cookie k
        (.insertSalonService ⟨K, serviceId, sqliteReal price⟩) fun _ =>
          insertServicesProgram a.cookie K k' rest)
  | unknown {V : Db} {l : List (Command Write × Except Text Db)} {K k : Nat}
      {taken : List (Text × Option Double)} {name : Text} {price : Double}
      {rest : List (Text × Double)} (h : Holding P a form D V l K taken)
      (hrest : taken ++ priced ((name, price) :: rest) = priced (validServices form)) :
      Stage P a form D V l (writes a.cookie k (.insertService name) fun view =>
        commits a.cookie k (writes a.cookie (k + 1)
          (.insertSalonService ⟨K, view.services.seq, sqliteReal price⟩) fun _ =>
            insertServicesProgram a.cookie K (k + 2) rest))
  | created {V : Db} {l : List (Command Write × Except Text Db)} {K k serviceId : Nat}
      {taken : List (Text × Option Double)} {name : Text} {price : Double}
      {rest : List (Text × Double)} (h : Holding P a form D V l K taken)
      (hrest : taken ++ priced ((name, price) :: rest) = priced (validServices form))
      (hname : (serviceId, name) ∈ V.services.rows) :
      Stage P a form D V l (commits a.cookie k (writes a.cookie (k + 1)
        (.insertSalonService ⟨K, serviceId, sqliteReal price⟩) fun _ =>
          insertServicesProgram a.cookie K (k + 2) rest))
  | done {V : Db} {l : List (Command Write × Except Text Db)} {reply : Db → Outcome}
      (h : Ended P a form D l reply) : Stage P a form D V l (.done reply)

/-- What a call of a registration does to the committed database. -/
structure Advances (l l' : List (Command Write × Except Text Db)) (D D' : Db) : Prop where
  grows : Grows D D'
  others : ∀ k, k ≤ D.salons.seq → salonKey l' ≠ some k →
    getSalonServices D' k = getSalonServices D k
  key : (salonKey l' = salonKey l ∧ D'.salons.seq = D.salons.seq) ∨
    (salonKey l = none ∧ salonKey l' = some (D.salons.seq + 1) ∧
      D'.salons.seq = D.salons.seq + 1)

theorem advances_quiet (hkey : salonKey l' = salonKey l) : Advances l l' D D :=
  ⟨.refl D, fun _ _ _ => rfl, .inl ⟨hkey, rfl⟩⟩

theorem Holding.advances (h : Holding P a form D V l K taken) : Advances l (l ++ [x]) D D :=
  advances_quiet ((salonKey_append h.key).trans h.key.symm)

theorem Holding.advances_committed (h : Holding P a form D V l K taken) :
    Advances l (l ++ [x]) D V := by
  obtain ⟨_, hadds⟩ := h.adds
  refine ⟨hadds.grows, ?_, .inl ⟨(salonKey_append h.key).trans h.key.symm, h.seq⟩⟩
  intro k _ hk
  apply hadds.others
  rintro rfl
  exact hk (salonKey_append h.key)

/-- The stage a call leads to, and what it does to the committed database. -/
def Reaches (P : Platform) (a : Incoming) (form : SalonForm) (D D' V' : Db)
    (l l' : List (Command Write × Except Text Db)) (q : Program) : Prop :=
  Stage P a form D' V' l' q ∧ Advances l l' D D'

theorem Holding.answered (h : Holding P a form D V l K taken)
    (hearly : ∀ e, r = .error e → salonKey l = none) : ∃ view, r = .ok view := by
  cases r with
  | ok view => exact ⟨view, rfl⟩
  | error e =>
    have hnone := hearly e rfl
    rw [h.key] at hnone
    cases hnone

theorem Holding.linked (h : Holding P a form D V l K taken) : Linked V := by
  obtain ⟨_, hadds⟩ := h.adds
  exact hadds.linked

theorem known_call {k k' serviceId : Nat} {name : Text} {price : Double}
    {rest : List (Text × Double)} (h : Holding P a form D V l K taken)
    (hrest : taken ++ priced ((name, price) :: rest) = priced (validServices form))
    (hname : (serviceId, name) ∈ V.services.rows)
    (hearly : ∀ e, r = .error e → salonKey l = none)
    (hans : Answers (site P) D V
      (.write k (.insertSalonService ⟨K, serviceId, sqliteReal price⟩)) r D' V') :
    ∃ view, r = .ok view ∧ Reaches P a form D D' V' l
      (l ++ [(.write k (.insertSalonService ⟨K, serviceId, sqliteReal price⟩), r)])
      (insertServicesProgram a.cookie K k' rest) := by
  obtain ⟨view, rfl⟩ := h.answered hearly
  cases hans with
  | write hexec =>
    have hadds := adds_insertSalonService h.linked hname hexec
    obtain ⟨-, rfl⟩ := exec_insertSalonService.mp hexec
    refine ⟨_, rfl, .loop (h.wrote hadds rfl) ?_, h.advances⟩
    rw [← hrest]
    simp [priced]

theorem created_call {k serviceId : Nat} {name : Text} {price : Double}
    {rest : List (Text × Double)} (h : Holding P a form D V l K taken)
    (hrest : taken ++ priced ((name, price) :: rest) = priced (validServices form))
    (hname : (serviceId, name) ∈ V.services.rows)
    (hearly : ∀ e, r = .error e → salonKey l = none)
    (hans : Answers (site P) D V (.commit k) r D' V') :
    ∃ view, r = .ok view ∧ Reaches P a form D D' V' l (l ++ [(.commit k, r)])
      (writes a.cookie (k + 1) (.insertSalonService ⟨K, serviceId, sqliteReal price⟩) fun _ =>
        insertServicesProgram a.cookie K (k + 2) rest) := by
  obtain ⟨view, rfl⟩ := h.answered hearly
  cases hans with
  | commit => exact ⟨_, rfl, .known h.committed hrest hname, h.advances_committed⟩

theorem unknown_call {k : Nat} {name : Text} {price : Double} {rest : List (Text × Double)}
    (h : Holding P a form D V l K taken)
    (hrest : taken ++ priced ((name, price) :: rest) = priced (validServices form))
    (hearly : ∀ e, r = .error e → salonKey l = none)
    (hans : Answers (site P) D V (.write k (.insertService name)) r D' V') :
    ∃ view, r = .ok view ∧ Reaches P a form D D' V' l (l ++ [(.write k (.insertService name), r)])
      (commits a.cookie k (writes a.cookie (k + 1)
        (.insertSalonService ⟨K, view.services.seq, sqliteReal price⟩) fun _ =>
          insertServicesProgram a.cookie K (k + 2) rest)) := by
  obtain ⟨view, rfl⟩ := h.answered hearly
  cases hans with
  | write hexec =>
    have hadds : Adds K [] V V' := adds_insertService h.linked hexec
    have hseq : V'.salons.seq = V.salons.seq := by
      obtain ⟨-, rfl⟩ := exec_insertService.mp hexec
      rfl
    have hholding := h.wrote (x := (.write k (.insertService name), .ok V')) hadds hseq
    rw [List.append_nil] at hholding
    exact ⟨_, rfl, .created hholding hrest (inserted_service hexec), h.advances⟩

theorem loop_call {k : Nat} {rest : List (Text × Double)} (h : Holding P a form D V l K taken)
    (hrest : taken ++ priced rest = priced (validServices form))
    (hq : insertServicesProgram a.cookie K k rest = .call c next)
    (hearly : ∀ e, r = .error e → salonKey l = none) (hans : Answers (site P) D V c r D' V') :
    Reaches P a form D D' V' l (l ++ [(c, r)]) (next r) := by
  obtain ⟨view, rfl⟩ := h.answered hearly
  cases rest with
  | nil =>
    obtain ⟨rfl, rfl⟩ := Prog.call.inj hq
    cases hans with
    | commit =>
      refine ⟨.done (.accepted K (salonKey_append h.key) h.row ?_ rfl), h.advances_committed⟩
      rw [h.menu, ← hrest]
      exact (List.append_nil _).symm
  | cons service rest =>
    obtain ⟨name, price⟩ := service
    obtain ⟨rfl, rfl⟩ := Prog.call.inj hq
    cases hans with
    | read =>
      refine ⟨?_, h.advances⟩
      simp only
      split
      · rename_i serviceId known hfirst
        obtain ⟨hmem, hbeq⟩ := Table.first?_mem hfirst
        obtain rfl : known = name := beq_iff_eq.mp hbeq
        exact .known h.read hrest hmem
      · exact .unknown h.read hrest

theorem inserted_call {salon : Salon} (hseq : V.salons.seq = D.salons.seq + 1)
    (hrow : (V.salons.seq, newSalon P a.env a.cookie form) ∈ V.salons.rows)
    (hmenu : menu V V.salons.seq = []) (hadds : Adds V.salons.seq [] D V)
    (hq : commits a.cookie 0 (insertServicesProgram a.cookie V.salons.seq 1 (validServices form)) =
      .call c next) (hans : Answers (site P) D V c r D' V') :
    Reaches P a form D D' V' [(.write 0 (.insertSalon salon), .ok V)]
      ([(.write 0 (.insertSalon salon), .ok V)] ++ [(c, r)]) (next r) := by
  obtain ⟨rfl, rfl⟩ := Prog.call.inj hq
  cases hans with
  | fails => exact ⟨.done (.rejected rfl rfl rfl), advances_quiet rfl⟩
  | commit =>
    have hholding : Holding P a form V V
        ([(.write 0 (.insertSalon salon), .ok V)] ++ [(.commit 0, .ok V)]) V.salons.seq [] :=
      ⟨rfl, hrow, hmenu, rfl, [], .refl hadds.linked⟩
    refine ⟨.loop hholding rfl, hadds.grows, ?_, .inr ⟨rfl, congrArg some hseq, hseq⟩⟩
    intro k _ hk
    apply hadds.others
    rintro rfl
    exact hk rfl

theorem starts_call (hlinked : Linked D)
    (hq : registerSalonProgram P a.env a.cookie form = .call c next)
    (hans : Answers (site P) D D c r D' V') :
    Reaches P a form D D' V' [] ([] ++ [(c, r)]) (next r) := by
  unfold registerSalonProgram at hq
  split at hq
  · cases hq
  split at hq
  · cases hq
  split at hq
  · cases hq
  obtain ⟨rfl, rfl⟩ := Prog.call.inj hq
  cases hans with
  | fails => exact ⟨.done (.rejected rfl rfl rfl), advances_quiet rfl⟩
  | write hwrite =>
    have hexec : D.exec (.insertSalon (newSalon P a.env a.cookie form)) = some V' := hwrite
    have hgrows := exec_grows hexec trivial
    have hlinked' := exec_linked hlinked hexec
    have hsame : ∀ k, getSalonServices V' k = getSalonServices D k :=
      fun k => exec_foreign hlinked hexec trivial
    obtain rfl := (Option.some.inj hexec).symm
    refine ⟨.inserted rfl (Table.mem_insert.mpr (.inr ⟨rfl, rfl⟩)) ?_ ?_, advances_quiet rfl⟩
    · have hfresh := getSalonServices_fresh hlinked (Nat.lt_succ_self D.salons.seq)
      exact congrArg (List.map _) ((hsame _).trans hfresh)
    · refine ⟨?_, fun k _ => hsame k, hgrows, hlinked'⟩
      rw [menu, hsame, menu, List.append_nil]

theorem stage_call (h : Stage P a form D V l (.call c next)) (hlinked : Linked D)
    (hearly : ∀ e, r = .error e → salonKey l = none) (hans : Answers (site P) D V c r D' V') :
    Reaches P a form D D' V' l (l ++ [(c, r)]) (next r) := by
  generalize hq : Prog.call c next = q at h
  cases h with
  | starts => exact starts_call hlinked hq.symm hans
  | inserted hseq hrow hmenu hadds => exact inserted_call hseq hrow hmenu hadds hq.symm hans
  | loop h hrest => exact loop_call h hrest hq.symm hearly hans
  | known h hrest hname =>
    obtain ⟨rfl, rfl⟩ := Prog.call.inj hq
    obtain ⟨view, rfl, hreaches⟩ := known_call h hrest hname hearly hans
    exact hreaches
  | unknown h hrest =>
    obtain ⟨rfl, rfl⟩ := Prog.call.inj hq
    obtain ⟨view, rfl, hreaches⟩ := unknown_call h hrest hearly hans
    exact hreaches
  | created h hrest hname =>
    obtain ⟨rfl, rfl⟩ := Prog.call.inj hq
    obtain ⟨view, rfl, hreaches⟩ := created_call h hrest hname hearly hans
    exact hreaches
  | done h => cases hq

/-- What other registrations commit does not concern one that has ended. -/
theorem Ended.stable (h : Ended P a form D l reply) (hgrows : Grows D D')
    (hsame : ∀ k, salonKey l = some k → getSalonServices D' k = getSalonServices D k) :
    Ended P a form D' l reply := by
  cases h with
  | rejected hkey hnothing hreply => exact .rejected hkey hnothing hreply
  | accepted K hkey hrow hmenu hreply =>
    refine .accepted K hkey (hgrows.salons _ _ hrow) ?_ hreply
    rw [menu, hsame K hkey]
    exact hmenu

theorem Holding.stable (h : Holding P a form D D l K taken) (hgrows : Grows D D')
    (hlinked : Linked D')
    (hsame : ∀ k, salonKey l = some k → getSalonServices D' k = getSalonServices D k) :
    Holding P a form D' D' l K taken where
  key := h.key
  row := hgrows.salons _ _ h.row
  menu := by
    rw [Gloora.menu, hsame K h.key]
    exact h.menu
  seq := rfl
  adds := ⟨[], .refl hlinked⟩

/-- Nor does it concern one that is running, with nothing in its open transaction. -/
theorem Stage.stable (h : Stage P a form D D l q) (hpending : pending l = [])
    (hgrows : Grows D D') (hlinked : Linked D')
    (hsame : ∀ k, salonKey l = some k → getSalonServices D' k = getSalonServices D k) :
    Stage P a form D' D' l q := by
  cases h with
  | starts => exact .starts
  | inserted => cases hpending
  | loop h hrest => exact .loop (h.stable hgrows hlinked hsame) hrest
  | known h hrest hname =>
    exact .known (h.stable hgrows hlinked hsame) hrest (hgrows.services _ _ hname)
  | unknown h hrest => exact .unknown (h.stable hgrows hlinked hsame) hrest
  | created h hrest hname =>
    exact .created (h.stable hgrows hlinked hsame) hrest (hgrows.services _ _ hname)
  | done h => exact .done (h.stable hgrows hsame)

theorem stage_done (h : Stage P a form D V l (.done reply)) : Ended P a form D l reply := by
  generalize hq : Prog.done reply = q at h
  cases h with
  | starts =>
    unfold registerSalonProgram at hq
    split at hq
    · cases hq
      exact .rejected rfl rfl rfl
    split at hq
    · cases hq
      exact .rejected rfl rfl rfl
    split at hq
    · cases hq
      exact .rejected rfl rfl rfl
    · cases hq
  | loop h hrest =>
    rename_i rest
    cases rest <;> cases hq
  | done h =>
    cases hq
    exact h
  | _ => cases hq

end Stages

theorem registersSalon_iff {req : Request} :
    req.registersSalon = true ↔ ∃ form, req = .registerSalon form := by
  cases req <;> simp [Request.registersSalon]

section Runs
variable {P : Platform} {db : Db} {jar : Nat → List Session} {evs : List ServerMove}
  {σ σ' : Server} {m : ServerMove}

/-- The keys from `first` to `last` belong to the salons that registrations have committed. -/
structure KeysGiven (first last : Nat) (evs : List ServerMove) : Prop where
  le : first ≤ last
  between : ∀ i K, salonKey (callsOf i evs) = some K → first < K ∧ K ≤ last
  distinct : ∀ i j K, salonKey (callsOf i evs) = some K → salonKey (callsOf j evs) = some K → i = j
  owned : ∀ K, first < K → K ≤ last → ∃ i, salonKey (callsOf i evs) = some K

theorem KeysGiven.congr {first last : Nat} {evs' : List ServerMove} (h : KeysGiven first last evs)
    (hsame : ∀ j, salonKey (callsOf j evs') = salonKey (callsOf j evs)) :
    KeysGiven first last evs' where
  le := h.le
  between i K hi := h.between i K ((hsame i).symm.trans hi)
  distinct i j K hi hj := h.distinct i j K ((hsame i).symm.trans hi) ((hsame j).symm.trans hj)
  owned K hfirst hlast := by
    obtain ⟨i, hi⟩ := h.owned K hfirst hlast
    exact ⟨i, (hsame i).trans hi⟩

/-- One more salon, for a registration that had none. -/
theorem KeysGiven.given {first last i : Nat} {evs' : List ServerMove} (h : KeysGiven first last evs)
    (hothers : ∀ j, j ≠ i → salonKey (callsOf j evs') = salonKey (callsOf j evs))
    (hnone : salonKey (callsOf i evs) = none) (hnew : salonKey (callsOf i evs') = some (last + 1)) :
    KeysGiven first (last + 1) evs' where
  le := Nat.le_succ_of_le h.le
  between j K hj := by
    by_cases hji : j = i
    · rw [hji, hnew] at hj
      obtain rfl := Option.some.inj hj
      exact ⟨Nat.lt_succ_of_le h.le, Nat.le_refl _⟩
    · rw [hothers j hji] at hj
      obtain ⟨hfirst, hlast⟩ := h.between j K hj
      exact ⟨hfirst, Nat.le_succ_of_le hlast⟩
  distinct j k K hj hk := by
    have hold : ∀ j, j ≠ i → salonKey (callsOf j evs') = some K → K ≠ last + 1 := by
      rintro j hji hj rfl
      rw [hothers j hji] at hj
      exact absurd (h.between j _ hj).2 (Nat.not_succ_le_self last)
    by_cases hji : j = i
    · subst hji
      by_contra hne
      exact hold k (Ne.symm hne) hk (Option.some.inj (hj.symm.trans hnew))
    · by_cases hki : k = i
      · subst hki
        exact absurd (Option.some.inj (hk.symm.trans hnew)) (hold j hji hj)
      · rw [hothers j hji] at hj
        rw [hothers k hki] at hk
        exact h.distinct j k K hj hk
  owned K hfirst hlast := by
    rcases Nat.lt_succ_iff_lt_or_eq.mp (Nat.lt_succ_of_le hlast) with hlt | rfl
    · obtain ⟨j, hj⟩ := h.owned K hfirst (Nat.le_of_lt_succ hlt)
      refine ⟨j, (hothers j ?_).trans hj⟩
      rintro rfl
      rw [hnone] at hj
      cases hj
    · exact ⟨i, hnew⟩

theorem KeysGiven.advances {first i : Nat} {D D' : Db} {evs' : List ServerMove}
    (h : KeysGiven first D.salons.seq evs)
    (hothers : ∀ j, j ≠ i → callsOf j evs' = callsOf j evs)
    (hown : Advances (callsOf i evs) (callsOf i evs') D D') :
    KeysGiven first D'.salons.seq evs' := by
  rcases hown.key with ⟨hsame, hseq⟩ | ⟨hnone, hnew, hseq⟩
  · rw [hseq]
    apply h.congr
    intro j
    by_cases hj : j = i
    · rw [hj, hsame]
    · rw [hothers j hj]
  · rw [hseq]
    exact h.given (fun j hj => by rw [hothers j hj]) hnone hnew

/-- What holds while any number of registrations are served. -/
structure Registrations (P : Platform) (db : Db) (evs : List ServerMove) (σ : Server) : Prop where
  keys : KeysGiven db.salons.seq σ.store.db.salons.seq evs
  running : ∀ i t, σ.threads i = some t → ∃ form, t.input.request = .registerSalon form ∧
    Stage P t.input form σ.store.db (σ.store.view i) (callsOf i evs) t.prog
  ended : ∀ i a reply, (⟨i, a, .ends reply⟩ : ServerMove) ∈ evs → ∃ form,
    a.request = .registerSalon form ∧ Ended P a form σ.store.db (callsOf i evs) reply

/-- No statement of a registration fails once its salon is committed. -/
def FailsEarly (pre : List ServerMove) (m : ServerMove) : Prop :=
  refused m = false ∨ salonKey (callsOf m.id pre) = none

instance (pre : List ServerMove) (m : ServerMove) : Decidable (FailsEarly pre m) := by
  unfold FailsEarly
  infer_instance

theorem ended_idle {i : Nat} {a : Incoming} {reply : Db → Outcome}
    (h : Run (PoolStep P) (Server.start db jar) evs σ)
    (hend : (⟨i, a, .ends reply⟩ : ServerMove) ∈ evs) : σ.threads i = none := by
  have hmoves := (follows_ended h hend).2
  cases traced h i with
  | fresh _ hthread _ => exact hthread
  | running b l q _ _ _ hrunning =>
    rw [hrunning] at hmoves
    have hmem : (⟨i, a, .ends reply⟩ : ServerMove) ∈ served i b l := by
      rw [hmoves]
      simp
    simp [served] at hmem
  | ended _ _ _ _ hthread _ _ => exact hthread

theorem fresh_view (h : Run (PoolStep P) (Server.start db jar) evs σ) :
    σ.store.view σ.next = σ.store.db ∧ callsOf σ.next evs = [] := by
  cases traced h σ.next with
  | fresh _ _ hmoves =>
    refine ⟨?_, by rw [callsOf, hmoves]; rfl⟩
    apply Store.view_of_other
    exact fun d hw => Nat.lt_irrefl _ ((coherent h).2 _ d hw)
  | running _ _ _ hlt => exact absurd hlt (Nat.lt_irrefl _)
  | ended _ _ _ hlt => exact absurd hlt (Nat.lt_irrefl _)

/-- A call of one registration, as the others see it. -/
theorem registrations_calls {i : Nat} {a : Incoming} {c : Command Write} {r : Except Text Db}
    {next : Except Text Db → Program} {s' : Store Db (Nat → List Session)}
    (hrun : Run (PoolStep P) (Server.start db jar) evs σ) (hlinked : Linked db)
    (h : Registrations P db evs σ) (hthread : σ.threads i = some ⟨a, .call c next⟩)
    (hserves : Serves (site P) σ.store i c r s')
    (hearly : ∀ e, r = .error e → salonKey (callsOf i evs) = none) (hlinked' : Linked s'.db) :
    Registrations P db (evs ++ [⟨i, a, .calls c r⟩])
      ⟨s', σ.next, Function.update σ.threads i (some ⟨a, next r⟩)⟩ := by
  obtain ⟨form, hreq, hstage⟩ := h.running i _ hthread
  obtain ⟨hstage', hadvances⟩ := stage_call hstage (linked_after hrun hlinked) hearly hserves.answers
  have hothers : ∀ j, j ≠ i →
      callsOf j (evs ++ [(⟨i, a, .calls c r⟩ : ServerMove)]) = callsOf j evs :=
    fun j hj => callsOf_other hj
  rw [← callsOf_snoc_calls (a := a)] at hstage' hadvances
  have hkeys := h.keys.advances hothers hadvances
  have hsame : ∀ j, j ≠ i → ∀ k, salonKey (callsOf j evs) = some k →
      getSalonServices s'.db k = getSalonServices σ.store.db k := by
    intro j hj k hk
    apply hadvances.others k (h.keys.between j k hk).2
    intro hi
    rw [← hothers j hj] at hk
    exact hj (hkeys.distinct j i k hk hi)
  refine ⟨hkeys, ?_, ?_⟩
  · intro j t ht
    change Function.update σ.threads i (some ⟨a, next r⟩) j = some t at ht
    by_cases hj : j = i
    · subst hj
      rw [Function.update_self] at ht
      obtain rfl := Option.some.inj ht
      exact ⟨form, hreq, hstage'⟩
    · rw [Function.update_of_ne hj] at ht
      obtain ⟨form', hreq', hstage''⟩ := h.running j t ht
      refine ⟨form', hreq', ?_⟩
      rw [hothers j hj]
      rcases ((coherent hrun).1 j t ht).others_view hserves hj with hs | ⟨hpending, hview, hview'⟩
      · rw [hs]
        exact hstage''
      · rw [hview] at hstage''
        change Stage P t.input form' s'.db (s'.view j) _ _
        rw [hview']
        exact hstage''.stable hpending hadvances.grows hlinked' (hsame j hj)
  · intro j b reply hend
    have hbefore : (⟨j, b, .ends reply⟩ : ServerMove) ∈ evs := by simpa using hend
    obtain ⟨form', hreq', hended⟩ := h.ended j b reply hbefore
    have hj : j ≠ i := by
      rintro rfl
      rw [ended_idle hrun hbefore] at hthread
      cases hthread
    refine ⟨form', hreq', ?_⟩
    rw [hothers j hj]
    exact hended.stable hadvances.grows (hsame j hj)

/-- A new registration sees what is committed. -/
theorem registrations_arrives {a : Incoming} (hrun : Run (PoolStep P) (Server.start db jar) evs σ)
    (h : Registrations P db evs σ) (hreg : a.request.registersSalon = true) :
    Registrations P db (evs ++ [⟨σ.next, a, .arrives⟩])
      ⟨σ.store, σ.next + 1,
        Function.update σ.threads σ.next (some ⟨a, (site P).service.program a⟩)⟩ := by
  have hsame : ∀ j, callsOf j (evs ++ [(⟨σ.next, a, .arrives⟩ : ServerMove)]) = callsOf j evs :=
    callsOf_quiet rfl
  refine ⟨h.keys.congr fun j => by rw [hsame], ?_, ?_⟩
  · intro j t ht
    change Function.update σ.threads σ.next _ j = some t at ht
    rw [hsame]
    by_cases hj : j = σ.next
    · subst hj
      rw [Function.update_self] at ht
      obtain rfl := Option.some.inj ht
      obtain ⟨hview, hnil⟩ := fresh_view hrun
      obtain ⟨form, hreq⟩ := registersSalon_iff.mp hreg
      refine ⟨form, hreq, ?_⟩
      have hprogram : (site P).service.program a = registerSalonProgram P a.env a.cookie form := by
        change program P a.env a.cookie a.request = _
        rw [hreq]
        rfl
      change Stage P a form σ.store.db (σ.store.view σ.next) _ ((site P).service.program a)
      rw [hprogram, hview, hnil]
      exact .starts
    · rw [Function.update_of_ne hj] at ht
      exact h.running j t ht
  · intro j b reply hend
    rw [hsame]
    exact h.ended j b reply (by simpa using hend)

theorem registrations_ends {i : Nat} {a : Incoming} {reply : Db → Outcome}
    (h : Registrations P db evs σ) (hthread : σ.threads i = some ⟨a, .done reply⟩) :
    Registrations P db (evs ++ [⟨i, a, .ends reply⟩])
      ⟨(site P).service.ends σ.store i a reply, σ.next, Function.update σ.threads i none⟩ := by
  have hsame : ∀ j, callsOf j (evs ++ [(⟨i, a, .ends reply⟩ : ServerMove)]) = callsOf j evs :=
    callsOf_quiet rfl
  have hdb : ((site P).service.ends σ.store i a reply).db = σ.store.db := Store.finish_db
  refine ⟨?_, ?_, ?_⟩
  · change KeysGiven _ ((site P).service.ends σ.store i a reply).db.salons.seq _
    rw [hdb]
    exact h.keys.congr fun j => by rw [hsame]
  · intro j t ht
    change Function.update σ.threads i none j = some t at ht
    have hj : j ≠ i := by
      rintro rfl
      simp at ht
    rw [Function.update_of_ne hj] at ht
    rw [hsame]
    have hview : ((site P).service.ends σ.store i a reply).view j = σ.store.view j :=
      finished_view hj
    change ∃ form, _ ∧ Stage P t.input form ((site P).service.ends σ.store i a reply).db
      (((site P).service.ends σ.store i a reply).view j) _ _
    rw [hdb, hview]
    exact h.running j t ht
  · intro j b answer hend
    rw [hsame]
    change ∃ form, _ ∧ Ended P b form ((site P).service.ends σ.store i a reply).db _ answer
    rw [hdb]
    rcases List.mem_append.mp hend with hbefore | hnow
    · exact h.ended j b answer hbefore
    · obtain ⟨rfl, rfl, rfl⟩ : j = i ∧ b = a ∧ answer = reply := by simpa using hnow
      obtain ⟨form, hreq, hstage⟩ := h.running j _ hthread
      exact ⟨form, hreq, stage_done hstage⟩

theorem registrations_run (h : Run (PoolStep P) (Server.start db jar) evs σ) (hlinked : Linked db)
    (hreg : ∀ m ∈ evs, m.input.request.registersSalon = true)
    (hcond : Throughout FailsEarly evs) : Registrations P db evs σ := by
  induction h with
  | nil =>
    refine ⟨⟨Nat.le_refl _, ?_, ?_, ?_⟩, ?_, by simp⟩
    · intro i K hi
      cases hi
    · intro i j K hi
      cases hi
    · intro K hfirst hlast
      exact absurd hfirst (Nat.not_lt.mpr hlast)
    · intro i t ht
      cases ht
  | @snoc es τ υ m hrun hstep ih =>
    have hprev := ih (fun x hx => hreg x (List.mem_append_left _ hx))
      fun pre x post hes => hcond pre x (post ++ [m]) (by simp [hes])
    have hcalls : Linked υ.store.db := linked_after (hrun.snoc hstep) hlinked
    cases hstep with
    | @arrives a hadmits =>
      exact registrations_arrives hrun hprev (hreg ⟨τ.next, a, .arrives⟩ (by simp))
    | @calls i a c next r s' hthread hserves =>
      apply registrations_calls hrun hlinked hprev hthread hserves _ hcalls
      rintro e rfl
      rcases hcond es _ [] rfl with hanswer | hnone
      · cases hanswer
      · exact hnone
    | @ends i a reply hthread => exact registrations_ends hprev hthread

/-- The salon of a form, with one row for each of its valid services. -/
structure Complete (P : Platform) (a : Incoming) (form : SalonForm) (K : Nat) (db : Db) : Prop where
  request : a.request = .registerSalon form
  row : (K, newSalon P a.env a.cookie form) ∈ db.salons.rows
  services : menu db K = priced (validServices form)

theorem nothing_committed {i : Nat} (h : committed (callsOf i evs) = []) :
    ∀ x ∈ journal evs, x.1 ≠ i := by
  rintro x hx rfl
  have hpart := journal_of evs x.1
  rw [h, List.map_eq_nil_iff, List.filter_eq_nil_iff] at hpart
  exact hpart x hx (by simp)

theorem owner_ended {i K : Nat} (h : Run (PoolStep P) (Server.start db jar) evs σ)
    (hquiet : σ.Quiet) (hkey : salonKey (callsOf i evs) = some K) :
    ∃ a reply, (⟨i, a, .ends reply⟩ : ServerMove) ∈ evs := by
  cases traced h i with
  | fresh _ _ hmoves =>
    rw [callsOf, hmoves] at hkey
    cases hkey
  | running _ _ _ _ hthread _ _ =>
    rw [hquiet i] at hthread
    cases hthread
  | ended a l reply _ _ _ hmoves =>
    have hmem : (⟨i, a, .ends reply⟩ : ServerMove) ∈ movesOf i evs := by
      rw [hmoves]
      simp
    exact ⟨a, reply, (List.mem_filter.mp hmem).1⟩

/-- As long as no registration fails after its first commit: the database is built by the
journal, to which a registration without success has added nothing; one with success has added
its salon with all its services; and once all have ended there are no other salons. -/
theorem registration_atomic {jar₀ : Nat → List Session} {evs₀ : List ServerMove} {σ₀ : Server}
    (h₀ : Run (PoolStep P) (Server.start initAllDatabases jar₀) evs₀ σ₀)
    (h : Run (PoolStep P) (Server.start σ₀.store.db jar) evs σ)
    (hreg : ∀ m ∈ evs, m.input.request.registersSalon = true)
    (hcond : Throughout FailsEarly evs) :
    ((journal evs).map Prod.snd).foldlM Db.exec σ₀.store.db = some σ.store.db ∧
      (∀ i a reply, (⟨i, a, .ends reply⟩ : ServerMove) ∈ evs → registered reply = false →
        ∀ x ∈ journal evs, x.1 ≠ i) ∧
      (∀ i a reply, (⟨i, a, .ends reply⟩ : ServerMove) ∈ evs → registered reply = true →
        ∃ form K, salonKey (callsOf i evs) = some K ∧ Complete P a form K σ.store.db) ∧
      (∀ i j K, salonKey (callsOf i evs) = some K → salonKey (callsOf j evs) = some K → i = j) ∧
      (σ.Quiet → ∀ K r, (K, r) ∈ σ.store.db.salons.rows → σ₀.store.db.salons.seq < K →
        ∃ i a reply form, (⟨i, a, .ends reply⟩ : ServerMove) ∈ evs ∧ registered reply = true ∧
          Complete P a form K σ.store.db) := by
  have hall := registrations_run h (linked_run h₀) hreg hcond
  refine ⟨journal_builds h, ?_, ?_, hall.keys.distinct, ?_⟩
  · intro i a reply hend hfalse
    obtain ⟨form, -, hended⟩ := hall.ended i a reply hend
    cases hended with
    | rejected hkey hnothing hreply => exact nothing_committed hnothing
    | accepted K hkey hrow hmenu hreply =>
      rw [hfalse] at hreply
      cases hreply
  · intro i a reply hend htrue
    obtain ⟨form, hreq, hended⟩ := hall.ended i a reply hend
    cases hended with
    | rejected hkey hnothing hreply =>
      rw [htrue] at hreply
      cases hreply
    | accepted K hkey hrow hmenu hreply => exact ⟨form, K, hkey, hreq, hrow, hmenu⟩
  · intro hquiet K r hr hnew
    obtain ⟨i, hkey⟩ := hall.keys.owned K hnew (Table.le_seq hr)
    obtain ⟨a, reply, hend⟩ := owner_ended h hquiet hkey
    obtain ⟨form, hreq, hended⟩ := hall.ended i a reply hend
    cases hended with
    | rejected hnone _ _ =>
      rw [hkey] at hnone
      cases hnone
    | accepted K' hkey' hrow hmenu hreply =>
      obtain rfl := Option.some.inj (hkey'.symm.trans hkey)
      exact ⟨i, a, reply, form, hend, hreply, hreq, hrow, hmenu⟩

end Runs

/-- Two registrations of which the second finds the service the first has added. -/
def registrationsInTurn : Interleaving where
  tables := initAllDatabases
  choices := [comes 1 (openSalon "2" ["cut"] ["100"]), comes 2 (openSalon "1" ["cut"] ["80"])] ++
    works 0 5 ++ works 1 2 ++ works 0 3 ++ works 1 4
  served := by decide +kernel

theorem registration_atomic_inTurn : registrationsInTurn.final.store.db.salons.HasKey 2 ∧
    let evs := registrationsInTurn.events
    let db := registrationsInTurn.final.store.db
    ((journal evs).map Prod.snd).foldlM Db.exec initAllDatabases = some db ∧
      (∀ i a reply, (⟨i, a, .ends reply⟩ : ServerMove) ∈ evs → registered reply = false →
        ∀ x ∈ journal evs, x.1 ≠ i) ∧
      (∀ i a reply, (⟨i, a, .ends reply⟩ : ServerMove) ∈ evs → registered reply = true →
        ∃ form K, salonKey (callsOf i evs) = some K ∧ Complete plain a form K db) ∧
      (∀ i j K, salonKey (callsOf i evs) = some K → salonKey (callsOf j evs) = some K → i = j) ∧
      (registrationsInTurn.final.Quiet → ∀ K r, (K, r) ∈ db.salons.rows → 0 < K →
        ∃ i a reply form, (⟨i, a, .ends reply⟩ : ServerMove) ∈ evs ∧ registered reply = true ∧
          Complete plain a form K db) := by
  refine ⟨by decide +kernel, ?_⟩
  have hstart : Run (PoolStep plain) (Server.start initAllDatabases fun _ => []) []
      (Server.start initAllDatabases fun _ => []) := .nil
  exact registration_atomic hstart registrationsInTurn.run (by decide +kernel) (by decide +kernel)

/-- Both registrations look for the service before either has added it. -/
def registrationsAtOnce : Interleaving where
  tables := initAllDatabases
  choices := [comes 1 (openSalon "2" ["cut"] ["100"]), comes 2 (openSalon "1" ["cut"] ["80"])] ++
    works 0 3 ++ works 1 8 ++ works 0 2
  served := by decide +kernel

theorem registration_left_behind : ¬ ∀ (P : Platform) (jar₀ jar : Nat → List Session)
    (evs₀ evs : List ServerMove) (σ₀ σ : Server),
    Run (PoolStep P) (Server.start initAllDatabases jar₀) evs₀ σ₀ →
    Run (PoolStep P) (Server.start σ₀.store.db jar) evs σ →
    (∀ m ∈ evs, m.input.request.registersSalon = true) →
    ∀ m ∈ evs, failed m = true → ∀ x ∈ journal evs, x.1 ≠ m.id := by
  intro h
  have hstart : Run (PoolStep plain) (Server.start initAllDatabases fun _ => []) []
      (Server.start initAllDatabases fun _ => []) := .nil
  have hnothing := h plain _ _ _ _ _ _ hstart registrationsAtOnce.run (by decide +kernel)
  have hfailed : (registrationsAtOnce.events.any fun m => failed m && m.id == 0 &&
      (journal registrationsAtOnce.events).any fun x => x.1 == 0) = true := by decide +kernel
  obtain ⟨m, hm, hcheck⟩ := List.any_eq_true.mp hfailed
  rw [Bool.and_eq_true, Bool.and_eq_true, beq_iff_eq] at hcheck
  obtain ⟨⟨hfail, hid⟩, hleft⟩ := hcheck
  obtain ⟨x, hx, hown⟩ := List.any_eq_true.mp hleft
  apply hnothing m hm hfail x hx
  rw [hid, beq_iff_eq.mp hown]

end Gloora
