import Gloora.Lib.JsText

/-!
# Paths as sequences of names

`posixpath.normpath` and `posixpath.join` of Python. A relative path is walked from a folder
on, one name after the other. If the walk never leaves the folder, normalizing the path
gives the names that lead to its end; if it does, the result starts with `..`.
-/

namespace Paths
set_option autoImplicit false

open PyText

def dot : Text := ['.']

def dotdot : Text := ['.', '.']

/-- One round of the loop in `normpath`. -/
def pushComp (rooted : Bool) (newComps : List Text) (comp : Text) : List Text :=
  if comp = [] ∨ comp = dot then newComps
  else if comp ≠ dotdot ∨ rooted = false ∧ newComps = [] ∨ newComps.getLast? = some dotdot then
    newComps ++ [comp]
  else newComps.dropLast

/-- Two slashes in front stay two, more become one. -/
def initialSlashes : Text → Nat
  | '/' :: '/' :: '/' :: _ => 1
  | '/' :: '/' :: _ => 2
  | '/' :: _ => 1
  | _ => 0

def normpath (path : Text) : Text :=
  let slashes := initialSlashes path
  let comps := (path.splitOn '/').foldl (pushComp (slashes != 0)) []
  let normal := List.replicate slashes '/' ++ ['/'].intercalate comps
  if normal = [] then dot else normal

/-- `posixpath.join` -/
def join (a b : Text) : Text :=
  if b.head? = some '/' then b
  else if a = [] ∨ a.getLast? = some '/' then a ++ b
  else a ++ '/' :: b

/-- The walk from a folder: `trail` has the names since it, and `none` leads out of it. -/
def enter (trail : List Text) (comp : Text) : Option (List Text) :=
  if comp = [] ∨ comp = dot then some trail
  else if comp = dotdot then if trail = [] then none else some trail.dropLast
  else some (trail ++ [comp])

def walk (trail comps : List Text) : Option (List Text) := comps.foldlM enter trail

/-- The path of a trail, as `normpath` writes it. -/
def written (trail : List Text) : Text := if trail = [] then dot else ['/'].intercalate trail

/-- A trail consists of names. -/
def Names (trail : List Text) : Prop :=
  ∀ name ∈ trail, (name ≠ [] ∧ name ≠ dot ∧ name ≠ dotdot) ∧ '/' ∉ name

section
variable {trail trail' comps newComps : List Text} {comp path : Text}

theorem walk_cons :
    walk trail (comp :: comps) = (enter trail comp).bind fun t => walk t comps := rfl

theorem Names.dropLast (h : Names trail) : Names trail.dropLast :=
  fun name hname => h name (List.dropLast_subset _ hname)

theorem Names.getLast?_ne (h : Names trail) : trail.getLast? ≠ some dotdot := by
  intro hlast
  exact (h dotdot (List.mem_of_getLast? hlast)).1.2.2 rfl

theorem pushComp_enter (htrail : Names trail) (h : enter trail comp = some trail') :
    pushComp false trail comp = trail' := by
  unfold enter at h
  unfold pushComp
  split_ifs at h with hskip hup hempty
  · rw [if_pos hskip]
    exact Option.some.inj h
  · rw [if_neg hskip, if_neg]
    · exact Option.some.inj h
    · simp [hup, hempty, htrail.getLast?_ne]
  · rw [if_neg hskip, if_pos (.inl hup)]
    exact Option.some.inj h

theorem Names.enter (htrail : Names trail) (hcomp : '/' ∉ comp)
    (h : enter trail comp = some trail') : Names trail' := by
  unfold Paths.enter at h
  split_ifs at h with hskip hup hempty
  · exact Option.some.inj h ▸ htrail
  · exact Option.some.inj h ▸ htrail.dropLast
  · rw [← Option.some.inj h]
    intro name hname
    rcases List.mem_append.mp hname with hold | hnew
    · exact htrail name hold
    · rw [List.mem_singleton.mp hnew]
      exact ⟨⟨fun h => hskip (.inl h), fun h => hskip (.inr h), hup⟩, hcomp⟩

theorem enter_eq_none (h : enter trail comp = none) : trail = [] ∧ comp = dotdot := by
  unfold enter at h
  split_ifs at h with hskip hup hempty
  exact ⟨hempty, hup⟩

/-- Once the path has left the folder, it starts with `..`. -/
theorem pushComp_outside (rest : List Text) (comp : Text) :
    ∃ rest', pushComp false (dotdot :: rest) comp = dotdot :: rest' := by
  unfold pushComp
  split_ifs with hskip hpush
  · exact ⟨rest, rfl⟩
  · exact ⟨rest ++ [comp], rfl⟩
  · cases rest with
    | nil => exact absurd (.inr (.inr rfl)) hpush
    | cons name rest => exact ⟨_, List.dropLast_cons_cons⟩

theorem foldl_outside (rest comps : List Text) :
    ∃ rest', comps.foldl (pushComp false) (dotdot :: rest) = dotdot :: rest' := by
  induction comps generalizing rest with
  | nil => exact ⟨rest, rfl⟩
  | cons comp comps ih =>
    obtain ⟨rest', hrest⟩ := pushComp_outside rest comp
    rw [List.foldl_cons, hrest]
    exact ih rest'

/-- The loop follows the walk as long as that stays in the folder. -/
theorem foldl_walk (hcomps : ∀ comp ∈ comps, '/' ∉ comp) (htrail : Names trail) :
    (∀ trail', walk trail comps = some trail' →
      comps.foldl (pushComp false) trail = trail' ∧ Names trail') ∧
    (walk trail comps = none → ∃ rest, comps.foldl (pushComp false) trail = dotdot :: rest) := by
  induction comps generalizing trail with
  | nil =>
    constructor
    · intro trail' h
      exact Option.some.inj h ▸ ⟨rfl, htrail⟩
    · intro h
      cases h
  | cons comp comps ih =>
    obtain ⟨hcomp, hcomps⟩ := List.forall_mem_cons.mp hcomps
    rw [walk_cons, List.foldl_cons]
    cases hstep : enter trail comp with
    | none =>
      obtain ⟨rfl, rfl⟩ := enter_eq_none hstep
      refine ⟨nofun, fun _ => ?_⟩
      exact foldl_outside [] comps
    | some next =>
      rw [pushComp_enter htrail hstep, Option.bind_some]
      exact ih hcomps (htrail.enter hcomp hstep)

theorem initialSlashes_relative (h : path.head? ≠ some '/') : initialSlashes path = 0 := by
  unfold initialSlashes
  split
  · simp at h
  · simp at h
  · simp at h
  · rfl

theorem not_mem_splitOn (path : Text) : ∀ comp ∈ path.splitOn '/', '/' ∉ comp := by
  intro comp hcomp hmem
  rw [List.splitOn_eq_splitOnP] at hcomp
  have hno := JsText.mem_splitOnP hcomp '/' hmem
  simp at hno

theorem splitOn_trail (htrail : Names trail) (hne : trail ≠ []) :
    (['/'].intercalate trail).splitOn '/' = trail :=
  List.splitOn_intercalate '/' (fun name hname => (htrail name hname).2) hne

theorem intercalate_ne_nil (htrail : Names trail) (hne : trail ≠ []) :
    ['/'].intercalate trail ≠ [] := by
  intro hnil
  have hparts := splitOn_trail htrail hne
  rw [hnil, List.splitOn_nil] at hparts
  exact (htrail [] (hparts ▸ List.mem_singleton_self [])).1.1 rfl

/-- What `normpath` makes of a relative path. -/
theorem normpath_relative (hrel : path.head? ≠ some '/') : normpath path =
    (let comps := (path.splitOn '/').foldl (pushComp false) []
      if ['/'].intercalate comps = [] then dot else ['/'].intercalate comps) := by
  rw [normpath, initialSlashes_relative hrel]
  rfl

theorem names_nil : Names [] := fun _ hname => absurd hname List.not_mem_nil

theorem names_of_walk (h : walk [] (path.splitOn '/') = some trail) : Names trail :=
  ((foldl_walk (not_mem_splitOn path) names_nil).1 trail h).2

theorem normpath_inside (hrel : path.head? ≠ some '/')
    (h : walk [] (path.splitOn '/') = some trail) : normpath path = written trail := by
  obtain ⟨hfold, hnames⟩ := (foldl_walk (not_mem_splitOn path) names_nil).1 trail h
  rw [normpath_relative hrel, hfold, written]
  by_cases hne : trail = []
  · rw [hne]
    rfl
  · exact (if_neg (intercalate_ne_nil hnames hne)).trans (if_neg hne).symm

theorem normpath_outside (hrel : path.head? ≠ some '/')
    (h : walk [] (path.splitOn '/') = none) :
    normpath path = dotdot ∨ dotdot ++ ['/'] <+: normpath path := by
  obtain ⟨rest, hrest⟩ := (foldl_walk (not_mem_splitOn path) names_nil).2 h
  rw [normpath_relative hrel, hrest]
  cases rest with
  | nil => exact .inl rfl
  | cons name rest => exact .inr ⟨['/'].intercalate (name :: rest), rfl⟩

theorem written_relative (htrail : Names trail) : (written trail).head? ≠ some '/' := by
  unfold written
  split_ifs with hne
  · decide
  · intro hhead
    obtain ⟨rest, hrest⟩ := List.head?_eq_some_iff.mp hhead
    have hparts := splitOn_trail htrail hne
    rw [hrest, ← List.nil_append ('/' :: rest),
      List.splitOn_append_cons_self_of_not_mem List.not_mem_nil] at hparts
    exact (htrail [] (hparts ▸ List.mem_cons_self)).1.1 rfl

theorem written_ne_nil (htrail : Names trail) : written trail ≠ [] := by
  unfold written
  split_ifs with hne
  · decide
  · exact intercalate_ne_nil htrail hne

/-- The path of a trail does not look like one that leads out. -/
theorem written_inside (htrail : Names trail) :
    written trail ≠ dotdot ∧ ¬ dotdot ++ ['/'] <+: written trail := by
  unfold written
  split_ifs with hne
  · exact ⟨by decide, by decide⟩
  · have hparts := splitOn_trail htrail hne
    have hno : dotdot ∉ trail := fun hmem => (htrail dotdot hmem).1.2.2 rfl
    constructor
    · intro heq
      rw [heq] at hparts
      exact hno (hparts ▸ List.mem_singleton_self dotdot)
    · intro hprefix
      obtain ⟨rest, hrest⟩ := hprefix
      rw [← hrest, List.append_assoc, List.singleton_append,
        List.splitOn_append_cons_self_of_not_mem (by decide)] at hparts
      exact hno (hparts ▸ List.mem_cons_self)

theorem join_plain {a b : Text} (hne : a ≠ []) (ha : a.getLast? ≠ some '/')
    (hb : b.head? ≠ some '/') : join a b = a ++ '/' :: b := by
  rw [join, if_neg hb, if_neg (not_or.mpr ⟨hne, ha⟩)]

theorem enter_name (h : comp ≠ [] ∧ comp ≠ dot ∧ comp ≠ dotdot) :
    enter trail comp = some (trail ++ [comp]) := by
  rw [enter, if_neg (not_or.mpr ⟨h.1, h.2.1⟩), if_neg h.2.2]

/-- A path of names stays in the folder, and is written as it is. -/
theorem walk_names (htrail : Names comps) : walk trail comps = some (trail ++ comps) := by
  induction comps generalizing trail with
  | nil => rw [List.append_nil]; rfl
  | cons comp comps ih =>
    obtain ⟨hcomp, hcomps⟩ := List.forall_mem_cons.mp htrail
    rw [walk_cons, enter_name hcomp.1, Option.bind_some, ih hcomps, List.append_assoc]
    rfl

theorem walk_written (htrail : Names trail) (hne : trail ≠ []) :
    walk [] ((written trail).splitOn '/') = some trail := by
  rw [written, if_neg hne, splitOn_trail htrail hne, walk_names htrail, List.nil_append]

end

end Paths
