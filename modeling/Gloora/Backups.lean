import Mathlib.Data.Char
import Gloora.Lib.Sorting
import Gloora.Lib.Stamps

/-!
# Backups

`backup_database` and `cleanup_old_backups`, which every start of the application runs one
after the other. The folder holds nothing but their files. The listing that the clean-up sorts
may come in any order; here the newest file is in front.
-/

namespace Gloora
set_option autoImplicit false

open PyText Calendar Sorting

variable {δ : Type}

/-- The files of `BACKUP_DIR` with their contents. -/
abbrev Folder (δ : Type) := List (Text × δ)

def backupFile (t : LocalTime) : Text := "database_backup_".toList ++ (t.compact ++ ".db".toList)

example : backupFile ⟨⟨2030, 1, 1, by decide⟩, 36000900000, by decide⟩ =
    "database_backup_20300101_100000.db".toList := by decide

/-- `shutil.copy2`, which replaces a file of the same name. -/
def copyTo (folder : Folder δ) (name : Text) (data : δ) : Folder δ :=
  (name, data) :: folder.filter fun f => f.1 != name

/-- `backup_database`; there may be no database file. -/
def backupDatabase (folder : Folder δ) (now : LocalTime) (database : Option δ) : Folder δ :=
  match database with
  | none => folder
  | some data => copyTo folder (backupFile now) data

/-- The loop of `cleanup_old_backups` over the sorted names. -/
def removeOldest (maxBackups : Nat) : List Text → Folder δ → Folder δ
  | [], folder => folder
  | old :: backups, folder =>
    if maxBackups < (old :: backups).length then
      removeOldest maxBackups backups (folder.filter fun f => f.1 != old)
    else folder

def cleanupOldBackups (maxBackups : Nat) (folder : Folder δ) : Folder δ :=
  removeOldest maxBackups (sortedBy id (folder.map Prod.fst)) folder

/-- A start of the application: its time, and what the database file holds then. -/
structure Start (δ : Type) where
  time : LocalTime
  database : δ

def Start.backup (s : Start δ) : Text × δ := (backupFile s.time, s.database)

def startUp (maxBackups : Nat) (folder : Folder δ) (s : Start δ) : Folder δ :=
  cleanupOldBackups maxBackups (backupDatabase folder s.time (some s.database))

def folderAfter (maxBackups : Nat) (starts : List (Start δ)) : Folder δ :=
  starts.foldl (startUp maxBackups) []

/-- The last start of every second in which there was one, the newest first. -/
def lastStarts (starts : List (Start δ)) : List (Start δ) :=
  starts.foldl (fun seen s => s :: seen.filter fun r => r.time.epoch ≠ s.time.epoch) []

section Names
variable {t u : LocalTime}

theorem backupFile_lt (h : t.epoch < u.epoch) : backupFile t < backupFile u := by
  have hlength : t.compact.length = u.compact.length := rfl
  unfold backupFile
  exact List.append_left_lt (append_lt_append hlength (.inl (LocalTime.compact_lt h)))

theorem backupFile_inj : backupFile t = backupFile u ↔ t.epoch = u.epoch := by
  unfold backupFile
  rw [List.append_right_inj, List.append_left_inj]
  exact LocalTime.compact_inj

end Names

section Cleanup
variable {folder : Folder δ} {n : Nat}

/-- The newest file is in front, and no two have one name. -/
def NewestFirst (folder : Folder δ) : Prop := folder.Pairwise fun f g => g.1 < f.1

theorem sortedBy_names (h : NewestFirst folder) :
    sortedBy id (folder.map Prod.fst) = (folder.map Prod.fst).reverse := by
  have hdescending : (folder.map Prod.fst).Pairwise fun a b => b < a := List.pairwise_map.mpr h
  have hascending : (folder.map Prod.fst).reverse.Pairwise fun a b => id a ≤ id b :=
    (List.pairwise_reverse.mpr hdescending).imp fun hlt => hlt.le
  apply List.Perm.eq_of_pairwise (fun a b _ _ hab hba => le_antisymm hab hba)
    (sortedBy_pairwise id _) hascending
  exact (sortedBy_perm id _).trans (List.reverse_perm _).symm

/-- What the loop removes is behind in the list. -/
theorem removeOldest_eq_take (h : NewestFirst folder) :
    removeOldest n (folder.map Prod.fst).reverse folder = folder.take n := by
  induction folder using List.reverseRecOn with
  | nil => simp [removeOldest]
  | append_singleton front f ih =>
    obtain ⟨hfront, -, hlast⟩ := List.pairwise_append.mp h
    have hkept : ((front ++ [f]).filter fun g => g.1 != f.1) = front := by
      have hothers : ∀ g ∈ front, (g.1 != f.1) = true := by
        intro g hg
        exact bne_iff_ne.mpr (hlast g hg f (by simp)).ne'
      rw [List.filter_append, List.filter_eq_self.mpr hothers]
      simp
    rw [List.map_append, List.reverse_append]
    simp only [List.map_cons, List.map_nil, List.reverse_cons, List.reverse_nil, List.nil_append,
      List.singleton_append, removeOldest, List.length_cons, List.length_reverse, List.length_map]
    split
    · rename_i hlong
      rw [hkept, ih hfront, List.take_append_of_le_length (by omega)]
    · rename_i hshort
      rw [List.take_of_length_le]
      rw [List.length_append, List.length_singleton]
      omega

theorem cleanupOldBackups_eq_take (h : NewestFirst folder) :
    cleanupOldBackups n folder = folder.take n := by
  rw [cleanupOldBackups, sortedBy_names h, removeOldest_eq_take h]

end Cleanup

section Starts
variable {starts : List (Start δ)} {s : Start δ} {n : Nat}

theorem lastStarts_snoc (starts : List (Start δ)) (s : Start δ) :
    lastStarts (starts ++ [s]) =
      s :: (lastStarts starts).filter fun r => r.time.epoch ≠ s.time.epoch := by
  rw [lastStarts, List.foldl_append]
  rfl

theorem folderAfter_snoc (n : Nat) (starts : List (Start δ)) (s : Start δ) :
    folderAfter n (starts ++ [s]) = startUp n (folderAfter n starts) s := by
  rw [folderAfter, List.foldl_append]
  rfl

/-- Times never decrease from one start to the next. -/
def InOrder (starts : List (Start δ)) : Prop :=
  starts.Pairwise fun r s => r.time.instant ≤ s.time.instant

theorem InOrder.epoch_le (h : InOrder (starts ++ [s])) :
    ∀ r ∈ starts, r.time.epoch ≤ s.time.epoch := by
  intro r hr
  exact LocalTime.epoch_le ((List.pairwise_append.mp h).2.2 r hr s (by simp))

theorem InOrder.front (h : InOrder (starts ++ [s])) : InOrder starts :=
  (List.pairwise_append.mp h).1

theorem mem_of_mem_lastStarts {r : Start δ} (h : r ∈ lastStarts starts) : r ∈ starts := by
  induction starts using List.reverseRecOn with
  | nil => exact h
  | append_singleton starts s ih =>
    rw [lastStarts_snoc] at h
    rcases List.mem_cons.mp h with rfl | hr
    · simp
    · exact List.mem_append_left _ (ih (List.mem_filter.mp hr).1)

theorem epoch_mem_lastStarts (starts : List (Start δ)) (e : Nat) :
    e ∈ (lastStarts starts).map (·.time.epoch) ↔ e ∈ starts.map (·.time.epoch) := by
  induction starts using List.reverseRecOn with
  | nil => rfl
  | append_singleton starts s ih =>
    rw [lastStarts_snoc]
    simp only [List.mem_map, List.mem_cons, List.mem_append, List.mem_filter] at ih ⊢
    by_cases he : s.time.epoch = e
    · exact ⟨fun _ => ⟨s, by simp, he⟩, fun _ => ⟨s, by simp, he⟩⟩
    · constructor
      · rintro ⟨r, rfl | ⟨hr, -⟩, rfl⟩
        · exact ⟨r, by simp, rfl⟩
        · obtain ⟨q, hq, heq⟩ := ih.mp ⟨r, hr, rfl⟩
          exact ⟨q, .inl hq, heq⟩
      · rintro ⟨r, hr | hr, rfl⟩
        · obtain ⟨q, hq, heq⟩ := ih.mpr ⟨r, hr, rfl⟩
          refine ⟨q, .inr ⟨hq, ?_⟩, heq⟩
          rw [decide_eq_true_eq, heq]
          exact fun hsame => he hsame.symm
        · obtain rfl : r = s := by simpa using hr
          exact absurd rfl he

theorem lastStarts_pairwise (h : InOrder starts) :
    (lastStarts starts).Pairwise fun r s => s.time.epoch < r.time.epoch := by
  induction starts using List.reverseRecOn with
  | nil => exact .nil
  | append_singleton starts s ih =>
    rw [lastStarts_snoc, List.pairwise_cons]
    refine ⟨?_, (ih h.front).filter _⟩
    intro r hr
    obtain ⟨hr, hne⟩ := List.mem_filter.mp hr
    have hle := h.epoch_le r (mem_of_mem_lastStarts hr)
    exact lt_of_le_of_ne hle (of_decide_eq_true hne)

theorem newestFirst_backups (h : InOrder starts) :
    NewestFirst ((lastStarts starts).map Start.backup) :=
  List.pairwise_map.mpr ((lastStarts_pairwise h).imp backupFile_lt)

/-- The file that is replaced is in front, so that it is the same to cut the list before. -/
theorem take_replace {k : Nat} {latest : List (Start δ)}
    (hlatest : latest.Pairwise fun r s => s.time.epoch < r.time.epoch)
    (hle : ∀ r ∈ latest, r.time.epoch ≤ s.time.epoch) :
    ((latest.take (k + 1)).filter fun r => r.time.epoch ≠ s.time.epoch).take k =
      (latest.filter fun r => r.time.epoch ≠ s.time.epoch).take k := by
  cases latest with
  | nil => rfl
  | cons r rest =>
    obtain ⟨hr, -⟩ := List.pairwise_cons.mp hlatest
    have hrest : ∀ q ∈ rest, decide (q.time.epoch ≠ s.time.epoch) = true := by
      intro q hq
      exact decide_eq_true ((hr q hq).trans_le (hle r (by simp))).ne
    have hcut : ∀ q ∈ rest.take k, decide (q.time.epoch ≠ s.time.epoch) = true :=
      fun q hq => hrest q (List.mem_of_mem_take hq)
    rw [List.take_succ_cons, List.filter_cons, List.filter_cons, List.filter_eq_self.mpr hrest,
      List.filter_eq_self.mpr hcut]
    split
    · rw [← List.take_succ_cons, List.take_take]
      simp
    · rw [List.take_take, Nat.min_self]

theorem copyTo_backups (latest : List (Start δ)) (s : Start δ) :
    copyTo (latest.map Start.backup) (backupFile s.time) s.database =
      (s :: latest.filter fun r => r.time.epoch ≠ s.time.epoch).map Start.backup := by
  rw [copyTo, List.filter_map, List.map_cons]
  refine congrArg₂ List.cons rfl (congrArg (List.map Start.backup) (List.filter_congr ?_))
  intro r _
  rw [Bool.eq_iff_iff, decide_eq_true_eq]
  exact bne_iff_ne.trans (not_congr backupFile_inj)

/-- After every start the folder holds the newest of the backups. -/
theorem folderAfter_eq (k : Nat) (h : InOrder starts) :
    folderAfter (k + 1) starts = ((lastStarts starts).take (k + 1)).map Start.backup := by
  induction starts using List.reverseRecOn with
  | nil => rfl
  | append_singleton starts s ih =>
    have hlatest := lastStarts_pairwise h.front
    have hle : ∀ r ∈ lastStarts starts, r.time.epoch ≤ s.time.epoch :=
      fun r hr => h.epoch_le r (mem_of_mem_lastStarts hr)
    have hcopy : backupDatabase (folderAfter (k + 1) starts) s.time (some s.database) =
        (s :: ((lastStarts starts).take (k + 1)).filter fun r =>
          r.time.epoch ≠ s.time.epoch).map Start.backup := by
      rw [ih h.front]
      exact copyTo_backups _ s
    have hsorted : NewestFirst ((s :: ((lastStarts starts).take (k + 1)).filter fun r =>
        r.time.epoch ≠ s.time.epoch).map Start.backup) := by
      have hall := newestFirst_backups h
      rw [lastStarts_snoc] at hall
      exact List.Pairwise.sublist ((((List.take_sublist _ _).filter _).cons_cons s).map _) hall
    rw [folderAfter_snoc, startUp, hcopy, cleanupOldBackups_eq_take hsorted, lastStarts_snoc,
      ← List.map_take, List.take_succ_cons, List.take_succ_cons, take_replace hlatest hle]

theorem backups_newest_kept (n : Nat) (hn : 1 ≤ n) (starts : List (Start δ))
    (hordered : InOrder starts) :
    (folderAfter n starts).Perm (((lastStarts starts).take n).map Start.backup) ∧
      ((lastStarts starts).map (·.time.epoch)).Pairwise (fun d e => e < d) ∧
      (∀ e, e ∈ (lastStarts starts).map (·.time.epoch) ↔ e ∈ starts.map (·.time.epoch)) ∧
      ∀ s, starts.getLast? = some s → s.backup ∈ folderAfter n starts := by
  obtain ⟨k, rfl⟩ := Nat.exists_eq_add_of_le' hn
  have hfolder := folderAfter_eq k hordered
  refine ⟨by rw [hfolder], List.pairwise_map.mpr (lastStarts_pairwise hordered),
    epoch_mem_lastStarts starts, ?_⟩
  intro s hs
  obtain ⟨front, rfl⟩ := List.getLast?_eq_some_iff.mp hs
  rw [hfolder, lastStarts_snoc, List.take_succ_cons, List.map_cons]
  exact List.mem_cons_self

end Starts

/-- Four starts, two of them in one second. -/
def fourStarts : List (Start Nat) :=
  [⟨⟨⟨2029, 12, 31, by decide⟩, 86399000000, by decide⟩, 1⟩,
    ⟨⟨⟨2030, 1, 1, by decide⟩, 7, by decide⟩, 2⟩, ⟨⟨⟨2030, 1, 1, by decide⟩, 900000, by decide⟩, 3⟩,
    ⟨⟨⟨2030, 1, 1, by decide⟩, 36000000000, by decide⟩, 4⟩]

theorem backups_newest_kept_four :
    (folderAfter 2 fourStarts).Perm (((lastStarts fourStarts).take 2).map Start.backup) := by
  have hordered : InOrder fourStarts := by
    unfold InOrder
    decide
  exact (backups_newest_kept 2 (by decide) fourStarts hordered).1

end Gloora
