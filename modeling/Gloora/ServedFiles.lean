import Gloora.Lib.Paths
import Gloora.Uploads

/-!
# Serving files

The routes /uploads and /static hand the path in the URL to werkzeug's `safe_join`. What they
serve lies in their folder, whatever the URL says, and the images that `save_image` stored
are found at the URLs that the pages use for them. Paths are compared as texts: links and
the rules of a file system for names are not modelled.
-/

namespace Gloora
set_option autoImplicit false

open PyText Paths

/-- What `<path:filename>` of a route matches: `[^/].*?` -/
structure PathArgument where
  text : Text
  ne_nil : text ≠ []
  relative : text.head? ≠ some '/'
  oneLine : '\n' ∉ text.tail

/-- `os.path.isabs`; on Windows as of Python 3.13. -/
def isabs (P : Platform) (s : Text) : Bool :=
  if P.windows then
    let s := (s.take 3).map fun c => if c = '/' then '\\' else c
    [':', '\\'].isPrefixOf (s.drop 1) || ['\\', '\\'].isPrefixOf s
  else s.head? == some '/'

/-- `safe_join` of werkzeug, for one path. -/
def safeJoin (P : Platform) (directory filename : Text) : Option Text :=
  let directory := if directory = [] then dot else directory
  let filename := if filename ≠ [] then normpath filename else filename
  if P.windows ∧ '\\' ∈ filename ∨ isabs P filename ∨ filename.head? = some '/' ∨
      filename = dotdot ∨ dotdot ++ ['/'] <+: filename then none
  else some (join directory filename)

/-- `send_from_directory`: the path of the file that is sent, `none` for a 404. The folders of
this app are absolute, so that joining them with the root of the app changes nothing. -/
def sendFromDirectory (P : Platform) (isfile : Text → Bool) (directory path : Text) :
    Option Text :=
  match safeJoin P directory path with
  | none => none
  | some path => if isfile path then some path else none

/-- `os.path.join(a, b)` for a relative `b` without a drive. -/
def osJoin (P : Platform) (a b : Text) : Text :=
  if P.windows then
    if a = [] ∨ a.getLast? = some '/' ∨ a.getLast? = some '\\' then a ++ b else a ++ '\\' :: b
  else join a b

def staticFolder (P : Platform) (root : Text) : Text := osJoin P root "static".toList

def uploadFolder (P : Platform) (root : Text) : Text :=
  osJoin P (staticFolder P root) "uploads".toList

/-- `uploaded_file` -/
def uploadedFile (P : Platform) (isfile : Text → Bool) (root filename : Text) : Option Text :=
  sendFromDirectory P isfile (uploadFolder P root) filename

/-- `send_static_file` of Flask, the handler of /static/<path:filename>. -/
def sendStaticFile (P : Platform) (isfile : Text → Bool) (root filename : Text) : Option Text :=
  sendFromDirectory P isfile (staticFolder P root) filename

/-- The paths that Windows would read in another way are refused there. -/
def Portable (P : Platform) (path : Text) : Prop :=
  P.windows = true → '\\' ∉ path ∧ ∀ drive rest, path ≠ drive :: ':' :: '/' :: rest

section Confinement
variable {P : Platform} {isfile : Text → Bool} {directory path : Text} {trail : List Text}

theorem isabs_iff {s : Text} (hrel : s.head? ≠ some '/') (hslash : P.windows = true → '\\' ∉ s) :
    isabs P s = true ↔
      P.windows = true ∧ ∃ drive rest, s = drive :: ':' :: '/' :: rest := by
  unfold isabs
  cases hwindows : P.windows with
  | false => simp [hrel]
  | true =>
    have hno := hslash hwindows
    have hsep : ∀ c ∈ s, ('\\' = if c = '/' then '\\' else c) ↔ c = '/' := by
      intro c hc
      split_ifs with h
      · exact iff_of_true rfl h
      · exact iff_of_false (fun heq => hno (heq ▸ hc)) h
    have hcolon : ∀ c : Char, (':' = if c = '/' then '\\' else c) ↔ c = ':' := by
      intro c
      split_ifs with h
      · exact iff_of_false (by decide) (by simp [h])
      · exact eq_comm
    rcases s with _ | ⟨a, _ | ⟨b, _ | ⟨c, rest⟩⟩⟩
    · simp
    · simp [List.isPrefixOf]
    · have ha : a ≠ '/' ∧ '\\' ≠ a := ⟨by simpa using hrel, fun h => hno (h ▸ List.mem_cons_self)⟩
      simp [List.isPrefixOf, ha]
    · have ha : a ≠ '/' ∧ '\\' ≠ a := ⟨by simpa using hrel, fun h => hno (h ▸ List.mem_cons_self)⟩
      simp [List.isPrefixOf, ha, hcolon b, hsep c (by simp)]

/-- Of the paths that `normpath` makes of a walk inside, `safe_join` refuses those that Windows
would read in another way. -/
theorem refused_iff (hnames : Names trail) :
    (P.windows = true ∧ '\\' ∈ written trail ∨ isabs P (written trail) = true ∨
      (written trail).head? = some '/' ∨ written trail = dotdot ∨
        dotdot ++ ['/'] <+: written trail) ↔ ¬ Portable P (written trail) := by
  have hinside := written_inside hnames
  have hrel := written_relative hnames
  simp only [hrel, hinside.1, hinside.2, or_false, Portable]
  by_cases hslash : P.windows = true → '\\' ∉ written trail
  · rw [isabs_iff hrel hslash]
    constructor
    · intro h hp
      cases h with
      | inl hmem => exact hslash hmem.1 hmem.2
      | inr habs =>
        obtain ⟨hwindows, drive, rest, heq⟩ := habs
        exact (hp hwindows).2 drive rest heq
    · intro h
      refine .inr ?_
      by_contra hno
      apply h
      intro hwindows
      exact ⟨hslash hwindows, fun drive rest heq => hno ⟨hwindows, drive, rest, heq⟩⟩
  · obtain ⟨hwindows, hmem⟩ := Classical.not_imp.mp hslash
    have hmem := not_not.mp hmem
    exact iff_of_true (.inl ⟨hwindows, hmem⟩) fun hp => (hp hwindows).1 hmem

/-- A path is served exactly if walking along it never leaves the folder. -/
theorem safeJoin_eq_some {text : Text} (hdirectory : directory ≠ []) (hne : text ≠ [])
    (hrelative : text.head? ≠ some '/') :
    safeJoin P directory text = some path ↔ ∃ trail, Names trail ∧
      walk [] (text.splitOn '/') = some trail ∧ Portable P (written trail) ∧
        path = join directory (written trail) := by
  unfold safeJoin
  simp only [if_neg hdirectory, if_pos hne]
  cases hwalk : walk [] (text.splitOn '/') with
  | none =>
    have hout := normpath_outside hrelative hwalk
    rw [if_pos (.inr (.inr (.inr hout)))]
    exact iff_of_false nofun fun ⟨_, _, h, _⟩ => nomatch h
  | some trail =>
    have hnames := names_of_walk hwalk
    have hrefused := refused_iff (P := P) hnames
    rw [normpath_inside hrelative hwalk]
    by_cases hp : Portable P (written trail)
    · rw [if_neg (hrefused.not.mpr (not_not.mpr hp)), Option.some.injEq]
      constructor
      · intro h
        exact ⟨trail, hnames, rfl, hp, h.symm⟩
      · intro h
        obtain ⟨trail', -, htrail, -, hpath⟩ := h
        rw [Option.some.inj htrail]
        exact hpath.symm
    · rw [if_pos (hrefused.mpr hp)]
      refine iff_of_false nofun ?_
      intro h
      obtain ⟨trail', -, htrail, hp', -⟩ := h
      exact hp (Option.some.inj htrail ▸ hp')

theorem osJoin_ne_nil (P : Platform) (a : Text) {b : Text} (hb : b ≠ []) : osJoin P a b ≠ [] := by
  unfold osJoin join
  split_ifs <;> simp [hb]

/-- A path in a URL is served exactly if it never leaves the folder on its way. -/
theorem uploads_confined (P : Platform) (isfile : Text → Bool) (root : Text) (arg : PathArgument)
    (path : Text) : uploadedFile P isfile root arg.text = some path ↔
      ∃ trail, Names trail ∧ walk [] (arg.text.splitOn '/') = some trail ∧
        Portable P (written trail) ∧ path = join (uploadFolder P root) (written trail) ∧
          isfile path = true := by
  have hfolder : uploadFolder P root ≠ [] := osJoin_ne_nil P _ (by decide)
  unfold uploadedFile sendFromDirectory
  constructor
  · intro h
    split at h
    · cases h
    · rename_i joined hjoined
      split_ifs at h with hfile
      cases h
      obtain ⟨trail, hnames, hwalk, hportable, hpath⟩ :=
        (safeJoin_eq_some hfolder arg.ne_nil arg.relative).mp hjoined
      exact ⟨trail, hnames, hwalk, hportable, hpath, hfile⟩
  · intro h
    obtain ⟨trail, hnames, hwalk, hportable, hpath, hfile⟩ := h
    rw [(safeJoin_eq_some hfolder arg.ne_nil arg.relative).mpr
      ⟨trail, hnames, hwalk, hportable, hpath⟩]
    exact if_pos hfile

end Confinement

/-- A path with the one separator that Windows takes for the same as the other. -/
def slashes (P : Platform) (path : Text) : Text :=
  path.map fun c => if P.windows = true ∧ c = '\\' then '/' else c

section RoundTrip
variable {P : Platform} {isfile : Text → Bool} {root a b name path : Text} {u : Upload}

def separator (P : Platform) : Char := if P.windows then '\\' else '/'

theorem osJoin_plain (hne : a ≠ []) (hslash : a.getLast? ≠ some '/')
    (hback : a.getLast? ≠ some '\\') (hb : b.head? ≠ some '/') :
    osJoin P a b = a ++ separator P :: b := by
  unfold osJoin separator
  split
  · rw [if_neg (not_or.mpr ⟨hne, not_or.mpr ⟨hslash, hback⟩⟩)]
  · exact join_plain hne hslash hb

/-- The folders of the app end with their names. -/
theorem folders_eq (P : Platform) (root : Text) : ∃ front,
    staticFolder P root = front ++ "static".toList ∧
      uploadFolder P root = front ++ "static".toList ++ separator P :: "uploads".toList := by
  obtain ⟨front, hfront⟩ : ∃ front, staticFolder P root = front ++ "static".toList := by
    unfold staticFolder osJoin join
    split_ifs
    · exact ⟨root, rfl⟩
    · exact ⟨root ++ ['\\'], by simp⟩
    · rename_i hhead
      exact absurd hhead (by decide)
    · exact ⟨root, rfl⟩
    · exact ⟨root ++ ['/'], by simp⟩
  refine ⟨front, hfront, ?_⟩
  rw [uploadFolder, hfront]
  apply osJoin_plain
  · simp
  · simp
  · simp
  · decide

theorem slashes_append (a b : Text) : slashes P (a ++ b) = slashes P a ++ slashes P b :=
  List.map_append

theorem slashes_separator (b : Text) : slashes P (separator P :: b) = slashes P ('/' :: b) := by
  unfold slashes separator
  cases P.windows <;> simp

/-- Up to the separators, /uploads/<name> is the path under which an image is stored. -/
theorem slashes_uploads (P : Platform) (root : Text) (hname : name.head? ≠ some '/') :
    slashes P (join (uploadFolder P root) name) =
      slashes P (osJoin P (uploadFolder P root) name) := by
  obtain ⟨front, -, hupload⟩ := folders_eq P root
  have hserved : join (uploadFolder P root) name = uploadFolder P root ++ '/' :: name := by
    rw [hupload]
    exact join_plain (by simp) (by simp) hname
  have hsaved : osJoin P (uploadFolder P root) name =
      uploadFolder P root ++ separator P :: name := by
    rw [hupload]
    exact osJoin_plain (by simp) (by simp) (by simp) hname
  rw [hserved, hsaved, slashes_append, slashes_append, slashes_separator]

/-- So is the path under /static that the pages use. -/
theorem slashes_static (P : Platform) (root : Text) (hname : name.head? ≠ some '/') :
    slashes P (join (staticFolder P root) ("uploads".toList ++ '/' :: name)) =
      slashes P (osJoin P (uploadFolder P root) name) := by
  obtain ⟨front, hstatic, hupload⟩ := folders_eq P root
  have hshown : join (staticFolder P root) ("uploads".toList ++ '/' :: name) =
      staticFolder P root ++ '/' :: ("uploads".toList ++ '/' :: name) := by
    rw [hstatic]
    exact join_plain (by simp) (by simp) (by simp)
  have hserved : join (uploadFolder P root) name = uploadFolder P root ++ '/' :: name := by
    rw [hupload]
    exact join_plain (by simp) (by simp) hname
  rw [← slashes_uploads P root hname, hshown, hserved, hupload, hstatic, ← List.cons_append]
  simp only [slashes_append, slashes_separator, List.append_assoc]

/-- A file that is there under a path of names is served from its folder. -/
theorem sendFromDirectory_names {directory : Text} {trail : List Text} (hdirectory : directory ≠ [])
    (hnames : Names trail) (hne : trail ≠ []) (hportable : Portable P (written trail))
    (hfile : isfile (join directory (written trail)) = true) :
    sendFromDirectory P isfile directory (written trail) =
      some (join directory (written trail)) := by
  have harg : safeJoin P directory (written trail) = some (join directory (written trail)) :=
    (safeJoin_eq_some hdirectory (written_ne_nil hnames) (written_relative hnames)).mpr
      ⟨trail, hnames, walk_written hnames hne, hportable, rfl⟩
  rw [sendFromDirectory, harg]
  exact if_pos hfile

theorem colon_not_mem_storedName (P : Platform) (u : Upload) : ':' ∉ storedName P u := by
  intro hmem
  rcases mem_storedName hmem with hdigit | hline | hsecure
  · exact absurd hdigit (by decide)
  · exact absurd hline (by decide)
  · exact absurd (isKept_of_mem_secureFilename hsecure) (by decide)

theorem storedName_names (P : Platform) (u : Upload) :
    (storedName P u ≠ [] ∧ storedName P u ≠ dot ∧ storedName P u ≠ dotdot) ∧
      '/' ∉ storedName P u := by
  obtain ⟨hslash, -, hne, hdot, hdotdot⟩ := directlyInside_storedName P u
  exact ⟨⟨hne, hdot, hdotdot⟩, hslash⟩

theorem portable_of_not_mem (hback : '\\' ∉ path) (hcolon : ':' ∉ path) : Portable P path := by
  intro _
  refine ⟨hback, ?_⟩
  intro drive rest heq
  exact hcolon (heq ▸ List.mem_cons_of_mem _ List.mem_cons_self)

theorem uploads_path (name : Text) :
    "uploads/".toList ++ name = written ["uploads".toList, name] := by
  simp [written]

/-- An image that was stored is found by both routes, under the names that the pages use. -/
theorem stored_images_served (hstores : StoresAs P u name)
    (hsame : ∀ a b, slashes P a = slashes P b → isfile a = isfile b)
    (hfile : isfile (osJoin P (uploadFolder P root) name) = true) :
    ∃ shown served, sendStaticFile P isfile root ("uploads/".toList ++ name) = some shown ∧
      uploadedFile P isfile root name = some served ∧
        slashes P shown = slashes P (osJoin P (uploadFolder P root) name) ∧
          slashes P served = slashes P (osJoin P (uploadFolder P root) name) := by
  obtain ⟨-, rfl⟩ := storesAs_iff.mp hstores
  have hname := storedName_names P u
  have hcolon := colon_not_mem_storedName P u
  have hback := (directlyInside_storedName P u).2.1
  have hrel : (storedName P u).head? ≠ some '/' := fun h => hname.2 (List.mem_of_head? h)
  have hnames : Names ["uploads".toList, storedName P u] :=
    List.forall_mem_cons.mpr ⟨by decide, List.forall_mem_singleton.mpr hname⟩
  have hone : written [storedName P u] = storedName P u := by simp [written]
  have htwo : written ["uploads".toList, storedName P u] =
      "uploads".toList ++ '/' :: storedName P u := by simp [written]
  -- up to the separators, both are the path under which the image was stored
  have hshown := slashes_static P root hrel
  have hserved := slashes_uploads P root hrel
  have hfolder : staticFolder P root ≠ [] ∧ uploadFolder P root ≠ [] :=
    ⟨osJoin_ne_nil P root (by decide), osJoin_ne_nil P (staticFolder P root) (by decide)⟩
  refine ⟨_, _, ?_, ?_, hshown, hserved⟩
  · rw [← htwo, uploads_path]
    apply sendFromDirectory_names hfolder.1 hnames (by simp)
    · apply portable_of_not_mem
      · rw [htwo]
        simp [hback]
      · rw [htwo]
        simp [hcolon]
    · rw [htwo, hsame _ _ hshown]
      exact hfile
  · rw [← hone, uploadedFile]
    apply sendFromDirectory_names hfolder.2 (List.forall_mem_singleton.mpr hname) (by simp)
    · apply portable_of_not_mem
      · rw [hone]
        exact hback
      · rw [hone]
        exact hcolon
    · rw [hone, hsame _ _ hserved]
      exact hfile

end RoundTrip

def onWindows : Platform := { asciiOnly with windows := true }

def isLogo (path : Text) : Bool :=
  slashes onWindows path == "C:/gloora/static/uploads/1700000000_logo.png".toList

theorem stored_images_served_logo :
    ∃ shown served,
      sendStaticFile onWindows isLogo "C:\\gloora".toList
        ("uploads/".toList ++ "1700000000_logo.png".toList) = some shown ∧
      uploadedFile onWindows isLogo "C:\\gloora".toList "1700000000_logo.png".toList = some served ∧
      slashes onWindows shown = "C:/gloora/static/uploads/1700000000_logo.png".toList ∧
      slashes onWindows served = "C:/gloora/static/uploads/1700000000_logo.png".toList := by
  have hstores : StoresAs onWindows (sent 1700000000 "logo.png") "1700000000_logo.png".toList := by
    unfold StoresAs
    decide +kernel
  have hsame : ∀ a b, slashes onWindows a = slashes onWindows b → isLogo a = isLogo b := by
    intro a b h
    rw [isLogo, h, isLogo]
  have hfile : isLogo (osJoin onWindows (uploadFolder onWindows "C:\\gloora".toList)
      "1700000000_logo.png".toList) = true := by decide +kernel
  exact stored_images_served hstores hsame hfile

end Gloora
