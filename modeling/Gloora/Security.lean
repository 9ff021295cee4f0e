import Gloora.Lib.Numerals
import Gloora.SqliteText

/-!
# Hashes of werkzeug

`generate_password_hash` writes the method, the salt and the digest into one text, and
`check_password_hash` takes it apart again. What is written is read back as the same
method, so that a key is accepted exactly if it has the digest of the key that was hashed.
-/

namespace Gloora
set_option autoImplicit false

open PyText

/-- The functions of `hashlib`; an error is the name of an exception. -/
structure Hashlib where
  scrypt : (password salt : List UInt8) → (n r p maxmem : Int) → Except Text (List UInt8)
  pbkdf2Hmac : (hashName : Text) → (password salt : List UInt8) → (iterations : Int) →
    Except Text (List UInt8)

def saltChars : Text :=
  "abcdefghijklmnopqrstuvwxyzABCDEFGHIJKLMNOPQRSTUVWXYZ0123456789".toList

/-- `gen_salt`; `draw i` is what `secrets.choice` picks at the i-th place. -/
def genSalt (draw : Nat → Fin 62) (length : Int) : Except Text Text :=
  if length ≤ 0 then .error "ValueError".toList
  else .ok ((List.range length.toNat).map fun i => saltChars.get ((draw i).cast (by decide)))

/-- `digest.hex()` -/
def hex (digest : List UInt8) : Text :=
  digest.flatMap fun b => [Nat.digitChar (b.toNat / 16), Nat.digitChar (b.toNat % 16)]

/-- `n, r, p` from the arguments of scrypt; `none` is a `ValueError`. -/
def scryptArgs : List Text → Option (Int × Int × Int)
  | [] => some (2 ^ 15, 8, 1)
  | [n, r, p] => do
    let n ← pyInt n
    let r ← pyInt r
    let p ← pyInt p
    pure (n, r, p)
  | _ => none

/-- `hash_name` and `iterations` from the arguments of pbkdf2; `none` is a `ValueError`. -/
def pbkdf2Args : List Text → Option (Text × Int)
  | [] => some ("sha256".toList, 1000000)
  | [hashName] => some (hashName, 1000000)
  | [hashName, iterations] => (pyInt iterations).map fun n => (hashName, n)
  | _ => none

/-- `_hash_internal` -/
def hashInternal (H : Hashlib) (method salt password : Text) : Except Text (Text × Text) :=
  let parts := method.splitOn ':'
  if parts.headD [] = "scrypt".toList then
    match scryptArgs parts.tail with
    | some (n, r, p) =>
      (H.scrypt (utf8 password) (utf8 salt) n r p (132 * n * r * p)).map fun digest =>
        (hex digest, "scrypt:".toList ++ pyStr n ++ ':' :: pyStr r ++ ':' :: pyStr p)
    | none => .error "ValueError".toList
  else if parts.headD [] = "pbkdf2".toList then
    match pbkdf2Args parts.tail with
    | some (hashName, iterations) =>
      (H.pbkdf2Hmac hashName (utf8 password) (utf8 salt) iterations).map fun digest =>
        (hex digest, "pbkdf2:".toList ++ hashName ++ ':' :: pyStr iterations)
    | none => .error "ValueError".toList
  else .error "ValueError".toList

def generatePasswordHash (H : Hashlib) (draw : Nat → Fin 62) (password method : Text)
    (saltLength : Int) : Except Text Text := do
  let salt ← genSalt draw saltLength
  let (h, actualMethod) ← hashInternal H method salt password
  pure (actualMethod ++ '$' :: salt ++ '$' :: h)

/-- `s.split("$", 2)`, if it has three parts. -/
def splitDollar (s : Text) : Option (Text × Text × Text) :=
  match s.dropWhile (· != '$') with
  | [] => none
  | _ :: rest =>
    match rest.dropWhile (· != '$') with
    | [] => none
    | _ :: hashval => some (s.takeWhile (· != '$'), rest.takeWhile (· != '$'), hashval)

/-- `hmac.compare_digest` on two `str`. -/
def compareDigest (a b : Text) : Except Text Bool :=
  if (a ++ b).all fun c => decide (c.toNat < 128) then .ok (a == b) else .error "TypeError".toList

def checkPasswordHash (H : Hashlib) (pwhash password : Text) : Except Text Bool :=
  match splitDollar pwhash with
  | none => .ok false
  | some (method, salt, hashval) => do
    let (h, _) ← hashInternal H method salt password
    compareDigest h hashval

section Method

/-- A method with its parameters. -/
inductive Method where
  | scrypt (n r p : Int)
  | pbkdf2 (hashName : Text) (iterations : Int)
deriving DecidableEq

namespace Method

/-- The method that a text stands for. -/
def read (text : Text) : Option Method :=
  let parts := text.splitOn ':'
  if parts.headD [] = "scrypt".toList then
    (scryptArgs parts.tail).map fun (n, r, p) => scrypt n r p
  else if parts.headD [] = "pbkdf2".toList then
    (pbkdf2Args parts.tail).map fun (hashName, iterations) => pbkdf2 hashName iterations
  else none

def text : Method → Text
  | scrypt n r p => "scrypt".toList ++ ':' :: (pyStr n ++ ':' :: (pyStr r ++ ':' :: pyStr p))
  | pbkdf2 hashName iterations => "pbkdf2".toList ++ ':' :: (hashName ++ ':' :: pyStr iterations)

@[simp] theorem text_scrypt (n r p : Int) : (scrypt n r p).text =
    "scrypt".toList ++ ':' :: (pyStr n ++ ':' :: (pyStr r ++ ':' :: pyStr p)) := rfl

@[simp] theorem text_pbkdf2 (hashName : Text) (iterations : Int) :
    (pbkdf2 hashName iterations).text =
      "pbkdf2".toList ++ ':' :: (hashName ++ ':' :: pyStr iterations) := rfl

def digest (H : Hashlib) (salt password : Text) : Method → Except Text (List UInt8)
  | scrypt n r p => H.scrypt (utf8 password) (utf8 salt) n r p (132 * n * r * p)
  | pbkdf2 hashName iterations =>
    H.pbkdf2Hmac hashName (utf8 password) (utf8 salt) iterations

/-- An integer that Python agrees to write and to read. -/
def Short (n : Int) : Prop := (Nat.toDigits 10 n.natAbs).length ≤ 4300

instance (n : Int) : Decidable (Short n) :=
  inferInstanceAs (Decidable ((Nat.toDigits 10 n.natAbs).length ≤ 4300))

/-- A method that can be read again. -/
def Writable : Method → Prop
  | scrypt n r p => Short n ∧ Short r ∧ Short p
  | pbkdf2 hashName iterations => ':' ∉ hashName ∧ Short iterations

variable {H : Hashlib} {m : Method} {text salt password : Text}

theorem not_mem_pyStr {c : Char} (hminus : c ≠ '-') (hdigit : c.isDigit = false) (n : Int) :
    c ∉ pyStr n := by
  intro hc
  rcases mem_pyStr hc with heq | h
  · exact hminus heq
  · rw [hdigit] at h
    cases h

theorem splitOn_text : ∀ m : Method, m.Writable → m.text.splitOn ':' =
    match m with
    | scrypt n r p => ["scrypt".toList, pyStr n, pyStr r, pyStr p]
    | pbkdf2 hashName iterations => ["pbkdf2".toList, hashName, pyStr iterations]
  | scrypt n r p, _ => by
    have hcolon := not_mem_pyStr (show ':' ≠ '-' by decide) (by decide)
    rw [text_scrypt, List.splitOn_append_cons_self_of_not_mem (by decide),
      List.splitOn_append_cons_self_of_not_mem (hcolon n),
      List.splitOn_append_cons_self_of_not_mem (hcolon r), List.splitOn_eq_singleton (hcolon p)]
  | pbkdf2 hashName iterations, h => by
    have hcolon := not_mem_pyStr (show ':' ≠ '-' by decide) (by decide)
    rw [text_pbkdf2, List.splitOn_append_cons_self_of_not_mem (by decide),
      List.splitOn_append_cons_self_of_not_mem h.1, List.splitOn_eq_singleton (hcolon iterations)]

theorem read_text (h : m.Writable) : read m.text = some m := by
  unfold read
  rw [splitOn_text m h]
  cases m with
  | scrypt n r p =>
    obtain ⟨hn, hr, hp⟩ := h
    simp [scryptArgs, pyInt_pyStr hn, pyInt_pyStr hr, pyInt_pyStr hp]
  | pbkdf2 hashName iterations =>
    simp [pbkdf2Args, pyInt_pyStr h.2]

theorem short_scryptArgs {args : List Text} {n r p : Int}
    (h : scryptArgs args = some (n, r, p)) : Short n ∧ Short r ∧ Short p := by
  unfold scryptArgs at h
  split at h
  · cases h
    decide
  · simp only [Option.bind_eq_bind, Option.bind_eq_some_iff] at h
    obtain ⟨n', hn, r', hr, p', hp, heq⟩ := h
    cases heq
    exact ⟨length_of_pyInt hn, length_of_pyInt hr, length_of_pyInt hp⟩
  · cases h

theorem short_pbkdf2Args {args : List Text} {hashName : Text} {iterations : Int}
    (hcolon : ∀ arg ∈ args, ':' ∉ arg) (h : pbkdf2Args args = some (hashName, iterations)) :
    ':' ∉ hashName ∧ Short iterations := by
  unfold pbkdf2Args at h
  split at h
  · cases h
    decide
  · cases h
    exact ⟨hcolon _ List.mem_cons_self, by decide⟩
  · obtain ⟨n, hn, heq⟩ := Option.map_eq_some_iff.mp h
    cases heq
    exact ⟨hcolon _ List.mem_cons_self, length_of_pyInt hn⟩
  · cases h

theorem colon_not_mem_args (text : Text) : ∀ arg ∈ (text.splitOn ':').tail, ':' ∉ arg := by
  intro arg harg hmem
  have hpart := List.mem_of_mem_tail harg
  rw [List.splitOn_eq_splitOnP] at hpart
  have hno := JsText.mem_splitOnP hpart ':' hmem
  simp at hno

/-- What is read can be written. -/
theorem read_writable (h : read text = some m) : m.Writable := by
  unfold read at h
  simp only at h
  split_ifs at h with hscrypt hpbkdf2
  · obtain ⟨⟨n, r, p⟩, hargs, rfl⟩ := Option.map_eq_some_iff.mp h
    exact short_scryptArgs hargs
  · obtain ⟨⟨hashName, iterations⟩, hargs, rfl⟩ := Option.map_eq_some_iff.mp h
    exact short_pbkdf2Args (colon_not_mem_args text) hargs

/-- `_hash_internal` hashes by the method that it reads, and returns how it writes it. -/
theorem hashInternal_eq (H : Hashlib) (method salt password : Text) :
    hashInternal H method salt password =
      match read method with
      | some m => (m.digest H salt password).map fun digest => (hex digest, m.text)
      | none => .error "ValueError".toList := by
  unfold hashInternal read
  simp only
  split_ifs with hscrypt hpbkdf2
  · cases scryptArgs (method.splitOn ':').tail with
    | none => rfl
    | some args => simp [digest]
  · cases pbkdf2Args (method.splitOn ':').tail with
    | none => rfl
    | some args => simp [digest]
  · rfl

end Method

end Method

section Text
variable {method salt hashval h : Text} {d e : List UInt8}

theorem splitDollar_written (hmethod : '$' ∉ method) (hsalt : '$' ∉ salt) :
    splitDollar (method ++ '$' :: salt ++ '$' :: hashval) = some (method, salt, hashval) := by
  have hsolid : ∀ s : Text, '$' ∉ s → ∀ c ∈ s, (c != '$') = true :=
    fun s hs c hc => bne_iff_ne.mpr fun heq => hs (heq ▸ hc)
  have hfront : ∀ s rest : Text, '$' ∉ s →
      (s ++ '$' :: rest).dropWhile (· != '$') = '$' :: rest ∧
        (s ++ '$' :: rest).takeWhile (· != '$') = s := by
    intro s rest hs
    rw [List.dropWhile_append_of_pos (hsolid s hs), List.takeWhile_append_of_pos (hsolid s hs)]
    simp
  unfold splitDollar
  rw [List.append_assoc, List.cons_append, (hfront method _ hmethod).1, (hfront method _ hmethod).2]
  simp only
  rw [(hfront salt _ hsalt).1, (hfront salt _ hsalt).2]

theorem digitChar_hex : (∀ x < 16, x.digitChar.toNat < 128) ∧
    ∀ x < 16, ∀ y < 16, x.digitChar = y.digitChar → x = y := by decide

theorem ascii_hex (d : List UInt8) : ∀ c ∈ hex d, c.toNat < 128 := by
  intro c hc
  obtain ⟨b, -, hb⟩ := List.mem_flatMap.mp hc
  have hlt := b.toNat_lt
  rcases List.mem_cons.mp hb with rfl | hb
  · exact digitChar_hex.1 _ (by omega)
  · rw [List.mem_singleton.mp hb]
    exact digitChar_hex.1 _ (by omega)

theorem hex_inj : hex d = hex e ↔ d = e := by
  refine ⟨?_, congrArg hex⟩
  induction d generalizing e with
  | nil =>
    cases e with
    | nil => exact fun _ => rfl
    | cons b e => exact fun h => absurd h (by simp [hex])
  | cons a d ih =>
    cases e with
    | nil => exact fun h => absurd h (by simp [hex])
    | cons b e =>
      intro h
      have ha := a.toNat_lt
      have hb := b.toNat_lt
      simp only [hex, List.flatMap_cons, List.cons_append, List.nil_append, List.cons.injEq] at h
      obtain ⟨hhigh, hlow, hrest⟩ := h
      have hdiv := digitChar_hex.2 _ (by omega) _ (by omega) hhigh
      have hmod := digitChar_hex.2 _ (by omega) _ (by omega) hlow
      have hbyte : a = b := UInt8.toNat_inj.mp (by omega)
      rw [hbyte, ih hrest]

theorem compareDigest_hex (d e : List UInt8) : compareDigest (hex d) (hex e) = .ok (d == e) := by
  have hascii : ((hex d ++ hex e).all fun c => decide (c.toNat < 128)) = true := by
    rw [List.all_eq_true]
    intro c hc
    rcases List.mem_append.mp hc with h | h
    · exact decide_eq_true (ascii_hex d c h)
    · exact decide_eq_true (ascii_hex e c h)
  have hbeq : (hex d == hex e) = (d == e) := by
    rw [Bool.eq_iff_iff, beq_iff_eq, beq_iff_eq, hex_inj]
  rw [compareDigest, if_pos hascii, hbeq]

theorem dollar_not_mem_salt {draw : Nat → Fin 62} {length : Int}
    (hsalt : genSalt draw length = .ok salt) : '$' ∉ salt := by
  have hchars : '$' ∉ saltChars := by decide
  unfold genSalt at hsalt
  split at hsalt
  · cases hsalt
  · obtain rfl := Except.ok.inj hsalt
    intro hmem
    obtain ⟨i, -, hi⟩ := List.mem_map.mp hmem
    exact hchars (hi ▸ List.get_mem _ _)

theorem Method.dollar_not_mem_text {m : Method}
    (hname : ∀ hashName iterations, m = .pbkdf2 hashName iterations → '$' ∉ hashName) :
    '$' ∉ m.text := by
  have hdollar := Method.not_mem_pyStr (show '$' ≠ '-' by decide) (by decide)
  cases m with
  | scrypt n r p => simp [hdollar]
  | pbkdf2 hashName iterations => simp [hdollar, hname hashName iterations rfl]

end Text

section Check

theorem bind_eq_ok {α β : Type} {x : Except Text α} {f : α → Except Text β} {b : β}
    (h : (x >>= f) = .ok b) : ∃ a, x = .ok a ∧ f a = .ok b := by
  cases x with
  | error e => cases h
  | ok a => exact ⟨a, rfl, h⟩

theorem map_eq_ok {α β : Type} {x : Except Text α} {f : α → β} {b : β}
    (h : x.map f = .ok b) : ∃ a, x = .ok a ∧ f a = b := by
  cases x with
  | error e => cases h
  | ok a => exact ⟨a, rfl, Except.ok.inj h⟩

variable {H : Hashlib} {draw : Nat → Fin 62} {p method pwhash : Text} {saltLength : Int}

theorem generatePasswordHash_ok (h : generatePasswordHash H draw p method saltLength = .ok pwhash) :
    ∃ m salt d, Method.read method = some m ∧ genSalt draw saltLength = .ok salt ∧
      m.digest H salt p = .ok d ∧ pwhash = m.text ++ '$' :: salt ++ '$' :: hex d := by
  obtain ⟨salt, hsalt, h⟩ := bind_eq_ok h
  obtain ⟨⟨hexed, actualMethod⟩, hhash, h⟩ := bind_eq_ok h
  obtain rfl := Except.ok.inj h
  rw [Method.hashInternal_eq] at hhash
  split at hhash
  · rename_i m hread
    obtain ⟨d, hdigest, heq⟩ := map_eq_ok hhash
    cases heq
    exact ⟨m, salt, d, hread, hsalt, hdigest, rfl⟩
  · cases hhash

theorem checkPasswordHash_written {m : Method} {salt : Text} (hread : Method.read method = some m)
    (hsalt : genSalt draw saltLength = .ok salt)
    (hname : ∀ hashName iterations, m = .pbkdf2 hashName iterations → '$' ∉ hashName)
    (d : List UInt8) (q : Text) :
    checkPasswordHash H (m.text ++ '$' :: salt ++ '$' :: hex d) q =
      (m.digest H salt q).map fun e => e == d := by
  rw [checkPasswordHash,
    splitDollar_written (Method.dollar_not_mem_text hname) (dollar_not_mem_salt hsalt)]
  simp only [Method.hashInternal_eq, Method.read_text (Method.read_writable hread)]
  cases m.digest H salt q with
  | error e => rfl
  | ok e => exact compareDigest_hex e d

/-- A key is accepted exactly if it has the digest of the key that was hashed. -/
theorem check_generated
    (hnames : ∀ hashName password salt n d, H.pbkdf2Hmac hashName password salt n = .ok d →
      '$' ∉ hashName)
    (h : generatePasswordHash H draw p method saltLength = .ok pwhash) :
    ∃ m salt d, Method.read method = some m ∧ genSalt draw saltLength = .ok salt ∧
      m.digest H salt p = .ok d ∧
        ∀ q, checkPasswordHash H pwhash q = (m.digest H salt q).map fun e => e == d := by
  obtain ⟨m, salt, d, hread, hsalt, hdigest, rfl⟩ := generatePasswordHash_ok h
  refine ⟨m, salt, d, hread, hsalt, hdigest, ?_⟩
  intro q
  apply checkPasswordHash_written hread hsalt
  intro hashName iterations hm
  subst hm
  exact hnames hashName _ _ _ _ hdigest

end Check

/-- The digests of two keys under one salt. -/
def measured : Hashlib where
  scrypt password salt n r p _ :=
    if salt ≠ utf8 "abcdefghijklmnop".toList ∨ (n, r, p) ≠ (2 ^ 15, 8, 1) then
      .error "MemoryError".toList
    else if password = utf8 "1234".toList then
      .ok [246, 110, 176, 124, 0, 234, 188, 196, 212, 243, 92, 9, 40, 225, 127, 185, 254, 193, 245,
        168, 199, 155, 160, 107, 254, 145, 244, 23, 141, 203, 5, 165, 103, 87, 25, 186, 33, 255,
        27, 191, 108, 216, 153, 109, 59, 41, 236, 49, 80, 109, 219, 245, 186, 50, 86, 175, 224, 53,
        115, 11, 255, 245, 60, 94]
    else if password = utf8 "4321".toList then
      .ok [107, 150, 126, 0, 143, 63, 114, 76, 133, 84, 47, 249, 25, 189, 99, 152, 20, 140, 234,
        158, 113, 140, 148, 60, 47, 129, 215, 22, 66, 134, 140, 181, 188, 213, 132, 25, 189, 63,
        226, 141, 94, 168, 96, 17, 25, 117, 128, 191, 99, 10, 163, 229, 224, 68, 185, 189, 218, 70,
        144, 32, 118, 62, 163, 168]
    else .error "MemoryError".toList
  pbkdf2Hmac _ _ _ _ := .error "ValueError".toList

def measuredHash : Text :=
  ("scrypt:32768:8:1$abcdefghijklmnop$f66eb07c00eabcc4d4f35c0928e17fb9fec1f5a8c79ba06bfe91f417" ++
    "8dcb05a5675719ba21ff1bbf6cd8996d3b29ec31506ddbf5ba3256afe035730bfff53c5e").toList

theorem check_generated_passkey :
    generatePasswordHash measured (Fin.ofNat 62) "1234".toList "scrypt".toList 16 =
        .ok measuredHash ∧
      checkPasswordHash measured measuredHash "1234".toList = .ok true ∧
      checkPasswordHash measured measuredHash "4321".toList = .ok false := by
  have hgen : generatePasswordHash measured (Fin.ofNat 62) "1234".toList "scrypt".toList 16 =
      .ok measuredHash := by decide +kernel
  obtain ⟨m, salt, d, hread, hsalt, hdigest, hcheck⟩ :=
    check_generated (H := measured) (by intro _ _ _ _ _ h; cases h) hgen
  obtain rfl : m = .scrypt (2 ^ 15) 8 1 := Option.some.inj (hread.symm.trans (by decide +kernel))
  obtain rfl : salt = "abcdefghijklmnop".toList :=
    Except.ok.inj (hsalt.symm.trans (by decide +kernel))
  refine ⟨hgen, ?_, ?_⟩
  · rw [hcheck, hdigest]
    simp [Except.map]
  · obtain ⟨e, he, hne⟩ : ∃ e,
        (Method.scrypt (2 ^ 15) 8 1).digest measured "abcdefghijklmnop".toList "4321".toList =
          .ok e ∧
        (Method.scrypt (2 ^ 15) 8 1).digest measured "abcdefghijklmnop".toList "1234".toList ≠
          .ok e := ⟨_, rfl, by decide +kernel⟩
    rw [hcheck, he]
    have hdiffer : (e == d) = false := beq_eq_false_iff_ne.mpr fun heq => hne (heq ▸ hdigest)
    simp [Except.map, hdiffer]

end Gloora
