import Mathlib.Data.List.Basic
import Mathlib.Tactic.SplitIfs

/-!
# URL-safe Base64

`encode` writes no padding. `decode` is Python's `urlsafe_b64decode` after the padding has been
added: it skips bytes that are not in the alphabet, and reads nothing after the end of the
padding. What was encoded is decoded again.
-/

namespace Base64
set_option autoImplicit false

def alphabet : List UInt8 :=
  "ABCDEFGHIJKLMNOPQRSTUVWXYZabcdefghijklmnopqrstuvwxyz0123456789-_".toList.map
    fun c => .ofNat c.toNat

def pad : UInt8 := 61

def digit (n : Nat) : UInt8 := alphabet.getD n 65

/-- The six bits that a byte stands for; `+` and `/` are read as `-` and `_` are. -/
def value? (c : UInt8) : Option Nat :=
  if c = 43 then some 62 else if c = 47 then some 63 else alphabet.idxOf? c

def encode : List UInt8 → List UInt8
  | [] => []
  | [a] => [digit (a.toNat / 4), digit (a.toNat % 4 * 16)]
  | [a, b] =>
    [digit (a.toNat / 4), digit (a.toNat % 4 * 16 + b.toNat / 16), digit (b.toNat % 16 * 4)]
  | a :: b :: c :: rest =>
    digit (a.toNat / 4) :: digit (a.toNat % 4 * 16 + b.toNat / 16) ::
      digit (b.toNat % 16 * 4 + c.toNat / 64) :: digit (c.toNat % 64) :: encode rest

/-- The rest of the input, after `quad` digits of a group of four that leave the bits `left`,
and after `pads` padding bytes. -/
def readFrom : (quad left pads : Nat) → List UInt8 → Option (List UInt8)
  | quad, _, _, [] => if quad = 0 then some [] else none
  | quad, left, pads, c :: cs =>
    if c = pad then
      if 2 ≤ quad ∧ 4 ≤ quad + (pads + 1) then some []
      else readFrom quad left (if 2 ≤ quad then pads + 1 else pads) cs
    else
      match value? c with
      | none => readFrom quad left pads cs
      | some v =>
        match quad with
        | 0 => readFrom 1 v 0 cs
        | 1 => (readFrom 2 (v % 16) 0 cs).map (UInt8.ofNat (left * 4 + v / 16) :: ·)
        | 2 => (readFrom 3 (v % 4) 0 cs).map (UInt8.ofNat (left * 16 + v / 4) :: ·)
        | _ => (readFrom 0 0 0 cs).map (UInt8.ofNat (left * 64 + v) :: ·)

/-- `urlsafe_b64decode` of the text with its padding. -/
def decode (s : List UInt8) : Option (List UInt8) :=
  readFrom 0 0 0 (s ++ List.replicate ((4 - s.length % 4) % 4) pad)

section
variable {n : Nat}

theorem value?_digit (h : n < 64) : value? (digit n) = some n := by
  revert n
  decide +kernel

theorem digit_ne_pad (h : n < 64) : digit n ≠ pad := by
  revert n
  decide +kernel

theorem readFrom_digit (h : n < 64) (quad left pads : Nat) (cs : List UInt8) :
    readFrom quad left pads (digit n :: cs) =
      match quad with
      | 0 => readFrom 1 n 0 cs
      | 1 => (readFrom 2 (n % 16) 0 cs).map (UInt8.ofNat (left * 4 + n / 16) :: ·)
      | 2 => (readFrom 3 (n % 4) 0 cs).map (UInt8.ofNat (left * 16 + n / 4) :: ·)
      | _ => (readFrom 0 0 0 cs).map (UInt8.ofNat (left * 64 + n) :: ·) := by
  rw [readFrom, if_neg (digit_ne_pad h), value?_digit h]

/-- The first digit of a group, with the start of the second. -/
theorem readFrom_first (left pads : Nat) (a : UInt8) (hn : n < 16) (cs : List UInt8) :
    readFrom 0 left pads (digit (a.toNat / 4) :: digit (a.toNat % 4 * 16 + n) :: cs) =
      (readFrom 2 n 0 cs).map (a :: ·) := by
  have ha := a.toNat_lt
  have hbyte : UInt8.ofNat (a.toNat / 4 * 4 + (a.toNat % 4 * 16 + n) / 16) = a := by
    rw [show a.toNat / 4 * 4 + (a.toNat % 4 * 16 + n) / 16 = a.toNat by omega]
    exact UInt8.ofNat_toNat
  rw [readFrom_digit (by omega), readFrom_digit (by omega)]
  simp only [hbyte]
  rw [show (a.toNat % 4 * 16 + n) % 16 = n by omega]

theorem readFrom_second (pads : Nat) (b : UInt8) (hn : n < 4) (cs : List UInt8) :
    readFrom 2 (b.toNat / 16) pads (digit (b.toNat % 16 * 4 + n) :: cs) =
      (readFrom 3 n 0 cs).map (b :: ·) := by
  have hb := b.toNat_lt
  have hbyte : UInt8.ofNat (b.toNat / 16 * 16 + (b.toNat % 16 * 4 + n) / 4) = b := by
    rw [show b.toNat / 16 * 16 + (b.toNat % 16 * 4 + n) / 4 = b.toNat by omega]
    exact UInt8.ofNat_toNat
  rw [readFrom_digit (by omega)]
  simp only [hbyte]
  rw [show (b.toNat % 16 * 4 + n) % 4 = n by omega]

theorem readFrom_third (pads : Nat) (c : UInt8) (cs : List UInt8) :
    readFrom 3 (c.toNat / 64) pads (digit (c.toNat % 64) :: cs) =
      (readFrom 0 0 0 cs).map (c :: ·) := by
  have hbyte : UInt8.ofNat (c.toNat / 64 * 64 + c.toNat % 64) = c := by
    rw [show c.toNat / 64 * 64 + c.toNat % 64 = c.toNat by omega]
    exact UInt8.ofNat_toNat
  rw [readFrom_digit (by omega)]
  simp only [hbyte]

end

/-- The padding that the length of an encoded text asks for. -/
theorem readFrom_encode (bs : List UInt8) :
    readFrom 0 0 0 (encode bs ++ List.replicate ((4 - (encode bs).length % 4) % 4) pad) =
      some bs := by
  induction bs using encode.induct with
  | case1 => rfl
  | case2 a =>
    exact readFrom_first 0 0 a (show 0 < 16 by decide) [pad, pad]
  | case3 a b =>
    have hb := b.toNat_lt
    have hsecond := readFrom_second 0 b (show 0 < 4 by decide) [pad]
    have hfirst := readFrom_first 0 0 a (show b.toNat / 16 < 16 by omega)
      (digit (b.toNat % 16 * 4) :: [pad])
    refine hfirst.trans ?_
    rw [show b.toNat % 16 * 4 = b.toNat % 16 * 4 + 0 from rfl, hsecond]
    rfl
  | case4 a b c rest ih =>
    have hb := b.toNat_lt
    have hc := c.toNat_lt
    have hlength : (encode (a :: b :: c :: rest)).length % 4 = (encode rest).length % 4 := by
      simp only [encode, List.length_cons]
      omega
    rw [hlength, encode]
    simp only [List.cons_append]
    rw [readFrom_first 0 0 a (by omega), readFrom_second 0 b (by omega), readFrom_third, ih]
    rfl

/-- What was encoded is decoded again. -/
theorem decode_encode (bs : List UInt8) : decode (encode bs) = some bs := readFrom_encode bs

/-- An encoded text consists of letters of the alphabet. -/
theorem mem_encode {c : UInt8} {bs : List UInt8} (h : c ∈ encode bs) : ∃ n < 64, c = digit n := by
  induction bs using encode.induct with
  | case1 => cases h
  | case2 a =>
    have ha := a.toNat_lt
    simp only [encode, List.mem_cons, List.not_mem_nil, or_false] at h
    rcases h with rfl | rfl
    · exact ⟨_, by omega, rfl⟩
    · exact ⟨_, by omega, rfl⟩
  | case3 a b =>
    have ha := a.toNat_lt
    have hb := b.toNat_lt
    simp only [encode, List.mem_cons, List.not_mem_nil, or_false] at h
    rcases h with rfl | rfl | rfl
    · exact ⟨_, by omega, rfl⟩
    · exact ⟨_, by omega, rfl⟩
    · exact ⟨_, by omega, rfl⟩
  | case4 a b c rest ih =>
    have ha := a.toNat_lt
    have hb := b.toNat_lt
    have hc := c.toNat_lt
    simp only [encode, List.mem_cons] at h
    rcases h with rfl | rfl | rfl | rfl | hrest
    · exact ⟨_, by omega, rfl⟩
    · exact ⟨_, by omega, rfl⟩
    · exact ⟨_, by omega, rfl⟩
    · exact ⟨_, by omega, rfl⟩
    · exact ih hrest

end Base64
