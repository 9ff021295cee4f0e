import Mathlib.Algebra.Order.Ring.Int

/-!
# Double precision numbers

A finite double is an integral multiple of `2 ^ (-1074)`, so `fin n` stands for
`n / 2 ^ 1074` and the integer determines the number. The zeros of both signs are
identified. Conversions and sums round to nearest, ties to even, and overflow to an
infinity.
-/

namespace Binary64
set_option autoImplicit false

inductive Double where
  | nan
  | inf (negative : Bool)
  | fin (n : Int)
deriving DecidableEq, Repr

/-- The integer nearest to `a / b`, and the even one of two equally near. -/
def divRound (a b : Nat) : Nat :=
  let q := a / b
  let r := a % b
  if 2 * r < b then q
  else if b < 2 * r then q + 1
  else if q % 2 = 0 then q else q + 1

/-- `a / b` in units of `2 ^ (-1074)`, rounded to 53 significant bits. -/
def roundUnits (a b : Nat) : Nat :=
  let k := Nat.log2 (a / b) - 52
  divRound a (b * 2 ^ k) * 2 ^ k

def ofUnits (negative : Bool) (n : Nat) : Double :=
  if 2 ^ 2098 ≤ n then .inf negative
  else .fin (if negative then -(n : Int) else n)

def ofRatio (negative : Bool) (num den : Nat) : Double :=
  ofUnits negative (roundUnits (num * 2 ^ 1074) den)

/-- The double nearest to `± digits * 10 ^ exponent`. -/
def ofDecimal (negative : Bool) (digits : Nat) (exponent : Int) : Double :=
  match exponent with
  | .ofNat e => ofRatio negative (digits * 10 ^ e) 1
  | .negSucc e => ofRatio negative digits (10 ^ (e + 1))

def add : Double → Double → Double
  | .nan, _ | _, .nan => .nan
  | .inf s, .inf t => if s = t then .inf s else .nan
  | .inf s, .fin _ => .inf s
  | .fin _, .inf t => .inf t
  | .fin m, .fin n => ofUnits (decide (m + n < 0)) (roundUnits (m + n).natAbs 1)

/-- `x <= 0`, which is false of `nan`. -/
def leZero : Double → Bool
  | .nan => false
  | .inf s => s
  | .fin n => n ≤ 0

def IsFinite : Double → Prop
  | .fin _ => True
  | _ => False

instance : DecidablePred IsFinite
  | .fin _ => .isTrue trivial
  | .nan | .inf _ => .isFalse id

theorem leZero_fin (n : Int) : leZero (.fin n) = false ↔ 0 < n := by
  simp [leZero]

section Rounding

/-- An integral multiple of a power of two that a double with 53 significant bits holds. -/
def Representable (n : Nat) : Prop := ∃ m k, m < 2 ^ 53 ∧ n = m * 2 ^ k

theorem divRound_le (a b : Nat) : divRound a b ≤ a / b + 1 := by
  unfold divRound
  grind

theorem le_divRound (a b : Nat) : a / b ≤ divRound a b := by
  unfold divRound
  grind

theorem divRound_mul (q : Nat) {b : Nat} (hb : 0 < b) : divRound (q * b) b = q := by
  have hq : q * b / b = q := Nat.mul_div_cancel q hb
  have hr : q * b % b = 0 := Nat.mul_mod_left q b
  simp only [divRound, hq, hr, Nat.mul_zero, hb, if_true]

theorem representable_of_le {q k : Nat} (h : q ≤ 2 ^ 53) : Representable (q * 2 ^ k) := by
  rcases Nat.lt_or_eq_of_le h with hlt | rfl
  · exact ⟨q, k, hlt, rfl⟩
  · exact ⟨1, 53 + k, by decide, by rw [Nat.one_mul, Nat.pow_add]⟩

theorem representable_roundUnits (a b : Nat) : Representable (roundUnits a b) := by
  apply representable_of_le
  have hlog : a / b < 2 ^ (Nat.log2 (a / b) + 1) := Nat.lt_log2_self
  have hpow : 2 ^ (Nat.log2 (a / b) + 1) ≤ 2 ^ (53 + (Nat.log2 (a / b) - 52)) :=
    Nat.pow_le_pow_right (by decide) (by omega)
  have hquot : a / (b * 2 ^ (Nat.log2 (a / b) - 52)) < 2 ^ 53 := by
    rw [← Nat.div_div_eq_div_mul, Nat.div_lt_iff_lt_mul (Nat.two_pow_pos _), ← Nat.pow_add]
    exact Nat.lt_of_lt_of_le hlog hpow
  have hle := divRound_le a (b * 2 ^ (Nat.log2 (a / b) - 52))
  omega

theorem roundUnits_of_representable {n : Nat} (h : Representable n) : roundUnits n 1 = n := by
  obtain ⟨m, k, hm, rfl⟩ := h
  have hk : Nat.log2 (m * 2 ^ k) - 52 ≤ k := by
    by_cases hzero : m * 2 ^ k = 0
    · simp [hzero]
    have hlt : m * 2 ^ k < 2 ^ (53 + k) := by
      rw [Nat.pow_add]
      exact Nat.mul_lt_mul_of_pos_right hm (Nat.two_pow_pos k)
    have hlog := (Nat.log2_lt hzero).mpr hlt
    omega
  obtain ⟨q, hq⟩ := (Nat.pow_dvd_pow 2 hk).mul_left m
  have hround : divRound (m * 2 ^ k) (2 ^ (Nat.log2 (m * 2 ^ k) - 52)) = q := by
    nth_rewrite 1 [hq]
    rw [Nat.mul_comm]
    exact divRound_mul q (Nat.two_pow_pos _)
  simp only [roundUnits, Nat.div_one, Nat.one_mul]
  rw [hround, Nat.mul_comm, ← hq]

theorem roundUnits_pos {n : Nat} (h : 0 < n) : 0 < roundUnits n 1 := by
  simp only [roundUnits, Nat.div_one, Nat.one_mul]
  apply Nat.mul_pos _ (Nat.two_pow_pos _)
  have hle : 2 ^ (Nat.log2 n - 52) ≤ n :=
    (Nat.pow_le_pow_right (by decide) (Nat.sub_le _ _)).trans (Nat.log2_self_le (by omega))
  have hquot : 0 < n / 2 ^ (Nat.log2 n - 52) := Nat.div_pos hle (Nat.two_pow_pos _)
  exact Nat.lt_of_lt_of_le hquot (le_divRound _ _)

/-- The numbers that the 64 bits of a double stand for. -/
inductive IsDouble : Double → Prop where
  | nan : IsDouble .nan
  | inf (negative : Bool) : IsDouble (.inf negative)
  | fin (n : Int) (bits : Representable n.natAbs) (bound : n.natAbs < 2 ^ 2098) :
    IsDouble (.fin n)

theorem ofUnits_of_lt {negative : Bool} {n : Nat} (h : n < 2 ^ 2098) :
    ofUnits negative n = .fin (if negative then -(n : Int) else n) :=
  if_neg (Nat.not_le.mpr h)

theorem isDouble_ofUnits {negative : Bool} {n : Nat} (h : Representable n) :
    IsDouble (ofUnits negative n) := by
  have habs : (if negative then -(n : Int) else n).natAbs = n := by split <;> omega
  by_cases hlt : n < 2 ^ 2098
  · rw [ofUnits_of_lt hlt]
    exact .fin _ (habs.symm ▸ h) (habs.symm ▸ hlt)
  · rw [ofUnits, if_pos (Nat.le_of_not_lt hlt)]
    exact .inf negative

theorem isDouble_ofDecimal (negative : Bool) (digits : Nat) (exponent : Int) :
    IsDouble (ofDecimal negative digits exponent) := by
  unfold ofDecimal
  split <;> exact isDouble_ofUnits (representable_roundUnits _ _)

/-- Nothing is rounded when a double is added to zero. -/
theorem fin_zero_add {n : Int} (h : IsDouble (.fin n)) : add (.fin 0) (.fin n) = .fin n := by
  have hsigned : (if decide (n < 0) then -(n.natAbs : Int) else n.natAbs) = n := by
    split <;> rename_i hneg <;> simp only [decide_eq_true_eq] at hneg <;> omega
  cases h with
  | fin _ bits bound =>
    rw [add, Int.zero_add, roundUnits_of_representable bits, ofUnits_of_lt bound, hsigned]

/-- A sum of a number that is not negative and a positive one is positive, if it is finite. -/
theorem fin_add_pos {m n : Int} (hm : 0 ≤ m) (hn : 0 < n) :
    add (.fin m) (.fin n) = .inf false ∨ ∃ k, 0 < k ∧ add (.fin m) (.fin n) = .fin k := by
  have hsign : decide (m + n < 0) = false := by
    simp only [decide_eq_false_iff_not]
    omega
  have hpos := roundUnits_pos (n := (m + n).natAbs) (by omega)
  simp only [add, hsign, ofUnits]
  split
  · exact .inl rfl
  · exact .inr ⟨_, Int.natCast_pos.mpr hpos, rfl⟩

end Rounding

end Binary64
