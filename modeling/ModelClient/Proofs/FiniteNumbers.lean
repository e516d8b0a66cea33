import Mathlib.Logic.Basic
import ModelClient.Json.Number

/-!
# Numbers that are read are finite

A spelling stands for an integer of 64 bits, for a finite double-precision number, or for no number
at all. Rounding gives a finite pattern for every fraction below `2 ^ 1023`, which covers every
significand; a product is checked; and the powers of ten that a number is divided by are at least
two, which keeps every finite number below that bound.

All bounds are on fractions of natural numbers, and `Below` states them for exponents of either
sign.

## Main statements

* `Json.Spelling.finite_of_number?`: the number of a spelling is finite.
-/

namespace ModelClient

namespace Binary

/-! ## Fractions below a power of two -/

variable {n d : Nat} {j k : Int}

/-- The fraction `n / d` is less than `2 ^ k`. -/
def Below (n d : Nat) (k : Int) : Prop := (scaleDown n d k).1 < (scaleDown n d k).2

instance : Decidable (Below n d k) := inferInstanceAs (Decidable (_ < _))

/-- The bound with the exponent as a difference of natural numbers. -/
theorem below_iff {a b : Nat} (h : k = a - b) : Below n d k ↔ n * 2 ^ b < d * 2 ^ a := by
  unfold Below scaleDown
  by_cases hk : 0 ≤ k
  · have ha : a = k.toNat + b := by omega
    rw [if_pos hk, ha, Nat.pow_add, ← Nat.mul_assoc]
    exact (Nat.mul_lt_mul_right (Nat.two_pow_pos b)).symm
  · have hb : b = (-k).toNat + a := by omega
    rw [if_neg hk, hb, Nat.pow_add, ← Nat.mul_assoc]
    exact (Nat.mul_lt_mul_right (Nat.two_pow_pos a)).symm

/-- A bound may be raised. -/
theorem Below.mono (h : Below n d j) (hjk : j ≤ k) : Below n d k := by
  have hj := (below_iff (a := j.toNat) (b := (-j).toNat) (by omega)).1 h
  refine (below_iff (a := (k - j).toNat + j.toNat) (b := (-j).toNat) (by omega)).2 ?_
  exact Nat.lt_of_lt_of_le hj
    (Nat.mul_le_mul_left d (Nat.pow_le_pow_right Nat.two_pos (Nat.le_add_left _ _)))

/-- The test of `floorLog2` says that the fraction has reached the power of two. -/
private theorem reached_iff :
    (if 0 ≤ k then d * 2 ^ k.toNat ≤ n else d ≤ n * 2 ^ (-k).toNat) ↔ ¬Below n d k := by
  unfold Below scaleDown
  split <;> exact Nat.not_lt.symm

/-- The logarithm is the difference of the logarithms, or one less. -/
theorem floorLog2_eq (n d : Nat) :
    floorLog2 n d = if Below n d (n.log2 - d.log2) then (n.log2 - d.log2 : Int) - 1
      else n.log2 - d.log2 := by
  unfold floorLog2
  by_cases h : Below n d (n.log2 - d.log2)
  · rw [if_pos h]
    exact if_neg fun hreached => reached_iff.1 hreached h
  · rw [if_neg h]
    exact if_pos (reached_iff.2 h)

/-- A fraction is less than the power of two after its logarithm. -/
theorem below_floorLog2_succ (hd : d ≠ 0) : Below n d (floorLog2 n d + 1) := by
  rw [floorLog2_eq]
  split
  · next h => rwa [Int.sub_add_cancel]
  · refine (below_iff (a := n.log2 + 1) (b := d.log2) (by omega)).2 ?_
    have hn : n < 2 ^ (n.log2 + 1) := Nat.lt_log2_self
    calc n * 2 ^ d.log2 ≤ n * d := Nat.mul_le_mul_left n (Nat.log2_self_le hd)
      _ < 2 ^ (n.log2 + 1) * d := Nat.mul_lt_mul_of_pos_right hn (Nat.pos_of_ne_zero hd)
      _ = d * 2 ^ (n.log2 + 1) := Nat.mul_comm _ _

/-- A fraction is at least the power of two of its logarithm. -/
theorem not_below_floorLog2 (hn : n ≠ 0) : ¬Below n d (floorLog2 n d) := by
  rw [floorLog2_eq]
  split
  · intro hbelow
    have hlt := (below_iff (a := n.log2) (b := d.log2 + 1) (by omega)).1 hbelow
    have hn : 2 ^ n.log2 ≤ n := Nat.log2_self_le hn
    have hd : d < 2 ^ (d.log2 + 1) := Nat.lt_log2_self
    have hle : d * 2 ^ n.log2 ≤ n * 2 ^ (d.log2 + 1) :=
      calc d * 2 ^ n.log2 ≤ 2 ^ (d.log2 + 1) * n := Nat.mul_le_mul (Nat.le_of_lt hd) hn
        _ = n * 2 ^ (d.log2 + 1) := Nat.mul_comm _ _
    exact absurd hlt (Nat.not_lt.2 hle)
  · next h => exact h

/-- The logarithm of a fraction below a power of two is below the exponent. -/
theorem floorLog2_lt_of_below (hn : n ≠ 0) (h : Below n d k) : floorLog2 n d < k :=
  Int.not_le.1 fun hle => not_below_floorLog2 hn (h.mono hle)

/-- Dividing by a number that is at least two takes a power off. -/
theorem Below.div {a b c d : Nat} (h : Below a b (k + 1)) (hd : 0 < d) (htwo : 2 * d ≤ c) :
    Below (a * d) (b * c) k := by
  have hlt := (below_iff (a := k.toNat + 1) (b := (-k).toNat) (by omega)).1 h
  refine (below_iff (a := k.toNat) (b := (-k).toNat) (by omega)).2 ?_
  calc a * d * 2 ^ (-k).toNat = a * 2 ^ (-k).toNat * d := Nat.mul_right_comm _ _ _
    _ < b * 2 ^ (k.toNat + 1) * d := Nat.mul_lt_mul_of_pos_right hlt hd
    _ = b * (2 * d) * 2 ^ k.toNat := by rw [Nat.pow_succ]; ac_rfl
    _ ≤ b * c * 2 ^ k.toNat := Nat.mul_le_mul_right _ (Nat.mul_le_mul_left b htwo)

/-! ## Rounding -/

/-- A quotient below a whole number is not rounded above it. -/
theorem roundHalfEven_le {m : Nat} (h : n < d * m) : roundHalfEven n d ≤ m := by
  have hquotient : n / d < m := Nat.div_lt_of_lt_mul h
  unfold roundHalfEven
  simp only
  split
  · omega
  split
  · omega
  split <;> omega

/-- A fraction below `2 ^ 1023` is rounded to a finite pattern. -/
theorem round_lt_infinity (h : Below n d 1023) :
    Format.double.round n d < Format.double.infinity := by
  have hleast : Format.double.least = -1074 := rfl
  have hinfinity : Format.double.infinity = 2047 * 2 ^ 52 := rfl
  unfold Format.round
  split
  · exact Nat.mul_pos (by decide) (by decide)
  next hne =>
  have hn : n ≠ 0 := fun hn => hne (.inl hn)
  have hd : d ≠ 0 := fun hd => hne (.inr hd)
  have hlog := floorLog2_lt_of_below hn h
  simp only [hleast]
  generalize hunit : max (-1074) (floorLog2 n d - (Format.double.fractionBits : Nat)) = unit
  have hfraction : Format.double.fractionBits = 52 := rfl
  rw [hfraction] at hunit ⊢
  -- The scaled fraction has at most 53 bits before its point.
  have hscaled : Below n d (unit + 53) := (below_floorLog2_succ hd).mono (by omega)
  have hbits : roundHalfEven (scaleDown n d unit).1 (scaleDown n d unit).2 ≤ 2 ^ 53 := by
    refine roundHalfEven_le ?_
    unfold scaleDown
    by_cases hsign : 0 ≤ unit
    · have hlt := (below_iff (a := unit.toNat + 53) (b := 0) (by omega)).1 hscaled
      rw [if_pos hsign, Nat.mul_assoc, ← Nat.pow_add]
      rwa [Nat.pow_zero, Nat.mul_one] at hlt
    · rw [if_neg hsign]
      exact (below_iff (a := 53) (b := (-unit).toNat) (by omega)).1 hscaled
  refine Nat.lt_of_le_of_lt (Nat.min_le_right _ _) ?_
  have hexponent : (unit - -1074).toNat ≤ 2044 := by omega
  have hfield := Nat.mul_le_mul_right (2 ^ 52) hexponent
  rw [hinfinity]
  omega

end Binary

open Binary

namespace Binary64

variable {x y : Binary64}

/-- The pattern of a number with a sign is the pattern that it was made of. -/
theorem pattern_ofPattern (negative : Bool) {pattern : Nat}
    (h : pattern < Format.double.signBit) : (ofPattern negative pattern).pattern = pattern := by
  have hsign : Format.double.signBit = 2 ^ 63 := rfl
  rw [hsign] at h
  have hbits : pattern + (if negative then Format.double.signBit else 0) < 2 ^ 64 := by
    rw [hsign]
    split <;> omega
  unfold Binary64.pattern ofPattern
  rw [UInt64.toNat_ofNat_of_lt' hbits, hsign]
  split <;> omega

/-- A pattern below infinity is that of a finite number. -/
theorem isFinite_ofPattern (negative : Bool) {pattern : Nat}
    (h : pattern < Format.double.infinity) : (ofPattern negative pattern).isFinite = true := by
  have hsign : pattern < Format.double.signBit := Nat.lt_trans h (by decide)
  rw [isFinite, pattern_ofPattern negative hsign]
  exact decide_eq_true h

/-- A finite number has a pattern below infinity. -/
theorem pattern_lt (h : x.isFinite = true) : x.pattern < Format.double.infinity :=
  of_decide_eq_true h

/-- A fraction below the largest powers of two is rounded to a finite number. -/
theorem isFinite_ofFraction (negative : Bool) {n d : Nat} (h : Below n d 1023) :
    (ofFraction negative n d).isFinite = true :=
  isFinite_ofPattern negative (round_lt_infinity h)

/-- A significand is finite. -/
theorem isFinite_ofNat {m : Nat} (h : m < 2 ^ 64) : (ofNat m).isFinite = true := by
  have hbelow : Below m 1 64 := (below_iff (a := 64) (b := 0) (by omega)).2 (by omega)
  exact isFinite_ofFraction false (hbelow.mono (by decide))

/-- A finite number is less than `2 ^ 1024`. -/
theorem below_magnitude (h : x.isFinite = true) : Below x.magnitude.1 x.magnitude.2 1024 := by
  have hpattern := pattern_lt h
  have hinfinity : Format.double.infinity = 2047 * 2 ^ 52 := rfl
  have hleast : Format.double.least = -1074 := rfl
  have hbits : Format.double.fractionBits = 52 := rfl
  have hsplit : (Format.double.split x.pattern).1 < 2 ^ 53 ∧
      (Format.double.split x.pattern).2 ≤ 971 := by
    unfold Format.split
    simp only [hbits, hleast]
    split <;> constructor <;> simp only <;> omega
  unfold magnitude Format.fraction
  obtain ⟨hm, hq⟩ := hsplit
  generalize Format.double.split x.pattern = parts at hm hq
  obtain ⟨m, q⟩ := parts
  simp only at hm hq ⊢
  split
  · refine Below.mono (j := q + 53) ((below_iff (a := q.toNat + 53) (b := 0) (by omega)).2 ?_)
      (by omega)
    rw [Nat.pow_zero, Nat.mul_one, Nat.one_mul, Nat.pow_add, Nat.mul_comm]
    exact Nat.mul_lt_mul_of_pos_left hm (Nat.two_pow_pos _)
  · refine Below.mono (j := 53) ((below_iff (a := 53) (b := 0) (by omega)).2 ?_) (by decide)
    rw [Nat.pow_zero, Nat.mul_one]
    exact Nat.lt_of_lt_of_le hm (Nat.le_mul_of_pos_left _ (Nat.two_pow_pos _))

/-- A finite number stays finite when it is divided by a number that is at least two. -/
theorem isFinite_div (hx : x.isFinite = true)
    (hy : 0 < y.magnitude.2 ∧ 2 * y.magnitude.2 ≤ y.magnitude.1) : (x.div y).isFinite = true :=
  isFinite_ofFraction _ ((below_magnitude hx).div hy.1 hy.2)

/-- The powers of ten in double precision are at least two. -/
theorem two_le_power {k : Nat} (hk : 0 < k) (hlargest : k ≤ 308) :
    0 < (ofNat (10 ^ k)).magnitude.2 ∧
      2 * (ofNat (10 ^ k)).magnitude.2 ≤ (ofNat (10 ^ k)).magnitude.1 := by
  have hpowers : ∀ k : Fin 309, 0 < k.val → 0 < (ofNat (10 ^ k.val)).magnitude.2 ∧
      2 * (ofNat (10 ^ k.val)).magnitude.2 ≤ (ofNat (10 ^ k.val)).magnitude.1 := by
    decide +kernel
  exact hpowers ⟨k, by omega⟩ hk

end Binary64

namespace Json

/-- A number is no double-precision number that is infinite or none. -/
def Number.Finite : Number → Prop
  | .int _ _ => True
  | .float x => x.isFinite = true

/-- An integer of 64 bits is finite in double precision. -/
theorem Number.Finite.isFinite_toBinary64 {n : Number} (h : n.Finite) :
    n.toBinary64.isFinite = true := by
  cases n with
  | int n hrange =>
    have hbelow : Below n.natAbs 1 64 := (below_iff (a := 64) (b := 0) (by omega)).2 (by omega)
    exact Binary64.isFinite_ofFraction _ (hbelow.mono (by decide))
  | float x => exact h

namespace Spelling

/-- Digits are collected only up to the limit. -/
theorem collect_le {limit acc : Nat} (h : acc ≤ limit) (ds : List Char) :
    (collect limit acc ds).1 ≤ limit := by
  induction ds generalizing acc with
  | nil => exact h
  | cons d ds ih =>
    rw [collect]
    split
    · next hnext => exact ih hnext
    · exact h

/-- A significand has 64 bits at most. -/
theorem significand_lt (s : Spelling) : s.significand.1 < 2 ^ 64 := by
  have hwhole : (collect significandLimit 0 s.whole).1 ≤ significandLimit :=
    collect_le (Nat.zero_le _) s.whole
  unfold significand
  cases s.fraction with
  | none => exact Nat.lt_of_le_of_lt hwhole (by decide)
  | some ds => exact Nat.lt_of_le_of_lt (collect_le hwhole ds) (by decide)

/-- Scaling by a power of ten gives a finite number if it gives any. -/
theorem isFinite_scale {steps : Nat} {x y : Binary64} {exponent : Int} (hx : x.isFinite = true)
    (h : scale steps x exponent = some y) : y.isFinite = true := by
  induction steps generalizing x exponent with
  | zero =>
    cases h
    exact hx
  | succ steps ih =>
    rw [scale] at h
    simp only at h
    split at h
    -- Only a product can be infinite, and it is checked; every divisor is two or more.
    · next hlargest =>
      split at h
      · split at h
        · next hproduct =>
          cases h
          exact hproduct
        · cases h
      · next hnegative =>
        cases h
        exact Binary64.isFinite_div hx (Binary64.two_le_power (by omega) hlargest)
    · split at h
      · cases h
        exact hx
      split at h
      · cases h
      · exact ih (Binary64.isFinite_div hx (Binary64.two_le_power (by decide) (by decide))) h

/-- The sign makes no difference. -/
theorem isFinite_signed (negative : Bool) {x : Binary64} (h : x.isFinite = true) :
    (signed negative x).isFinite = true :=
  Binary64.isFinite_ofPattern negative (Binary64.pattern_lt h)

/-- A spelling is read as a finite number if it is read as one in double precision. -/
theorem isFinite_float? {s : Spelling} {x : Binary64} (h : s.float? = some x) :
    x.isFinite = true := by
  have hm : (Binary64.ofNat s.significand.1).isFinite = true :=
    Binary64.isFinite_ofNat s.significand_lt
  unfold float? at h
  simp only [Option.map_eq_some_iff] at h
  obtain ⟨y, hy, rfl⟩ := h
  refine isFinite_signed s.negative ?_
  split at hy
  · exact isFinite_scale hm hy
  split at hy
  · exact isFinite_scale hm hy
  split at hy
  · cases hy
  · cases hy
    exact Binary64.isFinite_ofNat (by decide)

/-- The number of a spelling is finite. -/
theorem finite_of_number? {s : Spelling} {n : Number} (h : s.number? = some n) : n.Finite := by
  unfold number? at h
  split at h
  · next m _ _ hwhole =>
    have hm : m ≤ significandLimit := by
      have hle := collect_le (Nat.zero_le significandLimit) s.whole
      rwa [hwhole] at hle
    -- Only which way the condition goes matters; it mentions the sign inside of itself.
    rcases dite_eq_iff.1 h with ⟨_, h⟩ | ⟨_, h⟩ <;> cases h
    · trivial
    · exact isFinite_signed s.negative
        (Binary64.isFinite_ofNat (Nat.lt_of_le_of_lt hm (by decide)))
  · obtain ⟨x, hx, rfl⟩ := Option.map_eq_some_iff.1 h
    exact isFinite_float? hx

end Spelling

end Json

end ModelClient
