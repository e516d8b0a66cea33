import Mathlib.Data.List.TakeWhile
import ModelClient.Proofs.Printing

/-!
# Integers are read back

An integer is written with its digits and no leading zero, after a minus if it is negative. This is
a word of the lexer and a spelling without fraction and exponent. All of its digits are collected,
since the integer fits 64 bits, and what they stand for is the integer.

## Main statements

* `Json.Number.legible_of_isSome_toInt?`: an integer is read as the same number.
-/

namespace ModelClient

open Binary

namespace Json

/-! ## Digits -/

/-- A written number consists of digits. -/
theorem isDigit_of_mem_digitsOf {n : Nat} {c : Char} (h : c ∈ digitsOf n) : c.isDigit = true :=
  Nat.isDigit_of_mem_toDigits (by decide) (by decide) h

/-- The digits of a number stand for the number. -/
theorem ofDigitChars_digitsOf (n : Nat) : Nat.ofDigitChars 10 (digitsOf n) 0 = n :=
  Nat.ofDigitChars_ten_toDigits

/-- A written number begins with a digit. -/
theorem exists_digitsOf_eq_cons (n : Nat) : ∃ c cs, digitsOf n = c :: cs ∧ c.isDigit = true := by
  obtain ⟨c, cs, h⟩ := List.exists_cons_of_ne_nil (Nat.toDigits_ne_nil (n := n) (b := 10))
  have hmem : c ∈ digitsOf n := by
    rw [digitsOf, h]
    exact List.mem_cons_self
  exact ⟨c, cs, h, isDigit_of_mem_digitsOf hmem⟩

/-- A zero in front is the only digit. -/
theorem digitsOf_ne_zero_cons (n : Nat) (c : Char) (cs : List Char) :
    digitsOf n ≠ '0' :: c :: cs := by
  induction n using Nat.strongRecOn generalizing c cs with
  | ind n ih =>
    intro heq
    rw [digitsOf, Nat.toDigits_eq_if (by decide)] at heq
    split at heq
    · cases (List.cons.inj heq).2
    · next hten =>
      -- The digits before the last one are those of a smaller number and begin with the same zero.
      change digitsOf (n / 10) ++ _ = _ at heq
      obtain ⟨first, rest, hdigits, -⟩ := exists_digitsOf_eq_cons (n / 10)
      rw [hdigits, List.cons_append] at heq
      obtain ⟨rfl, -⟩ := List.cons.inj heq
      cases rest with
      | nil =>
        have hzero : n / 10 = 0 := by rw [← ofDigitChars_digitsOf (n / 10), hdigits]; rfl
        omega
      | cons d ds => exact ih (n / 10) (by omega) d ds hdigits

namespace Spelling

/-- More digits make a number no smaller. -/
theorem le_ofDigitChars (acc : Nat) (ds : List Char) : acc ≤ Nat.ofDigitChars 10 ds acc := by
  induction ds generalizing acc with
  | nil => exact Nat.le_refl acc
  | cons d ds ih =>
    rw [Nat.ofDigitChars_cons]
    exact Nat.le_trans (by omega) (ih _)

/-- Digits that stand for a number within the limit are all collected. -/
theorem collect_of_le {limit acc : Nat} {ds : List Char}
    (h : Nat.ofDigitChars 10 ds acc ≤ limit) :
    collect limit acc ds = (Nat.ofDigitChars 10 ds acc, []) := by
  induction ds generalizing acc with
  | nil => rfl
  | cons d ds ih =>
    rw [Nat.ofDigitChars_cons] at h ⊢
    have hnext : acc * 10 + digitValue d = 10 * acc + (d.toNat - '0'.toNat) := by
      rw [digitValue]
      omega
    rw [collect, hnext]
    show (if _ then _ else _) = _
    rw [if_pos (Nat.le_trans (le_ofDigitChars _ ds) h), ih h]

/-- The digits of a number are all read. -/
theorem digits?_digitsOf (n : Nat) : digits? (digitsOf n) = some (digitsOf n, []) := by
  have hall : ∀ c ∈ digitsOf n, c.isDigit = true := fun c => isDigit_of_mem_digitsOf
  have htake : (digitsOf n).takeWhile Char.isDigit = digitsOf n := List.takeWhile_eq_self_iff.2 hall
  have hdrop : (digitsOf n).dropWhile Char.isDigit = [] := List.dropWhile_eq_nil_iff.2 hall
  obtain ⟨c, cs, hcons, -⟩ := exists_digitsOf_eq_cons n
  have hempty : (digitsOf n).isEmpty = false := by rw [hcons]; rfl
  unfold digits?
  simp only [htake, hdrop, hempty]
  rfl

/-- A written number has no leading zero, so it is read as a whole number. -/
theorem whole?_digitsOf (n : Nat) : whole? (digitsOf n) = some (digitsOf n, []) := by
  unfold whole?
  rw [digits?_digitsOf]
  split
  · next c cs _ heq =>
    exact absurd (Prod.mk.inj (Option.some.inj heq)).1 (digitsOf_ne_zero_cons n c cs)
  · rfl

/-- A natural number is a spelling without a sign, a fraction and an exponent. -/
theorem ofChars?_digitsOf (n : Nat) :
    ofChars? (digitsOf n) = some ⟨false, digitsOf n, none, none⟩ := by
  unfold ofChars?
  split
  next negative cs heq =>
  split at heq
  · next minus =>
    obtain ⟨c, cs', hcons, hc⟩ := exists_digitsOf_eq_cons n
    rw [hcons] at minus
    cases minus
    cases hc
  · cases heq
    rw [whole?_digitsOf]
    rfl

/-- A negative integer is a spelling with a sign. -/
theorem ofChars?_minus (n : Nat) :
    ofChars? ('-' :: digitsOf n) = some ⟨true, digitsOf n, none, none⟩ := by
  unfold ofChars?
  simp only [whole?_digitsOf]
  rfl

/-- An integer of 64 bits that is no minus zero is the number of its digits. -/
theorem number?_digitsOf {negative : Bool} {m : Nat} {n : Int}
    (hn : n = if negative then -(m : Int) else m) (hzero : negative = true → m ≠ 0)
    (h : -2 ^ 63 ≤ n ∧ n < 2 ^ 64) :
    number? ⟨negative, digitsOf m, none, none⟩ = some (.int n h) := by
  have hlimit : m ≤ significandLimit := by
    have hvalue : significandLimit = 2 ^ 64 - 1 := rfl
    split at hn <;> omega
  have hcollect : collect significandLimit 0 (digitsOf m) = (m, []) := by
    rw [collect_of_le (by rwa [ofDigitChars_digitsOf]), ofDigitChars_digitsOf]
  have hsign : negative = false ∨ m ≠ 0 := by
    cases negative with
    | false => exact .inl rfl
    | true => exact .inr (hzero rfl)
  unfold number?
  simp only [hcollect]
  subst hn
  exact dif_pos ⟨h, hsign⟩

end Spelling

/-! ## The word of an integer -/

/-- No digit ends a word, and a word that begins with a digit or a minus is no literal. -/
theorem not_endsWord_of_isDigit {c : Char} (h : c.isDigit = true) : Lexer.endsWord c = false := by
  have hrange : 48 ≤ c.toNat ∧ c.toNat ≤ 57 := by
    simpa [Char.isDigit, UInt32.le_iff_toNat_le] using h
  have hne (d : Char) (hd : d.toNat < 48 ∨ 57 < d.toNat) : c ≠ d := by
    rintro rfl
    omega
  have hpunctuation : punctuation? c = none := by
    unfold punctuation?
    split <;> first | rfl | exact absurd h (by decide)
  simp [Lexer.endsWord, isSpace, hpunctuation, hne ' ' (by decide), hne '\t' (by decide),
    hne '\n' (by decide), hne '\r' (by decide), hne '"' (by decide)]

/-- A word that is a spelling is read as its number. -/
theorem word?_of_ofChars? {chars : List Char} {s : Spelling}
    (h : Spelling.ofChars? chars = some s) : word? chars = some (.num s.number?) := by
  unfold word?
  split
  · cases h
  · cases h
  · cases h
  · rw [h]
    rfl

namespace Number

/-- The text of an integer and how it is read. -/
theorem exists_ofChars?_write_int (n : Int) (h : -2 ^ 63 ≤ n ∧ n < 2 ^ 64) :
    ∃ s, Spelling.ofChars? (Number.int n h).write = some s ∧ s.number? = some (.int n h) := by
  by_cases hn : n < 0
  · have hvalue : n = if true then -(n.natAbs : Int) else n.natAbs := by
      rw [if_pos rfl]
      omega
    refine ⟨⟨true, digitsOf n.natAbs, none, none⟩, ?_, Spelling.number?_digitsOf hvalue ?_ h⟩
    · rw [write, if_pos hn]
      exact Spelling.ofChars?_minus n.natAbs
    · omega
  · have hvalue : n = if false then -(n.natAbs : Int) else n.natAbs := by
      rw [if_neg Bool.false_ne_true]
      omega
    refine ⟨⟨false, digitsOf n.natAbs, none, none⟩, ?_, Spelling.number?_digitsOf hvalue nofun h⟩
    rw [write, if_neg hn]
    exact Spelling.ofChars?_digitsOf n.natAbs

/-- No character of an integer ends a word. -/
theorem not_endsWord_of_mem_write_int {n : Int} {h : -2 ^ 63 ≤ n ∧ n < 2 ^ 64} {c : Char}
    (hc : c ∈ (Number.int n h).write) : Lexer.endsWord c = false := by
  have hdigits (hmem : c ∈ digitsOf n.natAbs) : Lexer.endsWord c = false :=
    not_endsWord_of_isDigit (isDigit_of_mem_digitsOf hmem)
  rw [write] at hc
  split at hc
  · rcases List.mem_cons.1 hc with rfl | hc
    · decide
    · exact hdigits hc
  · exact hdigits hc

/-- An integer is written in some characters. -/
theorem write_int_ne_nil (n : Int) (h : -2 ^ 63 ≤ n ∧ n < 2 ^ 64) :
    (Number.int n h).write ≠ [] := by
  rw [write]
  split
  · exact List.cons_ne_nil _ _
  · exact Nat.toDigits_ne_nil

/-- An integer is read as the same number. -/
theorem legible_of_isSome_toInt? {n : Number} (h : n.toInt?.isSome) : n.Legible := by
  cases n with
  | float x => cases h
  | int n hrange =>
    obtain ⟨s, hs, hnumber⟩ := exists_ofChars?_write_int n hrange
    exact {
      ne_nil := write_int_ne_nil n hrange
      word := List.any_eq_false.2 fun c hc => by simp [not_endsWord_of_mem_write_int hc]
      read := by rw [word?_of_ofChars? hs, hnumber] }

end Number

/-! ## Values whose numbers are read back -/

mutual

/-- The numbers of a value. -/
def numbers : Json → List Number
  | .null | .bool _ | .str _ => []
  | .num n => [n]
  | .arr items => itemNumbers items
  | .obj fields => fieldNumbers fields

/-- The numbers of an array's items. -/
def itemNumbers : List Json → List Number
  | [] => []
  | item :: rest => item.numbers ++ itemNumbers rest

/-- The numbers of an object's fields. -/
def fieldNumbers : List (String × Json) → List Number
  | [] => []
  | (_, value) :: rest => value.numbers ++ fieldNumbers rest

end

mutual

/-- A value is legible if its numbers are. -/
theorem legible_of_numbers : (v : Json) → (∀ n ∈ v.numbers, n.Legible) → v.Legible
  | .null, _ | .bool _, _ | .str _, _ => by simp [Legible]
  | .num n, h => by
    rw [Legible]
    exact h n List.mem_cons_self
  | .arr items, h => by
    rw [Legible]
    exact areItemsLegible_of_numbers items h
  | .obj fields, h => by
    rw [Legible]
    exact areFieldsLegible_of_numbers fields h

/-- Items are legible if their numbers are. -/
theorem areItemsLegible_of_numbers : (items : List Json) →
    (∀ n ∈ itemNumbers items, n.Legible) → AreItemsLegible items
  | [], _ => by simp [AreItemsLegible]
  | item :: rest, h => by
    obtain ⟨hitem, hrest⟩ := List.forall_mem_append.1 h
    exact ⟨legible_of_numbers item hitem, areItemsLegible_of_numbers rest hrest⟩

/-- Fields are legible if their numbers are. -/
theorem areFieldsLegible_of_numbers : (fields : List (String × Json)) →
    (∀ n ∈ fieldNumbers fields, n.Legible) → AreFieldsLegible fields
  | [], _ => by simp [AreFieldsLegible]
  | (_, value) :: rest, h => by
    obtain ⟨hvalue, hrest⟩ := List.forall_mem_append.1 h
    exact ⟨legible_of_numbers value hvalue, areFieldsLegible_of_numbers rest hrest⟩

end

end Json

end ModelClient
