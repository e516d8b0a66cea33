import ModelClient.Proofs.Numerals
import ModelClient.Timestamp

/-!
# Points in time are read back

A point in time is written with numbers of a fixed length and marks between them. A reader of a
number takes digits as long as there are any and the length allows it, so it takes those that were
written and leaves the mark after them (`Timestamp.number?_of_takeWhile`). The written form is in
UTC, which moves nothing.

## Main statements

* `Timestamp.read?_render`: a written point in time is read back.
-/

namespace ModelClient

open Binary Json

namespace Timestamp

/-! ## Numbers -/

/-- The number of some digits is that of the core library. -/
theorem numberOf_eq (ds : List Char) : numberOf ds = Nat.ofDigitChars 10 ds 0 := by
  rw [numberOf, Nat.ofDigitChars]
  simp only [Nat.mul_comm 10]

/-- Leading noughts make no difference. -/
theorem ofDigitChars_replicate_zero (n : Nat) :
    Nat.ofDigitChars 10 (List.replicate n '0') 0 = 0 := by
  induction n with
  | zero => rfl
  | succ n ih =>
    rw [List.replicate_succ, Nat.ofDigitChars_cons]
    exact ih

/-- A number with leading noughts is read as the number. -/
theorem numberOf_padded (width n : Nat) : numberOf (padded width n) = n := by
  rw [numberOf_eq, padded, Nat.ofDigitChars_append, ofDigitChars_replicate_zero]
  exact ofDigitChars_digitsOf n

/-- A number with leading noughts consists of digits. -/
theorem isDigit_of_mem_padded {width n : Nat} {c : Char} (h : c ∈ padded width n) :
    c.isDigit = true := by
  rcases List.mem_append.1 h with h | h
  · rw [List.eq_of_mem_replicate h]
    rfl
  · exact isDigit_of_mem_digitsOf h

/-- A number with leading noughts is not empty. -/
theorem padded_ne_nil (width n : Nat) : padded width n ≠ [] := by
  obtain ⟨c, cs, h, -⟩ := exists_digitsOf_eq_cons n
  rw [padded, h]
  exact List.append_ne_nil_of_right_ne_nil _ (List.cons_ne_nil c cs)

/-- A number that fits into the width has the width. -/
theorem length_padded {width n : Nat} (hwidth : 0 < width) (h : n < 10 ^ width) :
    (padded width n).length = width := by
  have hle : (digitsOf n).length ≤ width := (Nat.length_toDigits_le_iff (by decide) hwidth).2 h
  rw [padded, List.length_append, List.length_replicate]
  omega

/-- No digit is taken where there is none. -/
theorem takeWhile_take_of_not_isDigit {c : Char} (h : c.isDigit = false) (n : Nat)
    (cs : List Char) : ((c :: cs).take n).takeWhile Char.isDigit = [] := by
  cases n with
  | zero => rfl
  | succ n => rw [List.take_succ_cons, List.takeWhile_cons_of_neg (by simp [h])]

/-- The digits in front are the number if they are as many as there may be, or if what follows is no
digit. -/
theorem number?_of_takeWhile {width : Nat} {ds rest : List Char} (hne : ds ≠ [])
    (hdigits : ∀ c ∈ ds, c.isDigit = true) (hlength : ds.length ≤ width)
    (hrest : (rest.take (width - ds.length)).takeWhile Char.isDigit = []) :
    number? width (ds ++ rest) = some (numberOf ds, rest) := by
  have htaken : ((ds ++ rest).take width).takeWhile Char.isDigit = ds := by
    rw [List.take_append, List.take_of_length_le hlength, List.takeWhile_append_of_pos hdigits,
      hrest, List.append_nil]
  have hempty : ds.isEmpty = false := List.isEmpty_eq_false_iff.2 hne
  unfold number?
  simp only [htaken, hempty, List.drop_left]
  rfl

/-- A number of a fixed length is read back, whatever follows it. -/
theorem number?_padded {width n : Nat} (hwidth : 0 < width) (h : n < 10 ^ width)
    (rest : List Char) : number? width (padded width n ++ rest) = some (n, rest) := by
  have hlength := length_padded hwidth h
  have hrest : (rest.take (width - (padded width n).length)).takeWhile Char.isDigit = [] := by
    rw [hlength, Nat.sub_self, List.take_zero, List.takeWhile_nil]
  rw [number?_of_takeWhile (padded_ne_nil width n) (fun _ => isDigit_of_mem_padded)
    (Nat.le_of_eq hlength) hrest, numberOf_padded]

/-- A number is read up to what is no digit. -/
theorem number?_padded_cons {width limit n : Nat} (h : (padded width n).length ≤ limit) {c : Char}
    (hc : c.isDigit = false) (rest : List Char) :
    number? limit (padded width n ++ c :: rest) = some (n, c :: rest) := by
  rw [number?_of_takeWhile (padded_ne_nil width n) (fun _ => isDigit_of_mem_padded) h
    (takeWhile_take_of_not_isDigit hc _ rest), numberOf_padded]

/-! ## Blanks -/

/-- A digit is not blank. -/
theorem not_isBlankChar_of_isDigit {c : Char} (h : c.isDigit = true) :
    Text.isBlankChar c = false := by
  simp only [Char.isDigit, Bool.and_eq_true, decide_eq_true_eq, ge_iff_le,
    UInt32.le_iff_toNat_le] at h
  have hlow : 48 ≤ c.toNat := h.1
  have hhigh : c.toNat ≤ 57 := h.2
  simp only [Text.isBlankChar, Bool.or_eq_false_iff, Bool.and_eq_false_iff, decide_eq_false_iff_not,
    beq_eq_false_iff_ne]
  omega

/-- There is nothing to skip before a character that is not blank. -/
theorem skipBlanks_cons {c : Char} (h : Text.isBlankChar c = false) (cs : List Char) :
    skipBlanks (c :: cs) = c :: cs := by
  rw [skipBlanks, List.dropWhile_cons_of_neg (by simp [h])]

/-- There is nothing to skip before a number. -/
theorem skipBlanks_padded (width n : Nat) (rest : List Char) :
    skipBlanks (padded width n ++ rest) = padded width n ++ rest := by
  obtain ⟨c, cs, h⟩ := List.exists_cons_of_ne_nil (padded_ne_nil width n)
  have hdigit : c.isDigit = true := isDigit_of_mem_padded (h ▸ List.mem_cons_self)
  rw [h]
  exact skipBlanks_cons (not_isBlankChar_of_isDigit hdigit) _

/-! ## Parts -/

/-- A number of two digits is read. -/
theorem short?_padded {n : Nat} (h : n < 100) (rest : List Char) :
    short? (padded 2 n ++ rest) = some (n, rest) := by
  rw [short?, skipBlanks_padded]
  exact number?_padded (by decide) h rest

/-- A mark is read. -/
theorem mark?_cons {c : Char} (h : Text.isBlankChar c = false) (rest : List Char) :
    mark? c (c :: rest) = some rest := by
  rw [mark?, skipBlanks_cons h]
  exact if_pos rfl

/-- A year without a sign has four digits. -/
theorem year?_padded {n : Nat} (h : n < 10 ^ 4) (rest : List Char) :
    year? (padded 4 n ++ rest) = some ((n : Int), rest) := by
  obtain ⟨c, cs, hpadded⟩ := List.exists_cons_of_ne_nil (padded_ne_nil 4 n)
  have hdigit : c.isDigit = true := isDigit_of_mem_padded (hpadded ▸ List.mem_cons_self)
  unfold year?
  rw [skipBlanks_padded]
  split
  case h_3 =>
    rw [number?_padded (by decide) h]
    rfl
  -- A digit is no sign.
  all_goals
    next heq =>
      rw [hpadded] at heq
      cases heq
      cases hdigit

/-- A year with a sign goes up to what is no digit. -/
theorem year?_writeYear (year : Int) (rest : List Char) :
    year? (writeYear year ++ '-' :: rest) = some (year, '-' :: rest) := by
  have hnumber : number? (padded 4 year.natAbs ++ '-' :: rest).length
      (padded 4 year.natAbs ++ '-' :: rest) = some (year.natAbs, '-' :: rest) :=
    number?_padded_cons (by simp) (by decide) rest
  unfold writeYear
  split
  · rw [year?_padded (by omega), Int.toNat_of_nonneg (by omega)]
  split
  · have hyear : -(year.natAbs : Int) = year := by omega
    rw [year?, List.cons_append, skipBlanks_cons (by decide)]
    simp only [hnumber, Option.map_some, hyear]
  · have hyear : (year.natAbs : Int) = year := by omega
    rw [year?, List.cons_append, skipBlanks_cons (by decide)]
    simp only [hnumber, Option.map_some, hyear]

/-- So many digits count for the first of the nine. -/
theorem fraction?_padded {width n : Nat} (hwidth : 0 < width) (hle : width ≤ 9)
    (h : n < 10 ^ width) :
    fraction? ('.' :: padded width n ++ ['Z']) = some (n * 10 ^ (9 - width), ['Z']) := by
  have hlength := length_padded hwidth h
  have hnumber : number? 9 (padded width n ++ ['Z']) = some (n, ['Z']) :=
    number?_padded_cons (by rwa [hlength]) (by decide) []
  rw [List.cons_append, fraction?, hnumber]
  simp [hlength]

/-- A written fraction of a second is read up to the mark after it. -/
theorem fraction?_writeFraction {n : Nat} (h : n < 10 ^ 9) :
    fraction? (writeFraction n ++ ['Z']) = some (n, ['Z']) := by
  unfold writeFraction
  split
  · next hzero =>
    rw [hzero]
    rfl
  split
  · rw [fraction?_padded (by decide) (by decide) (by omega)]
    congr 2
    omega
  split
  · rw [fraction?_padded (by decide) (by decide) (by omega)]
    congr 2
    omega
  · rw [fraction?_padded (by decide) (by decide) h, Nat.sub_self, Nat.pow_zero, Nat.mul_one]

/-- No month has more than 31 days. -/
theorem daysInMonth_le (year : Int) (month : Nat) : Civil.daysInMonth year month ≤ 31 := by
  unfold Civil.daysInMonth
  split
  · split <;> decide
  · split <;> decide

/-- A written point in time is read back. -/
theorem read?_render (t : Timestamp) : read? t.render = some t := by
  obtain ⟨⟨year, month, day, hour, minute, second, nanosecond⟩, hvalid⟩ := t
  have hbounds := hvalid
  simp only [Civil.isValid, Bool.and_eq_true, decide_eq_true_eq] at hbounds
  obtain ⟨⟨⟨⟨⟨⟨⟨-, hmonth⟩, -⟩, hday⟩, hhour⟩, hminute⟩, hsecond⟩, hnanosecond⟩ := hbounds
  have hdays := daysInMonth_le year month
  have htext : (render ⟨⟨year, month, day, hour, minute, second, nanosecond⟩, hvalid⟩).toList =
      writeYear year ++ '-' :: (padded 2 month ++ '-' :: (padded 2 day ++ 'T' :: (padded 2 hour ++
        ':' :: (padded 2 minute ++ ':' :: (padded 2 second ++
          (writeFraction nanosecond ++ ['Z'])))))) := by
    rw [render, String.toList_ofList]
    simp only [List.append_assoc, List.cons_append]
  have hblank : skipBlanks ['Z'] = ['Z'] := skipBlanks_cons (by decide) []
  have hoffset : offset? (skipBlanks ['Z']) = some (0, []) := by rw [hblank]; decide
  have hcivil : ofCivil? ⟨year, month, day, hour, minute, second, nanosecond⟩ = some ⟨_, hvalid⟩ :=
    dif_pos hvalid
  unfold read?
  rw [htext]
  refine Option.bind_eq_some_iff.2 ⟨_, year?_writeYear year _, ?_⟩
  refine Option.bind_eq_some_iff.2 ⟨_, mark?_cons (by decide) _, ?_⟩
  refine Option.bind_eq_some_iff.2 ⟨_, short?_padded (show month < 100 by omega) _, ?_⟩
  refine Option.bind_eq_some_iff.2 ⟨_, mark?_cons (by decide) _, ?_⟩
  refine Option.bind_eq_some_iff.2 ⟨_, short?_padded (show day < 100 by omega) _, ?_⟩
  refine Option.bind_eq_some_iff.2 ⟨_, rfl, ?_⟩
  refine Option.bind_eq_some_iff.2 ⟨_, short?_padded (show hour < 100 by omega) _, ?_⟩
  refine Option.bind_eq_some_iff.2 ⟨_, mark?_cons (by decide) _, ?_⟩
  refine Option.bind_eq_some_iff.2 ⟨_, short?_padded (show minute < 100 by omega) _, ?_⟩
  refine Option.bind_eq_some_iff.2 ⟨_, mark?_cons (by decide) _, ?_⟩
  refine Option.bind_eq_some_iff.2 ⟨_, short?_padded (show second < 100 by omega) _, ?_⟩
  refine Option.bind_eq_some_iff.2 ⟨_, fraction?_writeFraction hnanosecond, ?_⟩
  refine Option.bind_eq_some_iff.2 ⟨_, hoffset, ?_⟩
  refine Option.bind_eq_some_iff.2 ⟨_, hcivil, ?_⟩
  -- Without an offset nothing is moved.
  exact (if_pos ⟨rfl, by decide⟩).trans hcivil

end Timestamp

end ModelClient
