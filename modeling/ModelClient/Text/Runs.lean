/-!
# Runs of code points

A class of characters is given by the first and the last code point of each of its runs, in order.
-/

namespace ModelClient.Text

/-- The first and the last code points of the runs of a class of characters. -/
abbrev Runs := List (Nat × Nat)

/-- Whether a character lies in one of the runs. -/
def Runs.contains (rs : Runs) (c : Char) : Bool :=
  rs.any fun (first, last) => first ≤ c.toNat && c.toNat ≤ last

/-- A character between the ends of a run lies in the runs. -/
theorem Runs.contains_of_mem {rs : Runs} {c : Char} {first last : Nat} (h : (first, last) ∈ rs)
    (hf : first ≤ c.toNat) (hl : c.toNat ≤ last) : rs.contains c = true :=
  List.any_eq_true.2 ⟨(first, last), h, by simp [hf, hl]⟩

end ModelClient.Text
