/-!
# Character.Range — classes of characters as ranges of codes

A class is the list of its ranges, each by its first and its last code.
-/

namespace Cartridge.Character

/-- Whether the code of a character lies in one of some ranges. -/
def inRanges (ranges : List (Nat × Nat)) (c : Char) : Bool :=
  ranges.any fun (first, last) => first ≤ c.toNat && c.toNat ≤ last

theorem inRanges_iff {ranges : List (Nat × Nat)} {c : Char} :
    inRanges ranges c = true ↔ ∃ r ∈ ranges, r.1 ≤ c.toNat ∧ c.toNat ≤ r.2 := by
  simp [inRanges]

/-- Ranges that leave out a stretch of codes hold none of its characters. -/
theorem inRanges_eq_false {ranges : List (Nat × Nat)} {first last : Nat} {c : Char}
    (h : (ranges.all fun r => r.2 < first || last < r.1) = true)
    (hf : first ≤ c.toNat) (hl : c.toNat ≤ last) : inRanges ranges c = false := by
  rw [Bool.eq_false_iff, ne_eq, inRanges_iff]
  rintro ⟨r, hr, h1, h2⟩
  have := List.all_eq_true.mp h r hr
  simp only [Bool.or_eq_true, decide_eq_true_eq] at this
  omega

/-- Whether ranges go upwards, with codes between any two neighbours that are in none of them. -/
def ascending : List (Nat × Nat) → Bool
  | [] => true
  | [r] => r.1 ≤ r.2
  | r :: s :: rest => r.1 ≤ r.2 && r.2 + 1 < s.1 && ascending (s :: rest)

end Cartridge.Character
