import Cartridge.Proofs.Walk.Cost
import Mathlib.Algebra.Order.Monoid.WithTop

/-!
# Whole — whole costs below `2 ^ 24`

Rounding leaves a number alone that fits in 24 significant bits (`roundUnits_of_fits`).  So whole
costs are added without rounding while the sum stays below `2 ^ 24` (`Cost.add_whole`), and a number
of steps below it is counted exactly (`Cost.ofNat_eq_whole`).
-/

namespace Cartridge.Cost

/-- A number that fits in 24 bits is its own rounding. -/
theorem roundUnits_of_fits {n : Nat} (h : Fits n) : roundUnits n = n := by
  obtain ⟨m, e, hm, rfl⟩ := h
  generalize hs : (m * 2 ^ e).log2 + 1 - 24 = s
  have hdvd : 2 ^ s ∣ m * 2 ^ e := by
    by_cases hzero : s = 0
    · rw [hzero, Nat.pow_zero]
      exact Nat.one_dvd _
    · -- The first of more than 24 bits stands high, so the last ones come from the exponent.
      have hne : m * 2 ^ e ≠ 0 := by
        intro h0
        rw [h0] at hs
        simp at hs
        omega
      have hlow : 2 ^ (23 + s) ≤ m * 2 ^ e := by
        have hlog := Nat.log2_self_le hne
        have hexp : 23 + s = (m * 2 ^ e).log2 := by omega
        rwa [hexp]
      have hhigh : m * 2 ^ e < 2 ^ (24 + e) := by
        rw [Nat.pow_add]
        exact Nat.mul_lt_mul_of_pos_right hm (Nat.two_pow_pos e)
      have hlt : 23 + s < 24 + e :=
        (Nat.pow_lt_pow_iff_right (by omega)).mp (hlow.trans_lt hhigh)
      exact Nat.dvd_trans (Nat.pow_dvd_pow 2 (by omega)) (Nat.dvd_mul_left _ _)
  have hpos : 0 < 2 ^ s := Nat.two_pow_pos s
  have hkept : m * 2 ^ e / 2 ^ s * 2 ^ s = m * 2 ^ e := Nat.div_mul_cancel hdvd
  simp only [roundUnits, Nat.shiftLeft_eq, Nat.shiftRight_eq_div_pow, hs, hkept, Nat.sub_self,
    Nat.mul_zero]
  rw [if_neg (by omega), hkept]

/-! ## Whole costs -/

/-- The cost of exactly `n`. -/
def whole (n : Nat) : Cost :=
  finite (n <<< 149)

theorem value_whole (n : Nat) : (whole n).value = WithTop.some (n * 2 ^ 149) := by
  rw [whole, value, Nat.shiftLeft_eq]

theorem value_whole_le_iff {a b : Nat} : (whole a).value ≤ (whole b).value ↔ a ≤ b := by
  rw [value_whole, value_whole]
  exact WithTop.coe_le_coe.trans (Nat.mul_le_mul_right_iff (Nat.two_pow_pos 149))

theorem value_whole_lt_iff {a b : Nat} : (whole a).value < (whole b).value ↔ a < b := by
  rw [← not_le, value_whole_le_iff, not_le]

theorem whole_inj {a b : Nat} : whole a = whole b ↔ a = b := by
  rw [← value_inj, le_antisymm_iff, value_whole_le_iff, value_whole_le_iff, ← le_antisymm_iff]

theorem whole_zero : whole 0 = zero := rfl

theorem fits_shift {n : Nat} (h : n ≤ 2 ^ 24) : Fits (n <<< 149) := by
  rw [Nat.shiftLeft_eq]
  rcases h.lt_or_eq with hlt | rfl
  · exact ⟨n, 149, hlt, rfl⟩
  · exact ⟨1, 24 + 149, by omega, by rw [Nat.one_mul, Nat.pow_add]⟩

theorem ofUnits_shift {n : Nat} (h : n < 2 ^ 24) : ofUnits (n <<< 149) = whole n := by
  have hfinite : n <<< 149 ≤ largest := by
    have hbits : n ≤ 0xFFFFFF := by omega
    rw [largest, Nat.shiftLeft_eq, Nat.shiftLeft_eq]
    exact Nat.mul_le_mul hbits (Nat.pow_le_pow_right (by omega) (by omega))
  rw [ofUnits, roundUnits_of_fits (fits_shift h.le)]
  exact if_pos hfinite

theorem ofNat_eq_whole {n : Nat} (h : n < 2 ^ 24) : ofNat n = whole n :=
  ofUnits_shift h

/-! ## Exact sums -/

/-- The sum of two costs is below `2 ^ 24` before it is rounded. -/
def Below (a b : Cost) : Prop :=
  a.value + b.value < (whole (2 ^ 24)).value

theorem below_whole_iff {a b : Nat} : Below (whole a) (whole b) ↔ a + b < 2 ^ 24 := by
  have hsum : (whole a).value + (whole b).value = (whole (a + b)).value := by
    rw [value_whole, value_whole, value_whole, Nat.add_mul]
    rfl
  rw [Below, hsum, value_whole_lt_iff]

/-- **Whole costs are added exactly** below `2 ^ 24`. -/
theorem add_whole {a b : Nat} (h : Below (whole a) (whole b)) :
    (whole a).add (whole b) = whole (a + b) := by
  have hlt : a + b < 2 ^ 24 := below_whole_iff.mp h
  rw [← ofUnits_shift hlt, Nat.shiftLeft_eq, Nat.add_mul, whole, whole, add, Nat.shiftLeft_eq,
    Nat.shiftLeft_eq]

/-- A number of steps that can be added below `2 ^ 24` is itself below it. -/
theorem lt_of_below_ofNat {a : Cost} {n : Nat} (h : Below a (ofNat n)) : n < 2 ^ 24 := by
  by_contra hlarge
  have hshift : (2 ^ 24) <<< 149 ≤ n <<< 149 := by
    rw [Nat.shiftLeft_eq, Nat.shiftLeft_eq]
    exact Nat.mul_le_mul_right _ (not_lt.mp hlarge)
  have hround : (2 ^ 24) <<< 149 ≤ roundUnits (n <<< 149) :=
    le_roundUnits (fits_shift le_rfl) hshift
  have hvalue : (whole (2 ^ 24)).value ≤ (ofNat n).value := by
    rw [ofNat, ofUnits]
    split
    · exact WithTop.coe_le_coe.mpr hround
    · exact le_top
  have hsum : (ofNat n).value ≤ a.value + (ofNat n).value := le_add_self
  exact absurd h (not_lt.mpr (hvalue.trans hsum))

end Cartridge.Cost
