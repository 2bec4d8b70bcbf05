import Cartridge.Walk.Cost
import Mathlib.Algebra.Order.Group.Nat
import Mathlib.Order.WithBot

/-!
# Cost — going on never makes a way cheaper

A rounded number has at most 24 significant bits, and no such number lies between another number and
its rounding.  So a sum is not less than the cost that is added to, although it is rounded
(`Cost.value_le_add`).
-/

namespace Cartridge.Cost

/-! ## Rounding -/

/-- The number has at most 24 significant bits. -/
def Fits (n : Nat) : Prop :=
  ∃ m e, m < 2 ^ 24 ∧ n = m * 2 ^ e

/-- Rounding leaves out the bits behind the first 24 and may count one up. -/
theorem exists_roundUnits_eq (n : Nat) :
    ∃ kept, roundUnits n = kept * 2 ^ (n.log2 + 1 - 24) ∧
      n / 2 ^ (n.log2 + 1 - 24) ≤ kept ∧ kept ≤ n / 2 ^ (n.log2 + 1 - 24) + 1 := by
  simp only [roundUnits, Nat.shiftLeft_eq, Nat.shiftRight_eq_div_pow]
  split
  · exact ⟨_, rfl, Nat.le_succ _, Nat.le_refl _⟩
  · exact ⟨_, rfl, Nat.le_refl _, Nat.le_succ _⟩

theorem fits_roundUnits (n : Nat) : Fits (roundUnits n) := by
  obtain ⟨kept, hround, -, hmost⟩ := exists_roundUnits_eq n
  generalize hs : n.log2 + 1 - 24 = s at hround hmost
  have hbits : n < 2 ^ 24 * 2 ^ s := by
    have hlog : n < 2 ^ (n.log2 + 1) := Nat.lt_log2_self
    have hpow : 2 ^ (n.log2 + 1) ≤ 2 ^ (24 + s) := Nat.pow_le_pow_right (by omega) (by omega)
    rw [← Nat.pow_add]
    omega
  have hkept : n / 2 ^ s < 2 ^ 24 := (Nat.div_lt_iff_lt_mul (Nat.two_pow_pos s)).mpr hbits
  by_cases hcarry : kept < 2 ^ 24
  · exact ⟨kept, s, hcarry, hround⟩
  · have hfull : kept = 2 ^ 24 := by omega
    refine ⟨1, 24 + s, by omega, ?_⟩
    rw [hround, hfull, Nat.one_mul, Nat.pow_add]

/-- Nothing that fits in 24 bits is passed by rounding down. -/
theorem le_roundUnits {a n : Nat} (ha : Fits a) (h : a ≤ n) : a ≤ roundUnits n := by
  obtain ⟨m, e, hm, rfl⟩ := ha
  obtain ⟨kept, hround, hleast, -⟩ := exists_roundUnits_eq n
  generalize hs : n.log2 + 1 - 24 = s at hround hleast
  rw [hround]
  by_cases hfine : s ≤ e
  · -- All bits of `a` are among those that are kept.
    have hsplit : m * 2 ^ e = m * 2 ^ (e - s) * 2 ^ s := by
      rw [Nat.mul_assoc, ← Nat.pow_add, Nat.sub_add_cancel hfine]
    have hdiv : m * 2 ^ (e - s) ≤ n / 2 ^ s :=
      (Nat.le_div_iff_mul_le (Nat.two_pow_pos s)).mpr (hsplit ▸ h)
    rw [hsplit]
    exact Nat.mul_le_mul_right _ (hdiv.trans hleast)
  · -- `a` lies below the first bit of `n`.
    have hn : n ≠ 0 := by
      rintro rfl
      simp at hs
      omega
    have hfirst : 2 ^ 23 ≤ n / 2 ^ s := by
      refine (Nat.le_div_iff_mul_le (Nat.two_pow_pos s)).mpr ?_
      have hlog : 2 ^ n.log2 ≤ n := Nat.log2_self_le hn
      rw [← Nat.pow_add]
      exact (Nat.pow_le_pow_right (by omega) (by omega)).trans hlog
    calc m * 2 ^ e ≤ 2 ^ 24 * 2 ^ e := Nat.mul_le_mul_right _ hm.le
      _ = 2 ^ (24 + e) := (Nat.pow_add _ _ _).symm
      _ ≤ 2 ^ (23 + s) := Nat.pow_le_pow_right (by omega) (by omega)
      _ = 2 ^ 23 * 2 ^ s := Nat.pow_add _ _ _
      _ ≤ kept * 2 ^ s := Nat.mul_le_mul_right _ (hfirst.trans hleast)

/-! ## Costs -/

/-- The cost as a number of units, the infinite one above all others. -/
def value : Cost → WithTop Nat
  | finite n => WithTop.some n
  | infinite => ⊤

theorem value_inj {a b : Cost} : a.value = b.value ↔ a = b := by
  cases a <;> cases b <;> simp [value]

/-- The cost is infinite or fits in 24 bits. -/
def IsRounded : Cost → Prop
  | finite n => Fits n
  | infinite => True

theorem value_zero_le (a : Cost) : zero.value ≤ a.value := by
  cases a with
  | finite n => exact WithTop.coe_le_coe.mpr (Nat.zero_le n)
  | infinite => exact le_top

theorem isRounded_zero : zero.IsRounded :=
  ⟨0, 0, by omega, rfl⟩

theorem less_iff {a b : Cost} : a.less b = true ↔ a.value < b.value := by
  cases a <;> cases b <;> simp [less, value]

theorem isRounded_add (a b : Cost) : (a.add b).IsRounded := by
  cases a <;> cases b <;> try exact trivial
  next a b =>
    simp only [add, ofUnits]
    split
    · exact fits_roundUnits (a + b)
    · exact trivial

/-- **A sum is not less than what is added to.** -/
theorem value_le_add {a : Cost} (ha : a.IsRounded) (b : Cost) : a.value ≤ (a.add b).value := by
  cases a <;> cases b <;> try exact le_top
  next a b =>
    simp only [add, ofUnits]
    split
    · have hround : a ≤ roundUnits (a + b) := le_roundUnits ha (Nat.le_add_right a b)
      exact WithTop.coe_le_coe.mpr hround
    · exact le_top

end Cartridge.Cost
