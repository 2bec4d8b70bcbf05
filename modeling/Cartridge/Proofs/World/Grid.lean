import Cartridge.World.Map
import Mathlib.Data.List.Range
import Mathlib.Algebra.Order.Group.Nat

/-!
# Grid — the cells of a map by their place

`Map.cells` lists the cells row by row, so a cell stands in the list at the place that `Map.index?`
gives it, and only there (`Map.index?_eq_some_iff`).
-/

namespace Cartridge.Map

variable {m : Map} {c d : Cell} {i : Nat}

/-- A place gives back its column and its row. -/
theorem column_row {width x : Nat} (y : Nat) (h : x < width) :
    (y * width + x) % width = x ∧ (y * width + x) / width = y := by
  constructor
  · rw [Nat.mul_add_mod_self_right, Nat.mod_eq_of_lt h]
  · rw [Nat.mul_comm, Nat.mul_add_div (by omega), Nat.div_eq_of_lt h, Nat.add_zero]

/-- The rows of a grid, one behind the other. -/
theorem rows_eq (width height : Nat) :
    ((List.range height).flatMap fun (y : Nat) =>
      (List.range width).map fun (x : Nat) => (⟨(x : Int), (y : Int)⟩ : Cell)) =
    (List.range (height * width)).map fun i => ⟨(i % width : Nat), (i / width : Nat)⟩ := by
  induction height with
  | zero => simp
  | succ height ih =>
    rw [List.range_succ, List.flatMap_append, ih, Nat.succ_mul, List.range_add, List.map_append,
      List.flatMap_singleton, List.map_map]
    congr 1
    refine List.map_congr_left fun x hx => ?_
    obtain ⟨hcolumn, hrow⟩ := column_row height (List.mem_range.mp hx)
    simp only [Function.comp, hcolumn, hrow]

theorem getElem?_cells : m.cells[i]? = some c ↔
    i < m.height * m.width ∧ c = ⟨(i % m.width : Nat), (i / m.width : Nat)⟩ := by
  rw [cells, rows_eq, List.getElem?_map, Option.map_eq_some_iff]
  constructor
  · rintro ⟨j, hj, rfl⟩
    obtain ⟨hlt, rfl⟩ := List.getElem?_eq_some_iff.mp hj
    rw [List.length_range] at hlt
    rw [List.getElem_range]
    exact ⟨hlt, rfl⟩
  · rintro ⟨hlt, rfl⟩
    exact ⟨i, List.getElem?_range hlt, rfl⟩

/-- **A cell stands at its place** in the row-by-row order, and nowhere else. -/
theorem index?_eq_some_iff : m.index? c = some i ↔ m.cells[i]? = some c := by
  rw [getElem?_cells]
  unfold index?
  constructor
  · intro h
    split at h
    · next hin =>
      obtain ⟨hx, hy, hwidth, hheight⟩ := hin
      obtain ⟨x, hcx⟩ := Int.eq_ofNat_of_zero_le hx
      obtain ⟨y, hcy⟩ := Int.eq_ofNat_of_zero_le hy
      obtain rfl : c = ⟨x, y⟩ := by rw [← hcx, ← hcy]
      have hxlt : x < m.width := Int.ofNat_lt.mp hwidth
      have hylt : y < m.height := Int.ofNat_lt.mp hheight
      obtain rfl : y * m.width + x = i := Option.some.inj h
      obtain ⟨hcolumn, hrow⟩ := column_row y hxlt
      have hrows : (y + 1) * m.width ≤ m.height * m.width := Nat.mul_le_mul_right _ hylt
      rw [Nat.succ_mul] at hrows
      exact ⟨by omega, by rw [hcolumn, hrow]⟩
    · cases h
  · rintro ⟨hlt, rfl⟩
    have hpos : 0 < m.width := Nat.pos_of_mul_pos_left (by omega : 0 < m.height * m.width)
    have hcolumn : i % m.width < m.width := Nat.mod_lt i hpos
    have hrow : i / m.width < m.height := (Nat.div_lt_iff_lt_mul hpos).mpr hlt
    rw [if_pos ⟨Int.natCast_nonneg _, Int.natCast_nonneg _, Int.ofNat_lt.mpr hcolumn,
      Int.ofNat_lt.mpr hrow⟩, Int.toNat_natCast, Int.toNat_natCast, Nat.mul_comm,
      Nat.div_add_mod]

theorem index?_inj (hc : m.index? c = some i) (hd : m.index? d = some i) : c = d := by
  rw [index?_eq_some_iff] at hc hd
  exact Option.some.inj (hc.symm.trans hd)

end Cartridge.Map
