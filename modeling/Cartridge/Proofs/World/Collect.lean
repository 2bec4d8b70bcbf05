import Cartridge.World.MapTable

/-!
# Collect — entries of a table, one after another

`Map.collect` reads entries until one of them cannot be read.  It gives an array exactly if every
entry can be read, and then that of the entries in their order (`Map.collect_eq_ok_iff`).
-/

namespace Cartridge.Map

variable {ε α : Type} {read : Nat → Except ε α} {count : Nat}

theorem toList_collect_eq_ok_iff {soFar xs : Array α} {i : Nat} :
    collect read soFar i count = .ok xs ↔
      ∃ rest : List α, xs.toList = soFar.toList ++ rest ∧ rest.length = count ∧
        ∀ j (h : j < rest.length), read (i + j) = .ok rest[j] := by
  induction count generalizing soFar i with
  | zero =>
    rw [collect, Except.ok.injEq]
    constructor
    · rintro rfl
      exact ⟨[], by simp, rfl, fun _ h => absurd h (Nat.not_lt_zero _)⟩
    · rintro ⟨rest, hxs, hlength, -⟩
      rw [List.length_eq_zero_iff.mp hlength, List.append_nil] at hxs
      exact Array.toList_inj.mp hxs.symm
  | succ count ih =>
    rw [collect]
    constructor
    · intro h
      cases hread : read i with
      | error e => rw [hread] at h; cases h
      | ok a =>
        rw [hread] at h
        obtain ⟨rest, hxs, hlength, hrest⟩ := ih.mp h
        refine ⟨a :: rest, ?_, by rw [List.length_cons, hlength], fun j hj => ?_⟩
        · rw [hxs, Array.toList_push, List.append_assoc, List.singleton_append]
        · cases j with
          | zero => exact hread
          | succ j =>
            rw [← Nat.add_assoc, Nat.add_right_comm]
            exact hrest j (Nat.lt_of_succ_lt_succ hj)
    · rintro ⟨rest, hxs, hlength, hrest⟩
      cases rest with
      | nil => cases hlength
      | cons a rest =>
        have hread : read i = .ok a := hrest 0 (Nat.succ_pos _)
        rw [hread]
        refine ih.mpr ⟨rest, ?_, Nat.succ.inj hlength, fun j hj => ?_⟩
        · rw [hxs, Array.toList_push, List.append_assoc, List.singleton_append]
        · rw [Nat.add_right_comm]
          exact hrest (j + 1) (Nat.succ_lt_succ hj)

/-- **Entries are collected** if and only if all of them can be read. -/
theorem collect_eq_ok_iff {xs : Array α} :
    collect read #[] 0 count = .ok xs ↔
      xs.size = count ∧ ∀ j (h : j < xs.size), read j = .ok xs[j] := by
  rw [toList_collect_eq_ok_iff]
  constructor
  · rintro ⟨rest, hxs, hlength, hrest⟩
    obtain rfl : xs = rest.toArray := Array.toList_inj.mp (by simpa using hxs)
    refine ⟨by simpa using hlength, fun j hj => ?_⟩
    simpa using hrest j (by simpa using hj)
  · rintro ⟨hsize, hrest⟩
    refine ⟨xs.toList, by simp, by simpa using hsize, fun j hj => ?_⟩
    simpa using hrest j (by simpa using hj)

end Cartridge.Map
