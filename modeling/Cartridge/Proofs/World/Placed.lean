import Cartridge.Proofs.World.BankTable
import Mathlib.Algebra.Order.Group.Nat

/-!
# Placed — maps under their own ids

A map that is placed is found under its id, and the gaps before it are filled with empty maps
(`World.map?_place`).  So the world of some maps has under an id the last map with it, an empty map
in front of others of the bank, or nothing (`World.map?_ofMaps`), and no world, placed or decoded,
has a map under another id than its own (`World.map?_keyed`).
-/

namespace Cartridge.World

variable {w : World} {m : Memory} {layout : Layout} {x y : Map} {id : MapId}

/-- Every map is found under its own id, and so under no other. -/
def Keyed (w : World) : Prop :=
  ∀ id x, w.map? id = some x → x.id = id

/-! ## Placing one map -/

theorem getElem?_growTo {α : Type} (xs : Array α) (size : Nat) (fill : Nat → α) (i : Nat) :
    (growTo xs size fill)[i]? = xs[i]?.or (if i < size then some (fill i) else none) := by
  rw [growTo, Array.getElem?_append, Array.getElem?_ofFn]
  split
  · next hin => rw [Array.getElem?_eq_getElem hin, Option.some_or]
  · next hout =>
    rw [Array.getElem?_eq_none (Nat.le_of_not_lt hout), Option.none_or]
    split
    · next hgap => rw [if_pos (by omega), Nat.add_sub_cancel' (by omega)]
    · next hbehind => rw [if_neg (by omega)]

/-- A bank that is not there has no maps. -/
theorem map?_eq (w : World) (id : MapId) :
    w.map? id = (w.banks[id.bank.toNat]?.getD #[])[id.map.toNat]? := by
  unfold map?
  cases w.banks[id.bank.toNat]? <;> rfl

theorem lt_size_growTo {α : Type} (xs : Array α) (n : Nat) (fill : Nat → α) :
    n < (growTo xs (n + 1) fill).size := by
  rw [growTo, Array.size_append, Array.size_ofFn]
  omega

theorem banks_place (w : World) (x : Map) (b : Nat) :
    (w.place x).banks[b]?.getD #[] =
      if x.id.bank.toNat = b then
        (growTo (w.banks[b]?.getD #[]) (x.id.map.toNat + 1) fun n =>
          placeholder ⟨x.id.bank, n.toUInt8⟩).setIfInBounds x.id.map.toNat x
      else w.banks[b]?.getD #[] := by
  have hgrown (b : Nat) : (growTo w.banks (x.id.bank.toNat + 1) fun _ => #[])[b]?.getD #[] =
      w.banks[b]?.getD #[] := by
    rw [getElem?_growTo]
    cases w.banks[b]? with
    | some bank => rfl
    | none => rw [Option.none_or]; split <;> rfl
  rw [place, hgrown, Array.getElem?_setIfInBounds]
  split
  · next hsame =>
    rw [if_pos (lt_size_growTo _ _ _), hsame]
    rfl
  · exact hgrown b

/-- **A placed map** is under its id, empty maps are in the gaps before it, and all else is as it
was. -/
theorem map?_place (w : World) (x : Map) (id : MapId) :
    (w.place x).map? id =
      if id = x.id then some x
      else if id.bank = x.id.bank ∧ id.map < x.id.map then (w.map? id).or (some (placeholder id))
      else w.map? id := by
  obtain ⟨bank, map⟩ := id
  rw [map?_eq (w.place x), map?_eq w, banks_place]
  by_cases hbank : x.id.bank = bank
  · subst hbank
    rw [if_pos rfl, Array.getElem?_setIfInBounds]
    by_cases hmap : x.id.map = map
    · subst hmap
      rw [if_pos rfl, if_pos (lt_size_growTo _ _ _), if_pos rfl]
    · have hne : x.id.map.toNat ≠ map.toNat := fun h => hmap (UInt8.toNat_inj.mp h)
      have hother : (⟨x.id.bank, map⟩ : MapId) ≠ x.id := fun h => hmap (congrArg MapId.map h).symm
      rw [if_neg hne, if_neg hother, getElem?_growTo]
      by_cases hlt : map < x.id.map
      · have hlt' := UInt8.lt_iff_toNat_lt.mp hlt
        rw [if_pos (Nat.lt_succ_of_lt hlt'), if_pos ⟨rfl, hlt⟩, Nat.toUInt8_eq, UInt8.ofNat_toNat]
      · have hge := UInt8.le_iff_toNat_le.mp (UInt8.not_lt.mp hlt)
        rw [if_neg (by dsimp only; omega), if_neg fun h => hlt h.2, Option.or_none]
  · have hne : x.id.bank.toNat ≠ bank.toNat := fun h => hbank (UInt8.toNat_inj.mp h)
    rw [if_neg hne, if_neg fun h => hbank (congrArg MapId.bank h).symm,
      if_neg fun h => hbank h.1.symm]

/-! ## Placing a list of maps -/

/-- A later map with an id is met first from the end. -/
theorem ofMaps_concat (maps : List Map) (x : Map) :
    ofMaps (maps ++ [x]) = (ofMaps maps).place x :=
  List.foldl_concat _ _ _ _

/-- **The world of some maps** has under an id the last map with it, an empty map in front of others
of the bank, or nothing. -/
theorem map?_ofMaps (maps : List Map) (id : MapId) :
    (ofMaps maps).map? id = (maps.filter (·.id = id)).getLast?.or
      (if ∃ y ∈ maps, y.id.bank = id.bank ∧ id.map < y.id.map then some (Map.ofTiles id 0 0 #[])
        else none) := by
  induction maps using List.reverseRecOn with
  | nil => simp [ofMaps, empty, map?]
  | append_singleton maps x ih =>
    rw [ofMaps_concat, map?_place, ih, List.filter_append]
    by_cases hid : id = x.id
    · rw [if_pos hid, List.filter_singleton, decide_eq_true hid.symm]
      simp
    · rw [if_neg hid, List.filter_singleton, decide_eq_false (Ne.symm hid)]
      have hexists : (∃ y ∈ maps ++ [x], y.id.bank = id.bank ∧ id.map < y.id.map) ↔
          (∃ y ∈ maps, y.id.bank = id.bank ∧ id.map < y.id.map) ∨
            (id.bank = x.id.bank ∧ id.map < x.id.map) := by
        simp only [List.mem_append, List.mem_singleton, or_and_right, exists_or, exists_eq_left,
          eq_comm (a := id.bank)]
      simp only [hexists, List.append_nil, Bool.cond_false]
      by_cases hgap : id.bank = x.id.bank ∧ id.map < x.id.map
      · rw [if_pos hgap, if_pos (Or.inr hgap), Option.or_assoc]
        congr 1
        split <;> rfl
      · rw [if_neg hgap]
        simp only [hgap, or_false]

theorem keyed_ofMaps (maps : List Map) : (ofMaps maps).Keyed := by
  intro id x hx
  rw [map?_ofMaps, Option.or_eq_some_iff] at hx
  rcases hx with hlast | ⟨-, hgap⟩
  · exact of_decide_eq_true (List.mem_filter.mp (List.mem_of_getLast? hlast)).2
  · split at hgap
    · cases hgap
      rfl
    · cases hgap

/-! ## Own ids -/

theorem keyed_of_decode (h : decode m layout = .ok w) : w.Keyed := by
  intro id x hx
  obtain ⟨maps, hb, hn⟩ := Option.bind_eq_some_iff.mp hx
  rw [id_of_listed h hb hn, Nat.toUInt8_eq, Nat.toUInt8_eq, UInt8.ofNat_toNat, UInt8.ofNat_toNat]

/-- **Maps are found under their own ids.**  The world of some maps has under an id the last map with
it, an empty map in front of others of the bank, or nothing; a decoded world has under an id a map
with that id; and so in neither of them do two ids share a map. -/
theorem map?_keyed :
    (∀ (maps : List Map) (id : MapId), (ofMaps maps).map? id =
      (maps.filter (·.id = id)).getLast?.or
        (if ∃ y ∈ maps, y.id.bank = id.bank ∧ id.map < y.id.map then some (Map.ofTiles id 0 0 #[])
          else none)) ∧
    (∀ (m : Memory) (layout : Layout) (w : World), decode m layout = .ok w →
      ∀ id x, w.map? id = some x → x.id = id) ∧
    ∀ w : World, (∃ maps, w = ofMaps maps) ∨ (∃ m layout, decode m layout = .ok w) →
      ∀ i j x y, w.map? i = some x → w.map? j = some y → x.id = y.id → i = j ∧ x = y := by
  refine ⟨map?_ofMaps, fun m layout w h => keyed_of_decode h, ?_⟩
  intro w hw i j x y hx hy hsame
  have hkeyed : w.Keyed := by
    rcases hw with ⟨maps, rfl⟩ | ⟨m, layout, h⟩
    · exact keyed_ofMaps maps
    · exact keyed_of_decode h
  obtain rfl : i = j := by rw [← hkeyed i x hx, ← hkeyed j y hy, hsame]
  exact ⟨rfl, Option.some.inj (hx.symm.trans hy)⟩

theorem map?_keyed_hamlet :
    ∃ w x, decode hamlet hamletLayout = .ok w ∧ w.map? ⟨0, 1⟩ = some x ∧ x.id = ⟨0, 1⟩ ∧
      (ofMaps [x]).map? ⟨0, 1⟩ = some x ∧
      (ofMaps [x]).map? ⟨0, 0⟩ = some (Map.ofTiles ⟨0, 0⟩ 0 0 #[]) := by
  obtain ⟨w, x, hw, hx⟩ := exists_decode_hamlet
  obtain ⟨hplaced, hdecoded, -⟩ := map?_keyed
  have hid : x.id = ⟨0, 1⟩ := hdecoded _ _ w hw _ x hx
  refine ⟨w, x, hw, hx, hid, ?_, ?_⟩
  · rw [hplaced, List.filter_singleton, decide_eq_true hid]
    rfl
  · rw [hplaced, List.filter_singleton, decide_eq_false (by rw [hid]; decide), if_pos]
    · rfl
    · exact ⟨x, List.mem_singleton.mpr rfl, by rw [hid]; decide⟩

end Cartridge.World
