import Cartridge.Proofs.Memory.Ordered
import Mathlib.Data.List.Sort
import Mathlib.Order.CompletePartialOrder
import Mathlib.Order.Interval.Set.Disjoint

/-!
# Store — memory keeps what is written

Writing changes the bytes of one region in place (`Memory.write_eq_ok_iff`), so what was written is
read back and reads of other addresses give what they gave before, wherever regions overlap
(`Memory.read_write_self`, `Memory.read_write_of_disjoint`).  Regions in order are determined by
which regions there are (`Memory.ext_of_mem`), so mapping replaces the region with that base and no
other, and the order of two mappings does not matter.  All this holds of every memory that mapping
and writing have made of an empty one (`Memory.keeps_after`).
-/

namespace Cartridge.Memory

variable {m m' : Memory} {a b : UInt32} {data : List UInt8} {r s : Region}

/-! ## Bytes written over others -/

section Overwrite

variable {bytes : Array UInt8} {start : Nat}

@[simp] theorem size_overwrite (bytes : Array UInt8) (start : Nat) (data : List UInt8) :
    (overwrite bytes start data).size = bytes.size := by
  induction data generalizing bytes start with
  | nil => rfl
  | cons d rest ih => rw [overwrite, ih, Array.size_setIfInBounds]

theorem getElem?_overwrite (h : start + data.length ≤ bytes.size) (i : Nat) :
    (overwrite bytes start data)[i]? =
      if start ≤ i ∧ i < start + data.length then data[i - start]? else bytes[i]? := by
  induction data generalizing bytes start with
  | nil => rw [overwrite, if_neg (by simp)]
  | cons d rest ih =>
    rw [List.length_cons] at h ⊢
    rw [overwrite, ih (by rw [Array.size_setIfInBounds]; omega), Array.getElem?_setIfInBounds]
    by_cases hi : start = i
    · subst hi
      rw [if_neg (by omega), if_pos rfl, if_pos (by omega), if_pos (by omega), Nat.sub_self]
      rfl
    · rw [if_neg hi]
      by_cases hin : start + 1 ≤ i ∧ i < start + 1 + rest.length
      · rw [if_pos hin, if_pos (by omega), show i - start = (i - (start + 1)) + 1 by omega,
          List.getElem?_cons_succ]
      · rw [if_neg hin, if_neg (by omega)]

theorem extract_overwrite (h : start + data.length ≤ bytes.size) :
    ((overwrite bytes start data).extract start (start + data.length)).toList = data := by
  refine List.ext_getElem? fun i => ?_
  rw [Array.getElem?_toList, Array.getElem?_extract, size_overwrite]
  by_cases hi : i < data.length
  · rw [if_pos (by omega), getElem?_overwrite h, if_pos (by omega), Nat.add_sub_cancel_left]
  · rw [if_neg (by omega), List.getElem?_eq_none (by omega)]

theorem extract_overwrite_of_disjoint (h : start + data.length ≤ bytes.size) {first n : Nat}
    (hapart : Disjoint (Set.Ico first (first + n)) (Set.Ico start (start + data.length))) :
    (overwrite bytes start data).extract first (first + n) =
      bytes.extract first (first + n) := by
  refine Array.ext_getElem? fun i => ?_
  rw [Array.getElem?_extract, Array.getElem?_extract, size_overwrite]
  split
  · next hi =>
    have hread : first + i ∈ Set.Ico first (first + n) := ⟨by omega, by omega⟩
    have hwritten : ¬(start ≤ first + i ∧ first + i < start + data.length) :=
      Set.disjoint_left.mp hapart hread
    rw [getElem?_overwrite h, if_neg hwritten]
  · rfl

end Overwrite

/-! ## Regions -/

/-- No two regions have one base. -/
theorem Ordered.eq_of_base_eq (h : m.Ordered) (hr : r ∈ m.regions) (hs : s ∈ m.regions)
    (hbase : r.base = s.base) : r = s := by
  have hnodup : (m.regions.map Region.base).Nodup :=
    List.pairwise_map.mpr (List.Pairwise.imp (fun hlt => UInt32.ne_of_lt hlt) h)
  exact List.inj_on_of_nodup_map hnodup hr hs hbase

/-- Memories in order are equal if they have the same regions. -/
theorem ext_of_mem (h : m.Ordered) (h' : m'.Ordered)
    (hmem : ∀ s, s ∈ m.regions ↔ s ∈ m'.regions) : m = m' := by
  have : Std.Irrefl fun r s : Region => r.base < s.base := ⟨fun _ => UInt32.lt_irrefl _⟩
  have : Std.Antisymm fun r s : Region => r.base < s.base :=
    ⟨fun _ _ hlt hgt => absurd hlt (UInt32.lt_asymm hgt)⟩
  exact congrArg Memory.mk (List.Pairwise.eq_of_mem_iff h h' hmem)

/-- Changing bytes in place does not change to which region an address belongs. -/
theorem region?_map_regions {f : Region → Region} (hf : ∀ s, (f s).base = s.base) (m : Memory)
    (a : UInt32) : region? ⟨m.regions.map f⟩ a = (m.region? a).map f := by
  obtain ⟨regions⟩ := m
  have hfold : ∀ found : Option Region,
      (regions.map f).foldl (fun found r => if r.base ≤ a then some r else found) (found.map f) =
        (regions.foldl (fun found r => if r.base ≤ a then some r else found) found).map f := by
    induction regions with
    | nil => exact fun _ => rfl
    | cons r rest ih =>
      intro found
      rw [List.map_cons, List.foldl_cons, List.foldl_cons, ← ih, hf]
      split <;> rfl
  exact hfold none

/-- An address lies as far above the base of its region as the numbers say. -/
theorem offset_of_region? (h : m.Ordered) (hr : m.region? a = some r) :
    r.base.toNat + offset r a = a.toNat := by
  obtain ⟨-, hle, -⟩ := (region?_eq_some_iff h).mp hr
  rw [offset, UInt32.toNat_sub_of_le _ _ hle]
  exact Nat.add_sub_cancel' (UInt32.le_iff_toNat_le.mp hle)

/-! ## Writing -/

/-- A region after `data` was written into the region `r` from an offset on. -/
def patch (r : Region) (start : Nat) (data : List UInt8) (s : Region) : Region :=
  if s.base = r.base then ⟨s.base, overwrite s.bytes start data⟩ else s

@[simp] theorem base_patch (r : Region) (start : Nat) (data : List UInt8) (s : Region) :
    (patch r start data s).base = s.base := by
  unfold patch
  split <;> rfl

/-- A write succeeds if the region of its address has room for the data, and changes that region. -/
theorem write_eq_ok_iff :
    m.write a data = .ok m' ↔
      ∃ r, m.region? a = some r ∧ offset r a + data.length ≤ r.bytes.size ∧
        m' = ⟨m.regions.map (patch r (offset r a) data)⟩ := by
  unfold write
  cases m.region? a with
  | none => simp
  | some r =>
    simp only [Option.some.injEq, exists_eq_left']
    by_cases hfits : r.bytes.size < offset r a + data.length
    · rw [if_pos hfits]
      exact ⟨fun h => (by cases h), fun h => absurd h.1 (by omega)⟩
    · rw [if_neg hfits, Except.ok.injEq]
      exact ⟨fun h => ⟨by omega, h.symm⟩, fun h => h.2.symm⟩

/-- **What was written is read back.** -/
theorem read_write_self (h : m.write a data = .ok m') (hne : data ≠ []) :
    m'.read a data.length = .ok data := by
  obtain ⟨r, hr, hfits, rfl⟩ := write_eq_ok_iff.mp h
  have hpos := List.length_pos_of_ne_nil hne
  have hpatch : patch r (offset r a) data r =
      ⟨r.base, overwrite r.bytes (offset r a) data⟩ := if_pos rfl
  have hoffset : offset ⟨r.base, overwrite r.bytes (offset r a) data⟩ a = offset r a := rfl
  rw [read, region?_map_regions (base_patch r _ data), hr, Option.map_some, hpatch]
  dsimp only
  rw [hoffset, size_overwrite, if_neg (by omega), if_neg (by omega), extract_overwrite hfits]

/-- A read depends only on the size of a region and on the bytes read. -/
theorem read_congr {n : Nat} (hs : m.region? b = some s) {s' : Region}
    (hs' : m'.region? b = some s') (hbase : s'.base = s.base)
    (hsize : s'.bytes.size = s.bytes.size)
    (hbytes : s'.bytes.extract (offset s b) (offset s b + n) =
      s.bytes.extract (offset s b) (offset s b + n)) : m'.read b n = m.read b n := by
  have hoffset : offset s' b = offset s b := by rw [offset, offset, hbase]
  rw [read, read, hs, hs']
  dsimp only
  rw [hoffset, hsize, hbytes]

/-- **A write does not reach other addresses**: a read of them gives the bytes or the error that it
gave before. -/
theorem read_write_of_disjoint (hm : m.Ordered) (h : m.write a data = .ok m') {n : Nat}
    (hapart : Disjoint (Set.Ico b.toNat (b.toNat + n))
      (Set.Ico a.toNat (a.toNat + data.length))) : m'.read b n = m.read b n := by
  obtain ⟨r, hr, hfits, rfl⟩ := write_eq_ok_iff.mp h
  have hregion := region?_map_regions (base_patch r (offset r a) data) m b
  cases hs : m.region? b with
  | none =>
    rw [hs] at hregion
    rw [read, read, hs, hregion]
    rfl
  | some s =>
    rw [hs] at hregion
    by_cases hbase : s.base = r.base
    · -- Both addresses belong to one region, so their offsets are as far apart as they are.
      obtain rfl : s = r := hm.eq_of_base_eq (region?_mem hs) (region?_mem hr) hbase
      have ha := offset_of_region? hm hr
      have hb := offset_of_region? hm hs
      have hpatch : patch s (offset s a) data s =
          ⟨s.base, overwrite s.bytes (offset s a) data⟩ := if_pos rfl
      rw [Option.map_some, hpatch] at hregion
      refine read_congr hs hregion rfl (size_overwrite _ _ _)
        (extract_overwrite_of_disjoint hfits ?_)
      rw [Set.Ico_disjoint_Ico] at hapart ⊢
      omega
    · rw [Option.map_some, patch, if_neg hbase] at hregion
      exact read_congr hs hregion rfl rfl rfl

/-! ## Mapping -/

theorem mem_map {base : UInt32} {bytes : Array UInt8} :
    s ∈ (m.map base bytes).regions ↔ s = ⟨base, bytes⟩ ∨ s ∈ m.regions ∧ s.base ≠ base := by
  rw [map, mem_insert, List.mem_filter, bne_iff_ne]

/-- **Mapping a base again** replaces the bytes of the region with that base and nothing else. -/
theorem regions_map_base (h : m.Ordered) (hr : r ∈ m.regions) (bytes : Array UInt8) :
    (m.map r.base bytes).regions =
      m.regions.map fun s => if s = r then ⟨r.base, bytes⟩ else s := by
  have hbase (s : Region) : (if s = r then (⟨r.base, bytes⟩ : Region) else s).base = s.base := by
    split
    · next heq => rw [heq]
    · rfl
  have hordered :
      Ordered ⟨m.regions.map fun s => if s = r then (⟨r.base, bytes⟩ : Region) else s⟩ := by
    refine List.pairwise_map.mpr (h.imp fun hlt => ?_)
    rwa [hbase, hbase]
  refine congrArg Memory.regions (ext_of_mem (ordered_map h r.base bytes) hordered fun s => ?_)
  rw [mem_map, List.mem_map]
  constructor
  · rintro (rfl | ⟨hs, hne⟩)
    · exact ⟨r, hr, if_pos rfl⟩
    · exact ⟨s, hs, if_neg fun heq => hne (congrArg Region.base heq)⟩
  · rintro ⟨t, ht, rfl⟩
    split
    · exact Or.inl rfl
    · next hne => exact Or.inr ⟨ht, fun heq => hne (h.eq_of_base_eq ht hr heq)⟩

/-- **Regions with different bases** may be mapped in either order. -/
theorem map_map_comm (h : m.Ordered) (hne : a ≠ b) (bytes bytes' : Array UInt8) :
    (m.map a bytes).map b bytes' = (m.map b bytes').map a bytes := by
  refine ext_of_mem (ordered_map (ordered_map h _ _) _ _) (ordered_map (ordered_map h _ _) _ _)
    fun s => ?_
  simp only [mem_map]
  constructor
  · rintro (rfl | ⟨rfl | ⟨hs, ha⟩, hb⟩)
    · exact Or.inr ⟨Or.inl rfl, hne.symm⟩
    · exact Or.inl rfl
    · exact Or.inr ⟨Or.inr ⟨hs, hb⟩, ha⟩
  · rintro (rfl | ⟨rfl | ⟨hs, hb⟩, ha⟩)
    · exact Or.inr ⟨Or.inl rfl, hne⟩
    · exact Or.inl rfl
    · exact Or.inr ⟨Or.inr ⟨hs, ha⟩, hb⟩

/-! ## One request after another -/

/-- What is asked of a memory that can change. -/
inductive Request where
  | map (base : UInt32) (bytes : Array UInt8)
  | write (a : UInt32) (data : List UInt8)

/-- What becomes of a memory; a write that fails leaves it as it is. -/
def perform (m : Memory) : Request → Memory
  | .map base bytes => m.map base bytes
  | .write a data =>
    match m.write a data with
    | .ok m' => m'
    | .error _ => m

/-- A memory that was empty at first, after requests; the last one stands first. -/
def after : List Request → Memory
  | [] => empty
  | request :: past => (after past).perform request

theorem Ordered.perform (h : m.Ordered) (request : Request) : (m.perform request).Ordered := by
  cases request with
  | map base bytes => exact ordered_map h base bytes
  | write a data =>
    unfold Memory.perform
    dsimp only
    split
    · next m' hw => exact ordered_write h hw
    · exact h

theorem ordered_after (past : List Request) : (after past).Ordered := by
  induction past with
  | nil => exact ordered_empty
  | cons request past ih => exact ih.perform request

/-- **Memory is a faithful store**, whatever has been mapped and written and whichever writes have
failed: the bases of the regions increase; what is written is read back, and reads of other
addresses give what they gave before; a write that fails changes nothing; mapping a base again
replaces that region alone; and regions with different bases may be mapped in either order. -/
theorem keeps_after (past : List Request) :
    (after past).Ordered ∧
    (∀ a data m', (after past).write a data = .ok m' →
      (data ≠ [] → m'.read a data.length = .ok data) ∧
      ∀ (b : UInt32) (n : Nat), Disjoint (Set.Ico b.toNat (b.toNat + n))
          (Set.Ico a.toNat (a.toNat + data.length)) →
        m'.read b n = (after past).read b n) ∧
    (∀ a data e, (after past).write a data = .error e →
      after (.write a data :: past) = after past) ∧
    (∀ r ∈ (after past).regions, ∀ bytes, ((after past).map r.base bytes).regions =
      (after past).regions.map fun s => if s = r then ⟨r.base, bytes⟩ else s) ∧
    ∀ a b bytes bytes', a ≠ b → ((after past).map a bytes).map b bytes' =
      ((after past).map b bytes').map a bytes := by
  have hordered := ordered_after past
  refine ⟨hordered, ?written, ?failed, ?replaced, ?swapped⟩
  case written =>
    intro a data m' hw
    exact ⟨read_write_self hw, fun b n => read_write_of_disjoint hordered hw⟩
  case failed =>
    intro a data e hw
    rw [after, perform, hw]
  case replaced => exact fun r hr => regions_map_base hordered hr
  case swapped => exact fun a b bytes bytes' hne => map_map_comm hordered hne bytes bytes'

/-- A region of eight bytes, another one that covers its second half, and a write that no longer
fits. -/
def overlapping : List Request :=
  [.write 0x02000006 [1, 2, 3], .map 0x02000004 #[4, 5, 6, 7],
    .map 0x02000000 #[0, 0, 0, 0, 0, 0, 0, 0]]

/-- Three bytes from the last one of the lower region on go into the lower region, and the upper one
stays as it is. -/
theorem keeps_after_overlapping :
    ∃ m', (after overlapping).write 0x02000003 [7, 8, 9] = .ok m' ∧
      m'.read 0x02000003 3 = .ok [7, 8, 9] ∧
      m'.read 0x02000006 2 = (after overlapping).read 0x02000006 2 := by
  obtain ⟨-, hwritten, -⟩ := keeps_after overlapping
  have hok : ((after overlapping).write 0x02000003 [7, 8, 9]).isOk = true := by decide +kernel
  cases hw : (after overlapping).write 0x02000003 [7, 8, 9] with
  | error e => rw [hw] at hok; cases hok
  | ok m' =>
    obtain ⟨hself, hother⟩ := hwritten _ _ m' hw
    exact ⟨m', rfl, hself (by decide), hother 0x02000006 2
      (Set.Ico_disjoint_Ico.mpr (by decide))⟩

end Cartridge.Memory
