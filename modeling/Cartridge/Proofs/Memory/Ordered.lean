import Cartridge.Proofs.Memory.LittleEndian
import Cartridge.Proofs.Memory.Mapped

/-!
# Ordered — memories with their lowest base first

Mapping and writing keep the regions in strictly increasing order of base (`Memory.ordered_map`,
`Memory.ordered_write`).  Then an address belongs to the region with the highest base that is not
above it (`Memory.region?_eq_some_iff`), and bytes in a row of one region are read back wherever no
other region begins among them (`Memory.read_of_stands`).
-/

namespace Cartridge.Memory

/-- The bases increase from region to region. -/
def Ordered (m : Memory) : Prop :=
  m.regions.Pairwise fun r s => r.base < s.base

variable {m : Memory} {a : UInt32}

/-! ## What keeps the order -/

theorem ordered_empty : empty.Ordered :=
  List.Pairwise.nil

theorem mem_insert {r s : Region} {regions : List Region} :
    s ∈ insert r regions ↔ s = r ∨ s ∈ regions := by
  induction regions with
  | nil => simp [insert]
  | cons t rest ih =>
    rw [insert]
    split
    · exact List.mem_cons
    · rw [List.mem_cons, ih, List.mem_cons]
      exact or_left_comm

/-- A region with a new base has a place of its own in the order. -/
theorem pairwise_insert {r : Region} {regions : List Region}
    (h : regions.Pairwise fun s t => s.base < t.base) (hnew : ∀ s ∈ regions, s.base ≠ r.base) :
    (insert r regions).Pairwise fun s t => s.base < t.base := by
  induction regions with
  | nil => exact List.pairwise_singleton _ _
  | cons t rest ih =>
    obtain ⟨ht, hrest⟩ := List.pairwise_cons.mp h
    rw [insert]
    split
    · next hlt =>
      refine List.pairwise_cons.mpr ⟨fun s hs => ?_, h⟩
      rcases List.mem_cons.mp hs with rfl | hs
      · exact hlt
      · exact UInt32.lt_trans hlt (ht s hs)
    · next hge =>
      have hne := hnew t List.mem_cons_self
      have hlt : t.base < r.base :=
        UInt32.lt_of_le_of_ne (UInt32.not_lt.mp hge) hne
      refine List.pairwise_cons.mpr ⟨fun s hs => ?_, ih hrest fun s hs => hnew s (.tail _ hs)⟩
      rcases mem_insert.mp hs with rfl | hs
      · exact hlt
      · exact ht s hs

theorem ordered_map (h : m.Ordered) (base : UInt32) (bytes : Array UInt8) :
    (m.map base bytes).Ordered := by
  refine pairwise_insert (h.sublist List.filter_sublist) fun s hs => ?_
  simpa using (List.mem_filter.mp hs).2

theorem ordered_write {data : List UInt8} {m' : Memory} (h : m.Ordered)
    (hw : m.write a data = .ok m') : m'.Ordered := by
  unfold write at hw
  split at hw
  · cases hw
  · dsimp only at hw
    split at hw
    · cases hw
    · cases hw
      refine List.pairwise_map.mpr (h.imp fun {s t} hst => ?_)
      split <;> split <;> exact hst

/-! ## The region of an address -/

theorem foldl_region?_eq_some_iff {regions : List Region} {found : Option Region} {r : Region}
    (h : regions.Pairwise fun s t => s.base < t.base) :
    regions.foldl (fun found s => if s.base ≤ a then some s else found) found = some r ↔
      (r ∈ regions ∧ r.base ≤ a ∧ ∀ s ∈ regions, r.base < s.base → a < s.base) ∨
        (found = some r ∧ ∀ s ∈ regions, a < s.base) := by
  induction regions generalizing found with
  | nil => simp
  | cons t rest ih =>
    obtain ⟨ht, hrest⟩ := List.pairwise_cons.mp h
    rw [List.foldl_cons, ih hrest]
    by_cases hle : t.base ≤ a
    · rw [if_pos hle]
      constructor
      · rintro (⟨hr, hra, hlast⟩ | ⟨hfound, hlast⟩)
        · refine Or.inl ⟨.tail _ hr, hra, fun s hs hlt => ?_⟩
          rcases List.mem_cons.mp hs with rfl | hs
          · exact absurd (UInt32.lt_trans hlt (ht r hr)) (UInt32.lt_irrefl _)
          · exact hlast s hs hlt
        · obtain rfl := Option.some.inj hfound
          refine Or.inl ⟨.head _, hle, fun s hs hlt => ?_⟩
          rcases List.mem_cons.mp hs with rfl | hs
          · exact absurd hlt (UInt32.lt_irrefl _)
          · exact hlast s hs
      · rintro (⟨hr, hra, hlast⟩ | ⟨-, hlast⟩)
        · rcases List.mem_cons.mp hr with rfl | hr
          · exact Or.inr ⟨rfl, fun s hs => hlast s (.tail _ hs) (ht s hs)⟩
          · exact Or.inl ⟨hr, hra, fun s hs => hlast s (.tail _ hs)⟩
        · exact absurd hle (UInt32.not_le.mpr (hlast t (.head _)))
    · have hlt := UInt32.not_le.mp hle
      rw [if_neg hle]
      constructor
      · rintro (⟨hr, hra, hlast⟩ | ⟨hfound, hlast⟩)
        · exact absurd (UInt32.lt_of_le_of_lt hra (UInt32.lt_trans hlt (ht r hr)))
            (UInt32.lt_irrefl _)
        · exact Or.inr ⟨hfound, List.forall_mem_cons.mpr ⟨hlt, hlast⟩⟩
      · rintro (⟨hr, hra, hlast⟩ | ⟨hfound, hlast⟩)
        · rcases List.mem_cons.mp hr with rfl | hr
          · exact absurd hra hle
          · exact Or.inl ⟨hr, hra, fun s hs => hlast s (.tail _ hs)⟩
        · exact Or.inr ⟨hfound, fun s hs => hlast s (.tail _ hs)⟩

/-- **An address belongs to the region with the highest base that is not above it.** -/
theorem region?_eq_some_iff (h : m.Ordered) {r : Region} :
    m.region? a = some r ↔
      r ∈ m.regions ∧ r.base ≤ a ∧ ∀ s ∈ m.regions, r.base < s.base → a < s.base := by
  rw [region?, foldl_region?_eq_some_iff h]
  simp

/-! ## Bytes in a row -/

/-- A region has these bytes in a row from an offset on, below the top of the address space, and no
other region begins between its base and their end. -/
structure Stands (m : Memory) (r : Region) (start : Nat) (bytes : List UInt8) : Prop where
  listed : r ∈ m.regions
  there : bytes <+: r.bytes.toList.drop start
  below : r.base.toNat + start + bytes.length ≤ 2 ^ 32
  alone : ∀ s ∈ m.regions, r.base < s.base → r.base.toNat + start + bytes.length ≤ s.base.toNat

namespace Stands

variable {r : Region} {start : Nat} {bytes first rest : List UInt8}

theorem left (h : m.Stands r start (first ++ rest)) : m.Stands r start first where
  listed := h.listed
  there := (List.prefix_append first rest).trans h.there
  below := by
    have := h.below
    rw [List.length_append] at this
    omega
  alone s hs hlt := by
    have := h.alone s hs hlt
    rw [List.length_append] at this
    omega

theorem right (h : m.Stands r start (first ++ rest)) :
    m.Stands r (start + first.length) rest where
  listed := h.listed
  there := by
    obtain ⟨more, hmore⟩ := h.there
    refine ⟨more, ?_⟩
    rw [← List.drop_drop, ← hmore, List.append_assoc, List.drop_left]
  below := by
    have := h.below
    rw [List.length_append] at this
    omega
  alone s hs hlt := by
    have := h.alone s hs hlt
    rw [List.length_append] at this
    omega

end Stands

variable {r : Region} {start : Nat} {bytes : List UInt8}

/-- **Bytes in a row are read back.** -/
theorem read_of_stands (hm : m.Ordered) (h : m.Stands r start bytes) (hne : bytes ≠ []) :
    m.read (r.base + start.toUInt32) bytes.length = .ok bytes := by
  have hpos := List.length_pos_of_ne_nil hne
  have hbelow := h.below
  have hsize : start + bytes.length ≤ r.bytes.size := by
    have hfits := h.there.length_le
    have htotal : r.bytes.toList.length = r.bytes.size := Array.length_toList
    rw [List.length_drop, htotal] at hfits
    omega
  have hbase := r.base.toNat_lt
  have haddress : (r.base + start.toUInt32).toNat = r.base.toNat + start := by
    have hstart : start.toUInt32.toNat = start := Nat.mod_eq_of_lt (by omega)
    rw [UInt32.toNat_add, hstart]
    exact Nat.mod_eq_of_lt (by omega)
  have hoffset : offset r (r.base + start.toUInt32) = start := by
    rw [offset, UInt32.toNat_sub_of_le _ _ (by rw [UInt32.le_iff_toNat_le, haddress]; omega),
      haddress]
    omega
  have hregion : m.region? (r.base + start.toUInt32) = some r := by
    refine (region?_eq_some_iff hm).mpr ⟨h.listed, ?_, fun s hs hlt => ?_⟩
    · rw [UInt32.le_iff_toNat_le, haddress]
      omega
    · have := h.alone s hs hlt
      rw [UInt32.lt_iff_toNat_lt, haddress]
      omega
  have hextract : (r.bytes.extract start (start + bytes.length)).toList = bytes := by
    rw [Array.toList_extract, List.extract_eq_take_drop, Nat.add_sub_cancel_left]
    exact (List.prefix_iff_eq_take.mp h.there).symm
  rw [read, hregion]
  dsimp only
  rw [hoffset, if_neg (by omega), if_neg (by omega), hextract]

theorem readNat_of_stands (hm : m.Ordered) {width value : Nat} (hwidth : 0 < width)
    (hvalue : value < 256 ^ width) (h : m.Stands r start (toLittleEndian width value)) :
    m.readNat (r.base + start.toUInt32) width = .ok value := by
  have hne : toLittleEndian width value ≠ [] := by
    rw [← List.length_pos_iff, length_toLittleEndian]
    exact hwidth
  have hread := read_of_stands hm h hne
  rw [length_toLittleEndian] at hread
  rw [readNat, hread]
  change Except.ok (littleEndian _) = _
  rw [littleEndian_toLittleEndian, Nat.mod_eq_of_lt hvalue]

end Cartridge.Memory
