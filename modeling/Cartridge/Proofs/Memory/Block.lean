import Cartridge.Proofs.Memory.Held
import Cartridge.Proofs.Memory.Sequence
import Mathlib.Data.List.Pairwise

/-!
# Block — bytes read at once and one by one

A read lies inside one region (`Memory.read_eq_ok_iff`).  Where no region runs past the top of the
address space or overlaps another one (`Memory.Separate`), every part of what was read at once can be
read on its own, and gives the same bytes (`Memory.read_within`).
-/

namespace Cartridge.Memory

variable {m : Memory} {a b : UInt32} {r : Region} {bytes : List UInt8} {n : Nat}

/-! ## One read -/

theorem base_le_of_region? (h : m.region? a = some r) : r.base ≤ a := by
  have hfold : ∀ s, m.region? a = some s → s.base ≤ a := by
    unfold region?
    refine List.foldlRecOn (motive := fun found => ∀ s : Region, found = some s → s.base ≤ a)
      m.regions _ (fun _ h => nomatch h) fun found ih s _ => ?_
    split
    · next hle =>
      rintro _ ⟨⟩
      exact hle
    · exact ih
  exact hfold r h

/-- **A read succeeds** inside the region of its address, if the first byte is there. -/
theorem read_eq_ok_iff : m.read a n = .ok bytes ↔ ∃ r, m.region? a = some r ∧
    offset r a < r.bytes.size ∧ offset r a + n ≤ r.bytes.size ∧
      bytes = (r.bytes.toList.drop (offset r a)).take n := by
  unfold read
  cases m.region? a with
  | none => simp
  | some r =>
    have hextract : (r.bytes.extract (offset r a) (offset r a + n)).toList =
        (r.bytes.toList.drop (offset r a)).take n := by
      rw [Array.toList_extract, List.extract_eq_take_drop, Nat.add_sub_cancel_left]
    simp only [Option.some.injEq, exists_eq_left']
    split
    · next hstart => simp only [reduceCtorEq, false_iff, not_and]; omega
    · next hstart =>
      split
      · next hend => simp only [reduceCtorEq, false_iff, not_and]; omega
      · next hend =>
        rw [Except.ok.injEq, hextract]
        exact ⟨fun h => ⟨by omega, by omega, h.symm⟩, fun h => h.2.2.symm⟩

theorem length_of_read (h : m.read a n = .ok bytes) : bytes.length = n := by
  obtain ⟨r, -, -, hend, rfl⟩ := read_eq_ok_iff.mp h
  rw [List.length_take, List.length_drop, Array.length_toList]
  omega

/-! ## Separate regions -/

/-- No region runs past the top of the address space, and of two regions one ends before the other
begins.  A region of no bytes takes part in this, and counts as overlapping a region that it begins
inside of: it hides what the other one has from there on.  `Memory.Apart` does not look at such
regions; for regions that have bytes the two are the same (`Memory.separate_iff_apart`). -/
structure Separate (m : Memory) : Prop where
  below : ∀ r ∈ m.regions, r.base.toNat + r.bytes.size ≤ 2 ^ 32
  apart : ∀ r ∈ m.regions, ∀ s ∈ m.regions, r ≠ s →
    r.base.toNat + r.bytes.size ≤ s.base.toNat ∨ s.base.toNat + s.bytes.size ≤ r.base.toNat

/-- Regions in a row are separate if each of them ends before all later ones begin. -/
theorem Separate.of_pairwise (hbelow : ∀ r ∈ m.regions, r.base.toNat + r.bytes.size ≤ 2 ^ 32)
    (h : m.regions.Pairwise fun r s => r.base.toNat + r.bytes.size ≤ s.base.toNat) :
    m.Separate where
  below := hbelow
  apart r hr s hs hne := by
    have hany : m.regions.Pairwise fun r s => r.base.toNat + r.bytes.size ≤ s.base.toNat ∨
        s.base.toNat + s.bytes.size ≤ r.base.toNat := h.imp Or.inl
    have : Std.Symm fun r s : Region => r.base.toNat + r.bytes.size ≤ s.base.toNat ∨
        s.base.toNat + s.bytes.size ≤ r.base.toNat := ⟨fun _ _ => Or.symm⟩
    exact hany.forall hr hs hne

/-- An address that has a byte in a region lies above its base by its offset. -/
theorem toNat_eq_of_offset_lt (hbelow : r.base.toNat + r.bytes.size ≤ 2 ^ 32)
    (h : offset r a < r.bytes.size) : a.toNat = r.base.toNat + offset r a := by
  have hsum : a = r.base + (a - r.base) := by rw [UInt32.add_comm, UInt32.sub_add_cancel]
  rw [hsum, UInt32.toNat_add, ← hsum]
  exact Nat.mod_eq_of_lt (Nat.lt_of_lt_of_le (Nat.add_lt_add_left h _) hbelow)

theorem offset_base_lt {s : Region} (hle : r.base.toNat ≤ s.base.toNat)
    (hlt : s.base.toNat < r.base.toNat + r.bytes.size) : offset r s.base < r.bytes.size := by
  rw [offset, UInt32.toNat_sub_of_le _ _ (UInt32.le_iff_toNat_le.mpr hle)]
  omega

/-- **Regions that have bytes** are separate exactly if no two of them have bytes for one address. -/
theorem separate_iff_apart (hbytes : ∀ r ∈ m.regions, 0 < r.bytes.size) :
    m.Separate ↔ m.Apart := by
  have hbase (r : Region) (hr : r ∈ m.regions) : offset r r.base < r.bytes.size := by
    rw [offset, UInt32.sub_self]
    exact hbytes r hr
  constructor
  · intro hm
    refine ⟨hm.below, fun r hr s hs a har has => ?_⟩
    by_contra hne
    have hra := toNat_eq_of_offset_lt (hm.below r hr) har
    have hsa := toNat_eq_of_offset_lt (hm.below s hs) has
    have := hm.apart r hr s hs hne
    omega
  · intro hm
    refine ⟨hm.below, fun r hr s hs hne => ?_⟩
    by_contra hover
    -- two regions that meet both have a byte for the base of the upper one
    rcases Nat.le_total r.base.toNat s.base.toNat with hle | hle
    · exact hne (hm.disjoint r hr s hs s.base (offset_base_lt hle (by omega)) (hbase s hs))
    · exact hne (hm.disjoint r hr s hs r.base (hbase r hr) (offset_base_lt hle (by omega)))

/-! ## Parts of a read -/

/-- Addresses that are not below the same bases belong to one region. -/
theorem region?_congr (h : ∀ s ∈ m.regions, s.base ≤ a ↔ s.base ≤ b) :
    m.region? a = m.region? b :=
  List.foldl_ext _ _ _ fun _ s hs => by simp only [h s hs]

/-- A region goes on up to its end. -/
theorem Separate.region?_add (hm : m.Separate) (h : m.region? a = some r) {j : Nat}
    (hj : offset r a + j < r.bytes.size) :
    m.region? (a + j.toUInt32) = some r ∧ offset r (a + j.toUInt32) = offset r a + j := by
  have hr := region?_mem h
  have hle := base_le_of_region? h
  have hbelow := hm.below r hr
  have hoffset : r.base.toNat + offset r a = a.toNat := by
    rw [offset, UInt32.toNat_sub_of_le _ _ hle]
    exact Nat.add_sub_cancel' (UInt32.le_iff_toNat_le.mp hle)
  have haddress : (a + j.toUInt32).toNat = a.toNat + j := by
    have hsmall : j.toUInt32.toNat = j := Nat.mod_eq_of_lt (by omega)
    rw [UInt32.toNat_add, hsmall]
    exact Nat.mod_eq_of_lt (by omega)
  constructor
  · rw [← h]
    refine region?_congr fun s hs => ?_
    rw [UInt32.le_iff_toNat_le, UInt32.le_iff_toNat_le, haddress]
    -- a region that begins in between would begin inside this one
    by_cases hsame : r = s
    · subst hsame
      omega
    · have := hm.apart r hr s hs hsame
      omega
  · have hle' : r.base ≤ a + j.toUInt32 := by
      rw [UInt32.le_iff_toNat_le, haddress]
      omega
    rw [offset, UInt32.toNat_sub_of_le _ _ hle', haddress]
    omega

/-- **A part of what was read** can be read on its own. -/
theorem read_within (hm : m.Separate) (h : m.read a n = .ok bytes) {i k : Nat} (hi : i < n)
    (hk : i + k ≤ n) : m.read (a + i.toUInt32) k = .ok ((bytes.drop i).take k) := by
  obtain ⟨r, hr, hstart, hend, rfl⟩ := read_eq_ok_iff.mp h
  obtain ⟨hregion, hoffset⟩ := hm.region?_add hr (j := i) (by omega)
  refine read_eq_ok_iff.mpr ⟨r, hregion, by omega, by omega, ?_⟩
  rw [hoffset, List.drop_take, List.take_take, List.drop_drop, Nat.min_eq_left (by omega)]

theorem readU8_within (hm : m.Separate) (h : m.read a n = .ok bytes) {i : Nat} {byte : UInt8}
    (hi : bytes[i]? = some byte) : m.readU8 (a + i.toUInt32) = .ok byte := by
  obtain ⟨hlt, rfl⟩ := List.getElem?_eq_some_iff.mp hi
  have hn := length_of_read h
  have hread := read_within hm h (i := i) (k := 1) (by omega) (by omega)
  rw [List.drop_eq_getElem_cons hlt, List.take_succ_cons, List.take_zero] at hread
  rw [readU8, readNat, hread]
  change Except.ok (littleEndian [bytes[i]]).toUInt8 = _
  simp [littleEndian]

/-- **The bytes of a halfword** can be read one by one. -/
theorem readU8_of_readU16 {value : UInt16} (hm : m.Separate) (h : m.readU16 a = .ok value) :
    ∃ low high, m.readU8 a = .ok low ∧ m.readU8 (a + 1) = .ok high ∧
      value.toNat = low.toNat + 256 * high.toNat := by
  obtain ⟨n, hn, hvalue⟩ := bind_eq_ok_iff.mp h
  obtain ⟨bytes, hbytes, hlittle⟩ := bind_eq_ok_iff.mp hn
  cases hvalue
  cases hlittle
  match bytes, length_of_read hbytes with
  | [low, high], _ =>
    have hlow : m.readU8 (a + (0 : Nat).toUInt32) = .ok low := readU8_within hm hbytes rfl
    have hhigh : m.readU8 (a + (1 : Nat).toUInt32) = .ok high := readU8_within hm hbytes rfl
    refine ⟨low, high, ?_, hhigh, ?_⟩
    · rwa [show a + (0 : Nat).toUInt32 = a from UInt32.add_zero a] at hlow
    · have := low.toNat_lt
      have := high.toNat_lt
      change (low.toNat + 256 * (high.toNat + 256 * 0)) % 2 ^ 16 = _
      omega

end Cartridge.Memory
