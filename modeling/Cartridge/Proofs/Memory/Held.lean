import Cartridge.Proofs.Memory.LittleEndian
import Cartridge.Proofs.Memory.Mapped

/-!
# Held — the bytes that a memory holds

A memory holds a byte at an address if some region has it there, counting around the top of the
address space.  What a read gives is held, and if no two regions have bytes for one address nothing
else is (`Memory.spells_of_read`).
-/

namespace Cartridge.Memory

/-- No region runs past the top of the address space, and no two have bytes for one address.  So a
region of no bytes may begin anywhere, also inside another one, where `Memory.Separate` has no
place for it. -/
structure Apart (m : Memory) : Prop where
  below : ∀ r ∈ m.regions, r.base.toNat + r.bytes.size ≤ 2 ^ 32
  disjoint : ∀ r ∈ m.regions, ∀ s ∈ m.regions, ∀ a : UInt32,
    offset r a < r.bytes.size → offset s a < s.bytes.size → r = s

/-- Some region has a byte for an address. -/
def Holds (m : Memory) (a : UInt32) (b : UInt8) : Prop :=
  ∃ r ∈ m.regions, r.bytes[offset r a]? = some b

/-- The bytes from an address on are these, and no others. -/
def Spells (m : Memory) (a : UInt32) (bytes : List UInt8) : Prop :=
  ∀ j < bytes.length, ∀ b, m.Holds (a + j.toUInt32) b ↔ bytes[j]? = some b

variable {m : Memory} {a : UInt32}

theorem Apart.holds_iff (hm : m.Apart) {r : Region} (hr : r ∈ m.regions)
    (ha : offset r a < r.bytes.size) (b : UInt8) :
    m.Holds a b ↔ r.bytes[offset r a]? = some b := by
  refine ⟨?_, fun h => ⟨r, hr, h⟩⟩
  rintro ⟨s, hs, hb⟩
  obtain ⟨hlt, -⟩ := Array.getElem?_eq_some_iff.mp hb
  obtain rfl := hm.disjoint r hr s hs a ha hlt
  exact hb

@[simp] theorem spells_nil (m : Memory) (a : UInt32) : m.Spells a [] := by
  simp [Spells]

/-- What follows each other is spelt together. -/
theorem Spells.append {first rest : List UInt8} (h : m.Spells a first)
    (hrest : m.Spells (a + first.length.toUInt32) rest) : m.Spells a (first ++ rest) := by
  intro j hj b
  rcases Nat.lt_or_ge j first.length with hlt | hge
  · rw [List.getElem?_append_left hlt]
    exact h j hlt b
  · rw [List.length_append] at hj
    have := hrest (j - first.length) (by omega) b
    rwa [add_toUInt32, Nat.add_sub_cancel' hge, ← List.getElem?_append_right hge] at this

/-- **A read gives the bytes that are held.** -/
theorem spells_of_read (hm : m.Apart) {n : Nat} {bytes : List UInt8}
    (h : m.read a n = .ok bytes) : bytes.length = n ∧ m.Spells a bytes := by
  unfold read at h
  split at h
  · cases h
  · next r hr =>
    have hmem := region?_mem hr
    have hbelow := hm.below r hmem
    dsimp only at h
    split at h
    · cases h
    · split at h
      · cases h
      · next hend =>
        cases h
        have hlength : (r.bytes.extract (offset r a) (offset r a + n)).toList.length = n := by
          rw [Array.length_toList, Array.size_extract]
          omega
        refine ⟨hlength, fun j hj b => ?_⟩
        rw [hlength] at hj
        have hoffset := offset_add (r := r) (a := a) (j := j) (by omega)
        rw [hm.holds_iff hmem (by omega), hoffset, Array.getElem?_toList, Array.getElem?_extract,
          if_pos (by omega)]

/-- What a read of a number gives fits, and its bytes are held. -/
theorem spells_of_readNat (hm : m.Apart) {width value : Nat}
    (h : m.readNat a width = .ok value) :
    value < 256 ^ width ∧ m.Spells a (toLittleEndian width value) := by
  unfold readNat at h
  cases hread : m.read a width with
  | error e => rw [hread] at h; cases h
  | ok bytes =>
    rw [hread] at h
    cases h
    obtain ⟨rfl, hspells⟩ := spells_of_read hm hread
    rw [toLittleEndian_littleEndian]
    exact ⟨littleEndian_lt bytes, hspells⟩

end Cartridge.Memory
