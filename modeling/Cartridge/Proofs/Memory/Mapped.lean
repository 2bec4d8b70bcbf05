import Cartridge.Memory.Cursor
import Mathlib.Algebra.Order.Group.Nat
import Mathlib.Data.Finset.Card
import Mathlib.Data.Fintype.Card

/-!
# Mapped — which addresses have a byte

An address is mapped if some region reaches it, counting around the top of the address space.  A
read that succeeds touches mapped addresses only, and a memory with fewer mapped bytes than there
are addresses leaves some address unmapped.
-/

namespace Cartridge

theorem add_toUInt32 (a : UInt32) (n k : Nat) :
    a + n.toUInt32 + k.toUInt32 = a + (n + k).toUInt32 := by
  rw [UInt32.add_assoc]
  simp [Nat.toUInt32_eq, UInt32.ofNat_add]

namespace Memory

/-- Whether some region reaches an address. -/
def Mapped (m : Memory) (a : UInt32) : Prop :=
  ∃ r ∈ m.regions, offset r a < r.bytes.size

variable {m : Memory} {a : UInt32}

/-! ## Reads -/

theorem region?_mem {r : Region} (h : m.region? a = some r) : r ∈ m.regions := by
  have hfold : ∀ (regions : List Region) (found : Option Region),
      regions.foldl (fun found r => if r.base ≤ a then some r else found) found = some r →
        found = some r ∨ r ∈ regions := by
    intro regions
    induction regions with
    | nil => exact fun found h => Or.inl h
    | cons s rest ih =>
      intro found h
      rcases ih _ h with h | h
      · dsimp only at h
        split at h
        · exact Or.inr (Option.some.inj h ▸ List.mem_cons_self)
        · exact Or.inl h
      · exact Or.inr (List.mem_cons_of_mem _ h)
  exact (hfold _ _ h).resolve_left (by simp)

theorem size_le_mappedBytes {r : Region} (h : r ∈ m.regions) :
    r.bytes.size ≤ m.mappedBytes := by
  obtain ⟨regions⟩ := m
  induction regions with
  | nil => exact absurd h List.not_mem_nil
  | cons s rest ih =>
    simp only [mappedBytes, List.foldr_cons] at ih ⊢
    rcases List.mem_cons.mp h with rfl | h
    · omega
    · have := ih h
      omega

theorem offset_add {r : Region} {j : Nat} (h : offset r a + j < 2 ^ 32) :
    offset r (a + j.toUInt32) = offset r a + j := by
  unfold offset at h ⊢
  have hj : j.toUInt32.toNat = j := Nat.mod_eq_of_lt (by omega)
  have hsub : a + j.toUInt32 - r.base = (a - r.base) + j.toUInt32 := by
    rw [UInt32.sub_eq_add_neg, UInt32.sub_eq_add_neg, UInt32.add_assoc, UInt32.add_assoc,
      UInt32.add_comm j.toUInt32]
  rw [hsub, UInt32.toNat_add, hj]
  exact Nat.mod_eq_of_lt h

/-- A read that succeeds touches mapped addresses only, its first one even if it reads nothing. -/
theorem mapped_of_read {n : Nat} {bytes : List UInt8} (hm : m.mappedBytes < 2 ^ 32)
    (h : m.read a n = .ok bytes) : m.Mapped a ∧ ∀ j < n, m.Mapped (a + j.toUInt32) := by
  unfold read at h
  split at h
  · cases h
  · next r hr =>
    have hmem := region?_mem hr
    have hsize := size_le_mappedBytes hmem
    dsimp only at h
    split at h
    · cases h
    · next hstart =>
      split at h
      · cases h
      · next hend =>
        refine ⟨⟨r, hmem, by omega⟩, fun j hj => ⟨r, hmem, ?_⟩⟩
        rw [offset_add (by omega)]
        omega

theorem mapped_of_readNat {n value : Nat} (hm : m.mappedBytes < 2 ^ 32)
    (h : m.readNat a n = .ok value) : m.Mapped a ∧ ∀ j < n, m.Mapped (a + j.toUInt32) := by
  unfold readNat at h
  cases hr : m.read a n with
  | error e => rw [hr] at h; cases h
  | ok bytes => exact mapped_of_read hm hr

/-- A byte is a number of one byte. -/
theorem readU8_eq_ok_iff {b : UInt8} :
    m.readU8 a = .ok b ↔ ∃ value, m.readNat a 1 = .ok value ∧ value.toUInt8 = b := by
  rw [readU8]
  cases m.readNat a 1 with
  | error e => simp [bind, Except.bind]
  | ok value => simp [bind, Except.bind, pure, Except.pure]

/-! ## Room that is left -/

/-- The addresses that regions reach, region by region. -/
def mappedAddresses (m : Memory) : List UInt32 :=
  m.regions.flatMap fun r => (List.range r.bytes.size).map fun j => r.base + j.toUInt32

theorem length_mappedAddresses (m : Memory) : m.mappedAddresses.length = m.mappedBytes := by
  obtain ⟨regions⟩ := m
  induction regions with
  | nil => rfl
  | cons s rest ih =>
    simp only [mappedAddresses, mappedBytes, List.flatMap_cons, List.length_append,
      List.length_map, List.length_range, List.foldr_cons] at ih ⊢
    rw [ih]

theorem mem_mappedAddresses (h : m.Mapped a) : a ∈ m.mappedAddresses := by
  obtain ⟨r, hr, hlt⟩ := h
  refine List.mem_flatMap.mpr ⟨r, hr, List.mem_map.mpr ⟨offset r a, List.mem_range.mpr hlt, ?_⟩⟩
  rw [offset, Nat.toUInt32_eq, UInt32.ofNat_toNat, UInt32.add_comm, UInt32.sub_add_cancel]

/-- **Not all addresses in a row are mapped** if they are more than there are mapped bytes. -/
theorem exists_not_mapped_near (hm : m.mappedBytes < 2 ^ 32) (a : UInt32) :
    ∃ j ≤ m.mappedBytes, ¬m.Mapped (a + j.toUInt32) := by
  by_contra hall
  have hmem : ∀ j ∈ Finset.range (m.mappedBytes + 1),
      a + j.toUInt32 ∈ m.mappedAddresses.toFinset := by
    intro j hj
    rw [List.mem_toFinset]
    refine mem_mappedAddresses ?_
    by_contra hj'
    exact hall ⟨j, Nat.le_of_lt_succ (Finset.mem_range.mp hj), hj'⟩
  have hinj : Set.InjOn (fun j : Nat => a + j.toUInt32) (Finset.range (m.mappedBytes + 1)) := by
    intro i hi j hj hij
    have hi := Finset.mem_range.mp hi
    have hj := Finset.mem_range.mp hj
    have hsame : i.toUInt32.toNat = j.toUInt32.toNat :=
      congrArg UInt32.toNat ((UInt32.add_right_inj a).mp hij)
    rwa [show i.toUInt32.toNat = i from Nat.mod_eq_of_lt (by omega),
      show j.toUInt32.toNat = j from Nat.mod_eq_of_lt (by omega)] at hsame
  have hcard := Finset.card_le_card_of_injOn _ hmem hinj
  rw [Finset.card_range] at hcard
  have hlength := m.mappedAddresses.toFinset_card_le
  rw [length_mappedAddresses] at hlength
  omega

/-- A memory with fewer bytes than there are addresses leaves an address unmapped. -/
theorem exists_not_mapped (hm : m.mappedBytes < 2 ^ 32) : ∃ u, ¬m.Mapped u := by
  obtain ⟨j, -, hj⟩ := exists_not_mapped_near hm 0
  exact ⟨_, hj⟩

end Memory

end Cartridge
