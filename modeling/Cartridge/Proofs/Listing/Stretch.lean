import Cartridge.Proofs.Script.Extent
import Cartridge.Script.Listing

/-!
# Stretch — the instructions of a block

`Stretch` says what a memory decodes to from an address on, one instruction right behind the other,
up to the first that ends or returns or up to bytes that decode to nothing.  Every instruction takes
mapped bytes, and with fewer of them than there are addresses no stretch goes around the address
space.  So a block holds the whole stretch from its start (`Block.stretch_decode`), and no more
instructions than there are mapped bytes (`Block.length_decode_le`).  `Block.contains` tells its
bytes (`Block.contains_decode_iff`) unless it goes over the top of the address space: then it ends
before it starts, and `contains` tells none.
-/

namespace Cartridge

open Instruction (extent_decode address_of_decode closer_of_decode)

/-- From `a` on a memory decodes to these instructions, up to the first that ends or returns, or up
to the error. -/
inductive Stretch (m : Memory) : (a : UInt32) → List Instruction → Option DecodeError → Prop where
  | fails {a : UInt32} {e : DecodeError} (failed : Instruction.decode m a = .error e) :
    Stretch m a [] (some e)
  | ends {a : UInt32} {i : Instruction} (decoded : Instruction.decode m a = .ok i)
    (last : Block.isLast i = true) : Stretch m a [i] none
  | goes {a : UInt32} {i : Instruction} {behind : List Instruction} {e? : Option DecodeError}
    (decoded : Instruction.decode m a = .ok i) (more : Block.isLast i = false)
    (rest : Stretch m i.next behind e?) : Stretch m a (i :: behind) e?

namespace Stretch

variable {m : Memory} {a u : UInt32} {is : List Instruction} {e? : Option DecodeError}

/-- The first instruction stands where the stretch begins. -/
theorem head (h : Stretch m a is e?) : ∀ i, is.head? = some i → i.address = a := by
  intro i hi
  cases h with
  | fails => cases hi
  | ends decoded => cases hi; exact address_of_decode decoded
  | goes decoded => cases hi; exact address_of_decode decoded

/-- Every instruction is what its address decodes to. -/
theorem decoded (h : Stretch m a is e?) : ∀ i ∈ is, Instruction.decode m i.address = .ok i := by
  have hhere {b : UInt32} {i : Instruction} (hi : Instruction.decode m b = .ok i) :
      Instruction.decode m i.address = .ok i := by rwa [address_of_decode hi]
  induction h with
  | fails => simp
  | ends hi => simpa using hhere hi
  | goes hi _ _ ih => simpa using ⟨hhere hi, ih⟩

/-- Every instruction stands right behind the one before it. -/
theorem linked (h : Stretch m a is e?) : is.IsChain fun i j => j.address = i.next := by
  induction h with
  | fails => exact .nil
  | ends => exact .singleton _
  | @goes a i behind e? _ _ rest ih =>
    cases behind with
    | nil => exact .singleton _
    | cons j behind => exact List.isChain_cons_cons.mpr ⟨rest.head j rfl, ih⟩

/-- Only the last instruction can end or return. -/
theorem onward (h : Stretch m a is e?) : ∀ i ∈ is.dropLast, Block.isLast i = false := by
  induction h with
  | fails | ends => simp
  | @goes a i behind e? _ more rest ih =>
    cases behind with
    | nil => simp
    | cons j behind =>
      rw [List.dropLast_cons_cons]
      simpa using ⟨more, ih⟩

/-- There is no error exactly if the last instruction ends or returns. -/
theorem error_eq_none_iff (h : Stretch m a is e?) :
    e? = none ↔ ∃ i, is.getLast? = some i ∧ Block.isLast i = true := by
  induction h with
  | fails => simp
  | ends _ last => simpa using last
  | @goes a i behind e? _ more rest ih =>
    cases behind with
    | nil =>
      cases rest with
      | fails => simpa using more
    | cons j behind =>
      rw [ih, List.getLast?_cons_cons]

/-- Behind the last instruction stands the same address with another instruction in front. -/
theorem finish_cons (i : Instruction) (behind : List Instruction) (a : UInt32) :
    (((i :: behind).getLast?.map (·.next)).getD a) =
      (behind.getLast?.map (·.next)).getD i.next := by
  cases behind with
  | nil => rfl
  | cons j behind =>
    rw [List.getLast?_cons_cons, List.getLast?_eq_getLast_of_ne_nil (List.cons_ne_nil _ _)]
    rfl

/-- The error is that of the address behind the last instruction. -/
theorem failed (h : Stretch m a is e?) : ∀ e, e? = some e →
    Instruction.decode m ((is.getLast?.map (·.next)).getD a) = .error e := by
  induction h with
  | fails failed => intro e he; cases he; exact failed
  | ends => intro e he; cases he
  | @goes a i behind _ _ _ _ ih =>
    rw [finish_cons]
    exact ih

/-- Where a stretch has instructions there is a byte. -/
theorem mapped (hm : m.mappedBytes < 2 ^ 32) (h : Stretch m a is e?) (hne : is ≠ []) :
    m.Mapped a := by
  have hfirst {i : Instruction} (hi : Instruction.decode m a = .ok i) : m.Mapped a := by
    obtain ⟨-, n, hn, hextent⟩ := extent_decode hm hi
    simpa using hextent.mapped 0 hn
  cases h with
  | fails => exact absurd rfl hne
  | ends hi => exact hfirst hi
  | goes hi => exact hfirst hi

/-- A stretch has no more instructions than there are bytes up to an unmapped address. -/
theorem length_le (hm : m.mappedBytes < 2 ^ 32) (hu : ¬m.Mapped u) (h : Stretch m a is e?) :
    is.length ≤ (u - a).toNat := by
  induction h with
  | fails => exact Nat.zero_le _
  | ends hi =>
    have hcloser := closer_of_decode hm hu hi
    exact Nat.succ_le_of_lt (Nat.zero_lt_of_lt hcloser)
  | goes hi _ _ ih =>
    have hcloser := closer_of_decode hm hu hi
    exact Nat.succ_le_of_lt (Nat.lt_of_le_of_lt ih hcloser)

/-- A stretch ends before an unmapped address. -/
theorem finish_near (hm : m.mappedBytes < 2 ^ 32) (hu : ¬m.Mapped u) (h : Stretch m a is e?) :
    (u - (is.getLast?.map (·.next)).getD a).toNat ≤ (u - a).toNat := by
  induction h with
  | fails => exact Nat.le_refl _
  | ends hi => exact (closer_of_decode hm hu hi).le
  | @goes a i behind _ hi _ _ ih =>
    rw [finish_cons]
    exact ih.trans (closer_of_decode hm hu hi).le

/-! ## Bytes -/

/-- The way from `a` to `u` by `b`, if `u` is closer to `b` than to `a`. -/
theorem toNat_sub_by {u a b : UInt32} (h : (u - b).toNat ≤ (u - a).toNat) :
    (u - a).toNat = (b - a).toNat + (u - b).toNat := by
  have hsplit : b - a = (u - a) - (u - b) := by grind
  rw [hsplit, UInt32.toNat_sub_of_le _ _ (UInt32.le_iff_toNat_le.mpr h)]
  omega

/-- The way from `a` to `u` by `b`, if `a` is closer to `b` than to `u`. -/
theorem toNat_sub_on {u a b : UInt32} (h : (b - a).toNat ≤ (u - a).toNat) :
    (u - a).toNat = (b - a).toNat + (u - b).toNat := by
  have hsplit : u - b = (u - a) - (b - a) := by grind
  rw [hsplit, UInt32.toNat_sub_of_le _ _ (UInt32.le_iff_toNat_le.mpr h)]
  omega

/-- **The instructions of a stretch take all bytes from its beginning to its end**, and no others,
also where it goes over the top of the address space. -/
theorem takes_iff (hm : m.mappedBytes < 2 ^ 32) (h : Stretch m a is e?) (x : UInt32) :
    (∃ i ∈ is, x - i.address < i.next - i.address) ↔
      x - a < (is.getLast?.map (·.next)).getD a - a := by
  induction h with
  | fails => simp
  | ends hi => simp [address_of_decode hi]
  | @goes a i behind e? hi _ rest ih =>
    obtain ⟨u, hu⟩ := Memory.exists_not_mapped hm
    -- `a`, the next instruction, the end and `u` follow each other in this order
    have hnext := (closer_of_decode hm hu hi).le
    have hend := rest.finish_near hm hu
    simp only [finish_cons, List.mem_cons, exists_eq_or_imp, ih, address_of_decode hi]
    generalize (behind.getLast?.map (·.next)).getD i.next = finish at hend ⊢
    have hbyNext := toNat_sub_by hnext
    have hbyEnd := toNat_sub_by (hend.trans hnext)
    have hnextEnd := toNat_sub_by hend
    simp only [UInt32.lt_iff_toNat_lt]
    by_cases hin : (x - a).toNat < (i.next - a).toNat
    · simp only [hin, true_or, true_iff]
      omega
    · have hon := toNat_sub_on (Nat.le_of_not_lt hin)
      simp only [hin, false_or]
      omega

end Stretch

namespace Block

variable {m : Memory} {a u : UInt32}

/-- Collecting instructions gives a whole stretch if there is fuel up to an unmapped address. -/
theorem stretch_collect (hm : m.mappedBytes < 2 ^ 32) (hu : ¬m.Mapped u) (fuel : Nat)
    (soFar : List Instruction) (hfuel : (u - a).toNat < fuel) :
    ∃ is e?, collect m soFar fuel a = (soFar.reverse ++ is, e?) ∧ Stretch m a is e? := by
  induction fuel generalizing a soFar with
  | zero => exact absurd hfuel (Nat.not_lt_zero _)
  | succ fuel ih =>
    unfold collect
    cases hi : Instruction.decode m a with
    | error e => exact ⟨[], some e, by rw [List.append_nil], .fails hi⟩
    | ok i =>
      dsimp only
      by_cases hlast : isLast i = true
      · rw [if_pos hlast, List.reverse_cons]
        exact ⟨[i], none, rfl, .ends hi hlast⟩
      · rw [if_neg hlast]
        have hcloser := closer_of_decode hm hu hi
        obtain ⟨is, e?, hcollect, hrest⟩ := ih (a := i.next) (i :: soFar) (by omega)
        refine ⟨i :: is, e?, ?_, .goes hi (by simpa using hlast) hrest⟩
        rw [hcollect, List.reverse_cons, List.append_assoc, List.singleton_append]

/-- Close behind every address another one is unmapped. -/
theorem exists_unmapped_behind (hm : m.mappedBytes < 2 ^ 32) (a : UInt32) :
    ∃ u, ¬m.Mapped u ∧ (u - a).toNat ≤ m.mappedBytes := by
  obtain ⟨j, hj, hu⟩ := Memory.exists_not_mapped_near hm a
  refine ⟨_, hu, ?_⟩
  have hsub : a + j.toUInt32 - a = j.toUInt32 := by
    rw [UInt32.add_comm, UInt32.add_sub_cancel]
  have hsize : j.toUInt32.toNat = j := Nat.mod_eq_of_lt (by omega)
  rw [hsub, hsize]
  exact hj

@[simp] theorem start_decode (m : Memory) (a : UInt32) : (decode m a).start = a := rfl

/-- **A block holds the whole stretch from its start.** -/
theorem stretch_decode (hm : m.mappedBytes < 2 ^ 32) (a : UInt32) :
    Stretch m a (decode m a).instructions (decode m a).error? := by
  obtain ⟨u, hu, hnear⟩ := exists_unmapped_behind hm a
  obtain ⟨is, e?, hcollect, hstretch⟩ :=
    stretch_collect hm hu (m.mappedBytes + 1) [] (Nat.lt_succ_of_le hnear)
  have hdecode : decode m a = ⟨a, is, e?⟩ := by
    rw [decode, hcollect]
    rfl
  rwa [hdecode]

/-- A block has no more instructions than there are mapped bytes. -/
theorem length_decode_le (hm : m.mappedBytes < 2 ^ 32) (a : UInt32) :
    (decode m a).instructions.length ≤ m.mappedBytes := by
  obtain ⟨u, hu, hnear⟩ := exists_unmapped_behind hm a
  exact ((stretch_decode hm a).length_le hm hu).trans hnear

/-- Whether an instruction of the block takes the byte at an address. -/
def Holds (b : Block) (a : UInt32) : Prop :=
  ∃ i ∈ b.instructions, a - i.address < i.next - i.address

instance (b : Block) (a : UInt32) : Decidable (b.Holds a) :=
  inferInstanceAs (Decidable (∃ i ∈ b.instructions, a - i.address < i.next - i.address))

/-- Where a block ends behind its start, `contains` tells the bytes up to there. -/
theorem contains_iff_sub {b : Block} (h : b.start ≤ b.finish) :
    b.contains a = true ↔ a - b.start < b.finish - b.start := by
  rw [UInt32.le_iff_toNat_le] at h
  have hb := b.finish.toNat_lt
  have ha := a.toNat_lt
  simp only [contains, Bool.and_eq_true, decide_eq_true_eq, UInt32.le_iff_toNat_le,
    UInt32.lt_iff_toNat_lt, UInt32.toNat_sub]
  omega

/-- **`contains` tells the bytes of a block** that does not reach the top of the address space. -/
theorem contains_decode_iff (hm : m.mappedBytes < 2 ^ 32) {start : UInt32}
    (h : start ≤ (decode m start).finish) :
    (decode m start).contains a = true ↔ (decode m start).Holds a := by
  rw [contains_iff_sub h]
  exact ((stretch_decode hm start).takes_iff hm a).symm

/-- A block has the bytes that `contains` tells. -/
theorem holds_of_contains (hm : m.mappedBytes < 2 ^ 32) {start : UInt32}
    (h : (decode m start).contains a = true) : (decode m start).Holds a := by
  have hbetween := h
  simp only [contains, Bool.and_eq_true, decide_eq_true_eq] at hbetween
  exact (contains_decode_iff hm (UInt32.le_of_lt
    (UInt32.lt_of_le_of_lt hbetween.1 hbetween.2))).mp h

/-- A block is what its memory holds. -/
structure Faithful (m : Memory) (b : Block) : Prop where
  /-- The first instruction stands at the start. -/
  first : ∀ i, b.instructions.head? = some i → i.address = b.start
  /-- Every instruction is what its address decodes to. -/
  decoded : ∀ i ∈ b.instructions, Instruction.decode m i.address = .ok i
  /-- Every instruction stands right behind the one before it. -/
  linked : b.instructions.IsChain fun i j => j.address = i.next
  /-- Only the last instruction can end or return. -/
  onward : ∀ i ∈ b.instructions.dropLast, isLast i = false
  /-- There is an error unless the last instruction ends or returns. -/
  sound : b.error? = none ↔ ∃ i, b.instructions.getLast? = some i ∧ isLast i = true
  /-- The error is that of the address behind the block. -/
  failed : ∀ e, b.error? = some e → Instruction.decode m b.finish = .error e

/-- **A block is what its memory holds.** -/
theorem faithful_decode (hm : m.mappedBytes < 2 ^ 32) (a : UInt32) : (decode m a).Faithful m where
  first := (stretch_decode hm a).head
  decoded := (stretch_decode hm a).decoded
  linked := (stretch_decode hm a).linked
  onward := (stretch_decode hm a).onward
  sound := (stretch_decode hm a).error_eq_none_iff
  failed := (stretch_decode hm a).failed

end Block

end Cartridge
