import Cartridge.Proofs.Memory.Mapped
import Cartridge.Script.Instruction

/-!
# Extent — the bytes that an instruction takes

A decoded instruction takes its opcode and its operands, all of them mapped, and the next one stands
right behind.
-/

namespace Cartridge

namespace Instruction

open Memory (Mapped)

variable {m : Memory}

/-- All of the `n` addresses from `a` on are mapped, and `next` stands right behind. -/
structure Extent (m : Memory) (a : UInt32) (n : Nat) (next : UInt32) : Prop where
  next_eq : next = a + n.toUInt32
  mapped : ∀ j < n, m.Mapped (a + j.toUInt32)

theorem Extent.append {a b next : UInt32} {n k : Nat} (h : Extent m a n b)
    (h' : Extent m b k next) : Extent m a (n + k) next where
  next_eq := by rw [h'.next_eq, h.next_eq, add_toUInt32]
  mapped j hj := by
    rcases Nat.lt_or_ge j n with hlt | hge
    · exact h.mapped j hlt
    · have := h'.mapped (j - n) (by omega)
      rwa [h.next_eq, add_toUInt32, Nat.add_sub_cancel' hge] at this

/-- Behind the bytes of an instruction, an address that is not mapped is closer. -/
theorem Extent.closer {a next u : UInt32} {n : Nat} (h : Extent m a n next) (hn : 0 < n)
    (hu : ¬m.Mapped u) : (u - next).toNat < (u - a).toNat := by
  have hreach : n ≤ (u - a).toNat := by
    by_contra hlt
    have hmapped := h.mapped (u - a).toNat (by omega)
    rw [Nat.toUInt32_eq, UInt32.ofNat_toNat, UInt32.add_comm, UInt32.sub_add_cancel] at hmapped
    exact hu hmapped
  have hlt := (u - a).toNat_lt
  have hsize : n.toUInt32.toNat = n := Nat.mod_eq_of_lt (by omega)
  have hsub : u - next = (u - a) - n.toUInt32 := by
    rw [h.next_eq]
    simp only [UInt32.sub_eq_add_neg, UInt32.neg_add, UInt32.add_assoc]
  rw [hsub, UInt32.toNat_sub_of_le _ _ (by rw [UInt32.le_iff_toNat_le, hsize]; exact hreach), hsize]
  omega

theorem extent_readNat (hm : m.mappedBytes < 2 ^ 32) {a : UInt32} {width value : Nat}
    (h : m.readNat a width = .ok value) : Extent m a width (a + width.toUInt32) :=
  ⟨rfl, (Memory.mapped_of_readNat hm h).2⟩

/-- Operands follow each other. -/
theorem readOperands_cons_eq_ok_iff {f : Operand} {formats : List Operand} {a next : UInt32}
    {values : List UInt32} : (readOperands m (f :: formats)).run a = .ok (values, next) ↔
      ∃ value rest, m.readNat a f.size = .ok value ∧
        (readOperands m formats).run (a + f.size.toUInt32) = .ok (rest, next) ∧
        values = value.toUInt32 :: rest := by
  rw [readOperands, StateT.run_bind]
  change (Cursor.nat m f.size a >>= _) = _ ↔ _
  rw [Cursor.nat]
  cases m.readNat a f.size with
  | error e => simp [bind, Except.bind]
  | ok value =>
    change ((readOperands m formats).run (a + f.size.toUInt32) >>= _) = _ ↔ _
    cases (readOperands m formats).run (a + f.size.toUInt32) with
    | error e => simp [bind, Except.bind]
    | ok p =>
      obtain ⟨rest, finish⟩ := p
      change Except.ok (value.toUInt32 :: rest, finish) = _ ↔ _
      simp [and_comm, eq_comm]

theorem extent_readOperands (hm : m.mappedBytes < 2 ^ 32) {formats : List Operand}
    {a next : UInt32} {values : List UInt32}
    (h : (readOperands m formats).run a = .ok (values, next)) : ∃ n, Extent m a n next := by
  induction formats generalizing a values with
  | nil =>
    cases h
    exact ⟨0, by simp, by simp⟩
  | cons f rest ih =>
    obtain ⟨value, others, hvalue, hothers, -⟩ := readOperands_cons_eq_ok_iff.mp h
    obtain ⟨n, hn⟩ := ih hothers
    exact ⟨_, (extent_readNat hm hvalue).append hn⟩

/-- **What decoding an address takes**: an opcode of the instruction set, the formats that are in
force, and all operands. -/
theorem decode_eq_ok_iff {a : UInt32} {i : Instruction} : decode m a = .ok i ↔
    ∃ opcode, m.readU8 a = .ok opcode ∧ Command.ofOpcode? opcode = some i.command ∧
      formatsAt m i.command a = .ok i.formats ∧
      (readOperands m i.formats).run (a + 1) = .ok (i.operands, i.next) ∧ i.address = a := by
  constructor
  · intro h
    simp only [decode, bind, Except.bind] at h
    cases ho : m.readU8 a with
    | error e => simp only [ho, Except.mapError] at h; cases h
    | ok opcode =>
      simp only [ho, Except.mapError] at h
      cases hc : Command.ofOpcode? opcode with
      | none => simp only [hc] at h; cases h
      | some command =>
        simp only [hc] at h
        cases hf : formatsAt m command a with
        | error e => simp only [hf] at h; cases h
        | ok formats =>
          simp only [hf] at h
          cases hr : (readOperands m formats).run (a + 1) with
          | error e => simp only [hr] at h; cases h
          | ok p =>
            simp only [hr] at h
            cases h
            exact ⟨opcode, rfl, hc, hf, hr, rfl⟩
  · rintro ⟨opcode, ho, hc, hf, hr, rfl⟩
    simp only [decode, bind, Except.bind, ho, hc, hf, hr, Except.mapError]
    rfl

theorem address_of_decode {a : UInt32} {i : Instruction} (h : decode m a = .ok i) :
    i.address = a := by
  obtain ⟨-, -, -, -, -, ha⟩ := decode_eq_ok_iff.mp h
  exact ha

/-- **A decoded instruction starts where it was looked for and takes mapped bytes**, at least one.
-/
theorem extent_decode (hm : m.mappedBytes < 2 ^ 32) {a : UInt32} {i : Instruction}
    (h : decode m a = .ok i) : i.address = a ∧ ∃ n, 0 < n ∧ Extent m a n i.next := by
  obtain ⟨opcode, hopcode, -, -, hoperands, ha⟩ := decode_eq_ok_iff.mp h
  obtain ⟨value, hvalue, -⟩ := Memory.readU8_eq_ok_iff.mp hopcode
  obtain ⟨n, hn⟩ := extent_readOperands hm hoperands
  exact ⟨ha, 1 + n, Nat.lt_add_right n Nat.one_pos, (extent_readNat hm hvalue).append hn⟩

/-- Behind a decoded instruction, an address that is not mapped is closer. -/
theorem closer_of_decode (hm : m.mappedBytes < 2 ^ 32) {a u : UInt32} {i : Instruction}
    (hu : ¬m.Mapped u) (h : decode m a = .ok i) : (u - i.next).toNat < (u - a).toNat := by
  obtain ⟨-, n, hn, hextent⟩ := extent_decode hm h
  exact hextent.closer hn hu

end Instruction

end Cartridge
