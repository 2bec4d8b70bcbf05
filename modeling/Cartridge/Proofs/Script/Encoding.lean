import Cartridge.Proofs.Memory.Held
import Cartridge.Proofs.Memory.Ordered
import Cartridge.Proofs.Script.Extent
import Mathlib.Data.List.Forall2

/-!
# Encoding — an instruction and its bytes

Decoding gives instructions of the instruction set only (`Instruction.Regular`), and each is encoded
by the bytes that it was decoded from.  Conversely a regular instruction is decoded from its bytes
wherever they stand in a row (`Instruction.decode_of_stands`).  Both together: decoding is the
inverse of encoding (`Instruction.decode_inverts_encode`).
-/

namespace Cartridge

namespace Command

/-- An opcode has the row that was written for it. -/
theorem ofOpcode?_eq_some {opcode : UInt8} {c : Command} (h : ofOpcode? opcode = some c) :
    c ∈ all ∧ c.opcode = opcode := by
  have hfind : all.find? (·.opcode.toNat == opcode.toNat) = some c :=
    (Vector.getElem_ofFn opcode.toNat_lt).symm.trans h
  have hsame := List.find?_some (p := fun c : Command => c.opcode.toNat == opcode.toNat) hfind
  exact ⟨List.mem_of_find?_eq_some hfind, UInt8.toNat_inj.mp (beq_iff_eq.mp hsame)⟩

theorem length_operands_le {c : Command} (h : c ∈ all) : c.operands.length ≤ 8 := by
  have hall : (all.all fun c => decide (c.operands.length ≤ 8)) = true := by decide +kernel
  simpa using List.all_eq_true.mp hall c h

end Command

theorem Operand.size_pos (f : Operand) : 0 < f.size := by
  cases f <;> decide

theorem Operand.size_le (f : Operand) : f.size ≤ 4 := by
  cases f <;> decide

namespace Instruction

open Memory (Apart Ordered Spells Stands toLittleEndian)

variable {m : Memory} {a next : UInt32} {formats : List Operand} {values : List UInt32}
  {i : Instruction}

/-! ## Operands -/

/-- The operands as bytes. -/
def operandBytes (formats : List Operand) (values : List UInt32) : List UInt8 :=
  (formats.zip values).flatMap fun (f, v) => toLittleEndian f.size v.toNat

/-- Every operand has a value that fits its width. -/
def Fits (formats : List Operand) (values : List UInt32) : Prop :=
  List.Forall₂ (fun f v => v.toNat < 256 ^ f.size) formats values

theorem encode_eq (i : Instruction) :
    i.encode = i.command.opcode :: operandBytes i.formats i.operands := rfl

theorem operandBytes_cons (f : Operand) (formats : List Operand) (v : UInt32)
    (values : List UInt32) : operandBytes (f :: formats) (v :: values) =
      toLittleEndian f.size v.toNat ++ operandBytes formats values := by
  rw [operandBytes, List.zip_cons_cons, List.flatMap_cons]
  rfl

theorem length_operandBytes_le (formats : List Operand) (values : List UInt32) :
    (operandBytes formats values).length ≤ 4 * formats.length := by
  induction formats generalizing values with
  | nil => simp [operandBytes]
  | cons f rest ih =>
    cases values with
    | nil => simp [operandBytes]
    | cons v values =>
      have := ih values
      have := f.size_le
      rw [operandBytes_cons, List.length_append, Memory.length_toLittleEndian, List.length_cons]
      omega

/-- What is read as an operand is its value. -/
theorem toNat_of_fits {value : Nat} {f : Operand} (h : value < 256 ^ f.size) :
    value.toUInt32.toNat = value := by
  have hwidth : 256 ^ f.size ≤ 256 ^ 4 := Nat.pow_le_pow_right (by decide) f.size_le
  exact Nat.mod_eq_of_lt (by omega)

/-- Operands fit, and are encoded by the bytes that they were read from. -/
theorem spells_of_readOperands (hm : m.Apart)
    (h : (readOperands m formats).run a = .ok (values, next)) :
    Fits formats values ∧ m.Spells a (operandBytes formats values) ∧
      next = a + (operandBytes formats values).length.toUInt32 := by
  induction formats generalizing a values with
  | nil =>
    cases h
    exact ⟨.nil, by simp [operandBytes], by simp [operandBytes]⟩
  | cons f formats ih =>
    obtain ⟨value, others, hvalue, hothers, rfl⟩ := readOperands_cons_eq_ok_iff.mp h
    obtain ⟨hfits, hspells⟩ := Memory.spells_of_readNat hm hvalue
    obtain ⟨hallFit, hallSpell, hnext⟩ := ih hothers
    rw [operandBytes_cons, toNat_of_fits hfits]
    refine ⟨.cons (by rwa [toNat_of_fits hfits]) hallFit, hspells.append ?_, ?_⟩
    · rwa [Memory.length_toLittleEndian]
    · rw [hnext, add_toUInt32, List.length_append, Memory.length_toLittleEndian]

/-- Operands are read back from their bytes in a row. -/
theorem readOperands_of_stands {r : Region} {start : Nat} (hm : m.Ordered)
    (hfits : Fits formats values) (h : m.Stands r start (operandBytes formats values)) :
    (readOperands m formats).run (r.base + start.toUInt32) = .ok (values,
      r.base + start.toUInt32 + (operandBytes formats values).length.toUInt32) := by
  induction hfits generalizing start with
  | nil => simp [readOperands, operandBytes]; rfl
  | @cons f v formats values hfit _ ih =>
    rw [operandBytes_cons] at h ⊢
    have hvalue := Memory.readNat_of_stands hm f.size_pos hfit h.left
    have hothers := ih h.right
    rw [Memory.length_toLittleEndian, ← add_toUInt32] at hothers
    refine readOperands_cons_eq_ok_iff.mpr ⟨v.toNat, values, hvalue, ?_, by simp⟩
    rw [hothers, List.length_append, Memory.length_toLittleEndian, add_toUInt32]

/-! ## Instructions -/

/-- An instruction that the instruction set has: its opcode is that of its command, its formats are
those of the command or of the variant that operand 0 picks, and its operands fit. -/
structure Regular (i : Instruction) : Prop where
  command : Command.ofOpcode? i.command.opcode = some i.command
  formats : i.formats = if i.command.action = .transfer .battle
    then (BattleKind.ofByte (i.operand 0).toUInt8).operands else i.command.operands
  operands : Fits i.formats i.operands

theorem Regular.length_encode_lt (h : i.Regular) : i.encode.length < 2 ^ 32 := by
  have hformats : i.formats.length ≤ 8 := by
    rw [h.formats]
    split
    · generalize BattleKind.ofByte (i.operand 0).toUInt8 = kind
      cases kind <;> decide
    · exact Command.length_operands_le (Command.ofOpcode?_eq_some h.command).1
  have := length_operandBytes_le i.formats i.operands
  rw [encode_eq, List.length_cons]
  omega

/-- The formats in force are those of the command, or of the variant in the byte behind the opcode.
-/
theorem formatsAt_eq_ok_iff {c : Command} : formatsAt m c a = .ok formats ↔
    if c.action = .transfer .battle
    then ∃ kind, m.readU8 (a + 1) = .ok kind ∧ formats = (BattleKind.ofByte kind).operands
    else formats = c.operands := by
  rw [formatsAt]
  split
  · cases m.readU8 (a + 1) with
    | error e => simp [bind, Except.bind]
    | ok kind => simp [bind, Except.bind, pure, Except.pure, eq_comm]
  · simp [pure, Except.pure, eq_comm]

/-- The variant of a trainer battle is its operand 0, read a second time. -/
theorem operand_eq_of_readOperands {kind : BattleKind} {i : Instruction}
    (h : (readOperands m kind.operands).run a = .ok (i.operands, next)) :
    m.readU8 a = .ok (i.operand 0).toUInt8 := by
  obtain ⟨value, others, hvalue, -, hoperands⟩ := readOperands_cons_eq_ok_iff.mp h
  refine Memory.readU8_eq_ok_iff.mpr ⟨value, hvalue, ?_⟩
  rw [operand, hoperands]
  simp

/-- **Decoding gives regular instructions**, and each is encoded by the bytes that it was decoded
from. -/
theorem spells_of_decode (hm : m.Apart) (h : decode m a = .ok i) :
    i.Regular ∧ m.Spells a i.encode ∧ i.next = a + i.encode.length.toUInt32 := by
  obtain ⟨opcode, hopcode, hcommand, hformats, hoperands, -⟩ := decode_eq_ok_iff.mp h
  obtain ⟨-, hsame⟩ := Command.ofOpcode?_eq_some hcommand
  obtain ⟨hfits, hspells, hnext⟩ := spells_of_readOperands hm hoperands
  refine ⟨⟨hsame ▸ hcommand, ?_, hfits⟩, ?_, ?_⟩
  · rw [formatsAt_eq_ok_iff] at hformats
    split at hformats
    · next hbattle =>
      obtain ⟨kind, hkind, hvariant⟩ := hformats
      rw [hvariant] at hoperands
      rw [operand_eq_of_readOperands hoperands] at hkind
      rw [if_pos hbattle, hvariant, Except.ok.inj hkind]
    · next hplain => rw [if_neg hplain, hformats]
  · obtain ⟨value, hvalue, hbyte⟩ := Memory.readU8_eq_ok_iff.mp hopcode
    have hfirst : m.Spells a [i.command.opcode] := by
      have := (Memory.spells_of_readNat hm hvalue).2
      rwa [hsame, ← hbyte]
    rw [encode_eq]
    exact hfirst.append hspells
  · rw [hnext, encode_eq, List.length_cons, Nat.add_comm, ← add_toUInt32]
    rfl

/-- **A regular instruction is decoded from its bytes in a row**, whatever stands around them. -/
theorem decode_of_stands {r : Region} {start : Nat} (hm : m.Ordered) (hi : i.Regular)
    (h : m.Stands r start i.encode) : decode m (r.base + start.toUInt32) = .ok { i with
      address := r.base + start.toUInt32
      next := r.base + start.toUInt32 + i.encode.length.toUInt32 } := by
  have hsplit : i.encode = toLittleEndian 1 i.command.opcode.toNat ++
      operandBytes i.formats i.operands := by
    simp [encode_eq, toLittleEndian]
  rw [hsplit] at h
  have hvalue := Memory.readNat_of_stands hm Nat.one_pos (i.command.opcode.toNat_lt) h.left
  have hoperands := readOperands_of_stands hm hi.operands h.right
  rw [Memory.length_toLittleEndian, ← add_toUInt32] at hoperands
  have hformats : formatsAt m i.command (r.base + start.toUInt32) = .ok i.formats := by
    rw [formatsAt_eq_ok_iff]
    have hi' := hi.formats
    split at hi'
    · next hbattle =>
      rw [hi'] at hoperands
      rw [if_pos hbattle]
      exact ⟨_, operand_eq_of_readOperands hoperands, hi'⟩
    · next hplain => rwa [if_neg hplain]
  refine decode_eq_ok_iff.mpr ⟨i.command.opcode, ?_, hi.command, hformats, ?_, rfl⟩
  · exact Memory.readU8_eq_ok_iff.mpr ⟨_, hvalue, by simp⟩
  · rw [hsplit, List.length_append, Memory.length_toLittleEndian, ← add_toUInt32]
    exact hoperands

/-- **Decoding is the inverse of encoding.**  In a memory whose regions lie apart, the bytes from
the address on are those of the instruction, which is regular and as long as they are; and wherever
else these bytes stand in a row, the same instruction is decoded there. -/
theorem decode_inverts_encode (hm : m.Apart) (h : decode m a = .ok i) :
    m.Spells a i.encode ∧ i.Regular ∧ i.size.toNat = i.encode.length ∧ i.next = a + i.size ∧
      ∀ (m' : Memory) (r : Region) (start : Nat), m'.Ordered → m'.Stands r start i.encode →
        decode m' (r.base + start.toUInt32) = .ok { i with
          address := r.base + start.toUInt32
          next := r.base + start.toUInt32 + i.size } := by
  obtain ⟨hregular, hspells, hnext⟩ := spells_of_decode hm h
  have hsize : i.size = i.encode.length.toUInt32 := by
    rw [size, hnext, address_of_decode h, UInt32.add_comm, UInt32.add_sub_cancel]
  refine ⟨hspells, hregular, ?_, by rw [hsize, hnext], fun m' r start hm' hstands => ?_⟩
  · rw [hsize]
    exact Nat.mod_eq_of_lt hregular.length_encode_lt
  · rw [hsize]
    exact decode_of_stands hm' hregular hstands

/-- A battle whose opcode is the last byte of a region, right below the region of its operands. -/
def splitBattle : Memory :=
  ⟨[⟨0x02000000, #[0x5C]⟩, ⟨0x02000001, #[3, 7, 1, 2, 0, 0x20, 0, 0, 8]⟩]⟩

/-- The same battle in the middle of a region. -/
def wholeBattle : Region :=
  ⟨0x08000000, #[0, 0x5C, 3, 7, 1, 2, 0, 0x20, 0, 0, 8, 2]⟩

/-- The battle with the formats of its variant, which has one pointer. -/
def battle (address : UInt32) : Instruction where
  address := address
  command := ⟨0x5C, "TrainerBattle", "trainerbattle", [.byte, .word, .word, .pointer, .pointer],
    .transfer .battle, .plain⟩
  formats := [.byte, .word, .word, .pointer]
  operands := [3, 0x107, 2, 0x08000020]
  next := address + 10

theorem decode_inverts_encode_battle :
    splitBattle.Apart ∧ decode splitBattle 0x02000000 = .ok (battle 0x02000000) ∧
    Memory.Ordered ⟨[wholeBattle]⟩ ∧
    Memory.Stands ⟨[wholeBattle]⟩ wholeBattle 1 (battle 0x02000000).encode ∧
    decode ⟨[wholeBattle]⟩ 0x08000001 = .ok (battle 0x08000001) := by
  have hm : splitBattle.Apart := by
    refine ⟨by decide, fun r hr s hs a => ?_⟩
    simp only [splitBattle, List.mem_cons, List.not_mem_nil, or_false] at hr hs
    rcases hr with rfl | rfl <;> rcases hs with rfl | rfl <;>
      simp [Memory.offset, UInt32.toNat_sub] <;> omega
  have h : decode splitBattle 0x02000000 = .ok (battle 0x02000000) := by decide +kernel
  have hordered : Memory.Ordered ⟨[wholeBattle]⟩ := List.pairwise_singleton _ _
  have hstands : Memory.Stands ⟨[wholeBattle]⟩ wholeBattle 1 (battle 0x02000000).encode :=
    ⟨List.mem_singleton.mpr rfl, by decide, by decide, by decide⟩
  obtain ⟨-, -, -, -, hagain⟩ := decode_inverts_encode hm h
  have hthere := hagain _ _ 1 hordered hstands
  have haddress : wholeBattle.base + (1 : Nat).toUInt32 = 0x08000001 := by decide
  have hsame : ({ battle 0x02000000 with
      address := 0x08000001
      next := 0x08000001 + (battle 0x02000000).size } : Instruction) = battle 0x08000001 := by
    decide +kernel
  rw [haddress, hsame] at hthere
  exact ⟨hm, h, hordered, hstands, hthere⟩

end Instruction

end Cartridge
