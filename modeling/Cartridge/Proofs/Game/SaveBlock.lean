import Cartridge.Game.Live
import Cartridge.Proofs.Memory.Block
import Cartridge.Proofs.Memory.LittleEndian
import Cartridge.Script.Context

/-!
# SaveBlock — the save block in a context and in a running game

A context takes a copy of the flags and variables of the save block, the flags in one read; a running
game looks for single bits of them.  Both see the same (`Context.ofMemory_snapshot`).
-/

namespace Cartridge

variable {m : Memory} {layout : Layout} {pc save : UInt32} {c : Context}

/-- A save block is loaded unless its address is zero. -/
theorem LiveGame.saveBlock1?_eq (hsave : m.readU32 layout.saveBlock1 = .ok save) :
    (LiveGame.mk m layout).saveBlock1? = if save = 0 then none else some save := by
  have hword : (LiveGame.mk m layout).word? layout.saveBlock1 = some save :=
    congrArg Except.toOption hsave
  rw [saveBlock1?, hword, Option.filter_some]
  by_cases hzero : save = 0 <;> simp [hzero]

namespace Context

/-- A snapshot of a loaded save block: a bit vector of the bytes of the flags, and the variables as
they are read. -/
structure Snapshot (m : Memory) (layout : Layout) (save : UInt32) (c : Context) : Prop where
  flags : ∃ bytes, m.read (save + layout.flagsOffset) (flagCount / 8) = .ok bytes ∧
    c.registers.flags = BitVec.ofNat flagCount (Memory.littleEndian bytes)
  vars : ∀ i (h : i < savedVarCount), m.readU16 (save + layout.varsOffset + 2 * i.toUInt32) =
    .ok (c.registers.vars.get ⟨i, Nat.lt_add_right _ h⟩)

/-- **A context is made** blank if no save block is loaded, and from a snapshot of it otherwise. -/
theorem cases_of_ofMemory (h : ofMemory m layout pc = .ok c) :
    ∃ save, m.readU32 layout.saveBlock1 = .ok save ∧
      (save = 0 ∧ c = blank pc ∨ save ≠ 0 ∧ Snapshot m layout save c) := by
  obtain ⟨save, hsave, h⟩ := bind_eq_ok_iff.mp h
  refine ⟨save, hsave, ?_⟩
  split at h
  · next hzero =>
    cases h
    exact Or.inl ⟨hzero, rfl⟩
  · next hloaded =>
    obtain ⟨flags, hflags, h⟩ := bind_eq_ok_iff.mp h
    obtain ⟨vars, hvars, h⟩ := bind_eq_ok_iff.mp h
    obtain ⟨bytes, hbytes, hlittle⟩ := bind_eq_ok_iff.mp hflags
    obtain ⟨hlength, hvars⟩ := List.forall₂_iff_get.mp (mapM_eq_ok_iff.mp hvars)
    cases h
    cases hlittle
    refine Or.inr ⟨hloaded, ⟨bytes, hbytes, rfl⟩, fun i hi => ?_⟩
    have hlt : i < vars.length := by rwa [← hlength, List.length_range]
    have hread := hvars i (by rwa [List.length_range]) hlt
    rw [List.get_eq_getElem, List.getElem_range] at hread
    rw [hread, List.get_eq_getElem, Except.ok.injEq]
    refine Eq.trans ?_ (Vector.getElem_ofFn (Nat.lt_add_right _ hi)).symm
    rw [List.getElem?_eq_getElem hlt, Option.getD_some]

/-- **A context can be made** from a save block that is all there. -/
theorem exists_ofMemory (hm : m.Separate) (hsave : m.readU32 layout.saveBlock1 = .ok save)
    (hflags : (m.read (save + layout.flagsOffset) (flagCount / 8)).isOk)
    (hvars : (m.read (save + layout.varsOffset) (2 * savedVarCount)).isOk) (pc : UInt32) :
    ∃ c, ofMemory m layout pc = .ok c := by
  obtain ⟨flags, hflags⟩ := exists_eq_ok_of_isOk hflags
  obtain ⟨vars, hvars⟩ := exists_eq_ok_of_isOk hvars
  have hvar : ∀ i ∈ List.range savedVarCount,
      m.readU16 (save + layout.varsOffset + 2 * i.toUInt32) =
        .ok (Memory.littleEndian ((vars.drop (2 * i)).take 2)).toUInt16 := by
    intro i hi
    have hlt := List.mem_range.mp hi
    have hoffset : 2 * i.toUInt32 = (2 * i).toUInt32 := by
      apply UInt32.toNat_inj.mp
      simp
    rw [hoffset, Memory.readU16, Memory.readNat,
      Memory.read_within hm hvars (by omega) (by omega)]
    rfl
  have hall := mapM_eq_ok_iff.mpr (List.forall₂_map_right_iff.mpr (List.forall₂_same.mpr hvar))
  have hnumber : m.readNat (save + layout.flagsOffset) (flagCount / 8) =
      .ok (Memory.littleEndian flags) := by
    rw [Memory.readNat, hflags]
    rfl
  rw [ofMemory, hsave]
  by_cases hzero : save = 0
  · exact ⟨blank pc, if_pos hzero⟩
  · exact ⟨_, (if_neg hzero).trans (bind_eq_ok_iff.mpr
      ⟨_, hnumber, bind_eq_ok_iff.mpr ⟨_, hall, rfl⟩⟩)⟩

/-! ## Flags -/

/-- The bytes of flags hold eight flags each. -/
theorem byteOffset_eq (id : UInt16) : (id >>> 3).toUInt32 = (id.toNat / 8).toUInt32 := by
  apply UInt32.toNat_inj.mp
  have := id.toNat_lt
  simp [Nat.shiftRight_eq_div_pow]
  omega

/-- A flag of a snapshot is the bit of its byte in the save block. -/
theorem Snapshot.flag?_eq (hm : m.Separate) (hsave : m.readU32 layout.saveBlock1 = .ok save)
    (hloaded : save ≠ 0) (h : Snapshot m layout save c) {id : UInt16} (hid : id.toNat < flagCount) :
    (LiveGame.mk m layout).flag? id = some (c.flag id) := by
  obtain ⟨bytes, hbytes, hflags⟩ := h.flags
  have hlength := Memory.length_of_read hbytes
  have hlt : id.toNat / 8 < bytes.length := by
    rw [hlength]
    simp only [flagCount] at hid ⊢
    omega
  have hbyte : m.readU8 (save + layout.flagsOffset + (id >>> 3).toUInt32) =
      .ok bytes[id.toNat / 8] := by
    rw [byteOffset_eq]
    exact Memory.readU8_within hm hbytes (List.getElem?_eq_getElem hlt)
  have hflag : c.flag id = bytes[id.toNat / 8].toNat.testBit (id.toNat % 8) := by
    rw [flag, Location.flag?, dif_pos hid, hflags]
    change (BitVec.ofNat _ _).getLsbD id.toNat = _
    rw [BitVec.getLsbD_ofNat, decide_eq_true hid, Bool.true_and, Memory.testBit_littleEndian,
      List.getElem?_eq_getElem hlt, Option.getD_some]
  simp only [LiveGame.flag?, LiveGame.saveBlock1?_eq hsave, if_neg hloaded, LiveGame.byte?,
    Option.bind_eq_bind, Option.bind_some, hbyte, Except.toOption, hflag]
  rfl

/-! ## Variables -/

/-- A saved variable of a snapshot is made of its two bytes in the save block. -/
theorem Snapshot.bytes_of_var (hm : m.Separate) (h : Snapshot m layout save c) {i : Nat}
    (hi : i < savedVarCount) : ∃ low high,
      m.readU8 (save + layout.varsOffset + 2 * i.toUInt32) = .ok low ∧
      m.readU8 (save + layout.varsOffset + 2 * i.toUInt32 + 1) = .ok high ∧
      (c.var (savedVarBase + i.toUInt16)).toNat = low.toNat + 256 * high.toNat := by
  have hid : Location.var? (savedVarBase + i.toUInt16) = some ⟨i, Nat.lt_add_right _ hi⟩ := by
    rw [← Location.var?_varId, Location.varId, if_pos hi]
  rw [var, hid]
  exact Memory.readU8_of_readU16 hm (h.vars i hi)

/-! ## No save block -/

theorem flag_blank (pc : UInt32) (id : UInt16) : (blank pc).flag id = false := by
  rw [flag]
  split
  · exact BitVec.getLsbD_zero
  · rfl

theorem var_blank (pc : UInt32) (id : UInt16) : (blank pc).var id = 0 := by
  rw [var]
  split
  · next i _ => exact Vector.getElem_replicate i.isLt
  · rfl

/-! ## Both views -/

/-- **A context made from memory** and the running game see the same save block.  If one is loaded,
the game knows every flag, with the value that the context has, and the context has every saved
variable as it stands there, the low byte first.  If none is loaded, the context is all zero and the
game knows no flag.  No two regions may overlap, and an empty region inside another one counts as
overlapping it (`Memory.Separate`): the context reads a whole block through such a region, a single
flag or variable behind it cannot be read. -/
theorem ofMemory_snapshot (hm : m.Separate) (h : ofMemory m layout pc = .ok c) :
    ∃ save, m.readU32 layout.saveBlock1 = .ok save ∧
      (save ≠ 0 →
        (∀ id : UInt16, id.toNat < flagCount →
          (LiveGame.mk m layout).flag? id = some (c.flag id)) ∧
        ∀ i < savedVarCount, ∃ low high,
          m.readU8 (save + layout.varsOffset + 2 * i.toUInt32) = .ok low ∧
          m.readU8 (save + layout.varsOffset + 2 * i.toUInt32 + 1) = .ok high ∧
          (c.var (savedVarBase + i.toUInt16)).toNat = low.toNat + 256 * high.toNat) ∧
      (save = 0 → (∀ id, c.flag id = false) ∧ (∀ id, c.var id = 0) ∧
        ∀ id, (LiveGame.mk m layout).flag? id = none) := by
  obtain ⟨save, hsave, ⟨rfl, rfl⟩ | ⟨hloaded, hsnapshot⟩⟩ := cases_of_ofMemory h
  · refine ⟨0, hsave, fun hne => absurd rfl hne, fun _ => ⟨flag_blank pc, var_blank pc, ?_⟩⟩
    intro id
    rw [LiveGame.flag?, LiveGame.saveBlock1?_eq hsave, if_pos rfl]
    rfl
  · refine ⟨save, hsave, fun _ => ⟨?_, ?_⟩, fun hzero => absurd hzero hloaded⟩
    · exact fun id hid => hsnapshot.flag?_eq hm hsave hloaded hid
    · exact fun i hi => hsnapshot.bytes_of_var hm hi

/-- A save block behind a pointer in another region: the flags 16 and 23 are set, and the fourth
variable is 355. -/
def slot : Memory :=
  (Memory.empty.map Memory.internalBase #[0, 0, 0, 2]).map Memory.workBase
    (((Array.replicate 800 0).set! 2 0x81).set! 294 0x63 |>.set! 295 1)

/-- The save block of the slot has its flags first and its variables right behind them. -/
def slotLayout : Layout where
  saveBlock1 := Memory.internalBase
  flagsOffset := 0
  varsOffset := 288

theorem separate_slot : slot.Separate :=
  .of_pairwise (by decide +kernel) (by decide +kernel)

theorem ofMemory_snapshot_slot :
    slot.Separate ∧ ∃ c, ofMemory slot slotLayout 0x08000000 = .ok c ∧
      c.flag 16 = true ∧ c.flag 17 = false ∧ c.flag 23 = true ∧ (c.var 0x4003).toNat = 355 := by
  have hblock : slot.readU32 slotLayout.saveBlock1 = .ok 0x02000000 := by decide +kernel
  obtain ⟨c, hc⟩ :=
    exists_ofMemory separate_slot hblock (by decide +kernel) (by decide +kernel) 0x08000000
  obtain ⟨save, hsave, hloaded, -⟩ := ofMemory_snapshot separate_slot hc
  obtain rfl : save = 0x02000000 := Except.ok.inj (hsave.symm.trans hblock)
  obtain ⟨hflags, hvars⟩ := hloaded (by decide)
  have hflag (id : UInt16) (value : Bool) (hid : id.toNat < flagCount)
      (h : (LiveGame.mk slot slotLayout).flag? id = some value) : c.flag id = value :=
    Option.some.inj ((hflags id hid).symm.trans h)
  obtain ⟨low, high, hlow, hhigh, hvar⟩ := hvars 3 (by decide)
  obtain rfl : low = 0x63 := Except.ok.inj (hlow.symm.trans (by decide +kernel))
  obtain rfl : high = 1 := Except.ok.inj (hhigh.symm.trans (by decide +kernel))
  rw [show savedVarBase + (3 : Nat).toUInt16 = 0x4003 by decide] at hvar
  exact ⟨separate_slot, c, hc, hflag 16 true (by decide) (by decide +kernel),
    hflag 17 false (by decide) (by decide +kernel), hflag 23 true (by decide) (by decide +kernel),
    hvar.trans (by decide)⟩

end Context

end Cartridge
