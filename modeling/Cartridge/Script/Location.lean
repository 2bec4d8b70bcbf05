import Cartridge.Script.Access

/-!
# Location — the registers of a script and what is known about them

A script has flags, variables (kept in the save block, or temporary) and banks.  `Registers` holds
their values and `Marks` one bit for each of them; both are read and written by `Location`.  A write
changes what its own location reads and nothing else, and no two locations share an access.
-/

namespace Cartridge

/-- The number of flags. -/
abbrev flagCount : Nat := 0x900

/-- The number of variables kept in the save block. -/
abbrev savedVarCount : Nat := 0x100

/-- The number of temporary variables. -/
abbrev temporaryCount : Nat := 0x1F

/-- Variables of the save block have ids from here on. -/
def savedVarBase : UInt16 := 0x4000

/-- Temporary variables have ids from here on. -/
def temporaryBase : UInt16 := 0x8000

/-- The number of variables of both kinds. -/
abbrev varCount : Nat := savedVarCount + temporaryCount

/-- The number of banks. -/
abbrev bankCount : Nat := 4

/-- A register: a flag, a variable (those of the save block come first) or a bank. -/
inductive Location where
  | flag (i : Fin flagCount)
  | var (i : Fin varCount)
  | bank (i : Fin bankCount)
deriving DecidableEq

namespace Location

/-- The flag with an id. -/
def flag? (id : UInt16) : Option (Fin flagCount) :=
  if h : id.toNat < flagCount then some ⟨id.toNat, h⟩ else none

/-- Whether the id is that of a saved variable. -/
def isSavedVar (id : UInt16) : Bool :=
  savedVarBase.toNat ≤ id.toNat && id.toNat < savedVarBase.toNat + savedVarCount

/-- Whether the id is that of a temporary variable. -/
def isTemporary (id : UInt16) : Bool :=
  temporaryBase.toNat ≤ id.toNat && id.toNat < temporaryBase.toNat + temporaryCount

/-- The variable with an id. -/
def var? (id : UInt16) : Option (Fin varCount) :=
  if h : savedVarBase.toNat ≤ id.toNat ∧ id.toNat < savedVarBase.toNat + savedVarCount then
    some ⟨id.toNat - savedVarBase.toNat, by simp only [varCount]; omega⟩
  else if h : temporaryBase.toNat ≤ id.toNat ∧
      id.toNat < temporaryBase.toNat + temporaryCount then
    some ⟨savedVarCount + (id.toNat - temporaryBase.toNat), by simp only [varCount]; omega⟩
  else none

/-- The bank with a number. -/
def bank? (id : UInt8) : Option (Fin bankCount) :=
  if h : id.toNat < bankCount then some ⟨id.toNat, h⟩ else none

/-- The id of a variable. -/
def varId (i : Fin varCount) : UInt16 :=
  if i.val < savedVarCount then savedVarBase + i.val.toUInt16
  else temporaryBase + (i.val - savedVarCount).toUInt16

/-- The access that reads or writes the register. -/
def access : Location → Access
  | flag i => .flag i.val.toUInt16
  | var i => .var (varId i)
  | bank i => .bank i.val.toUInt8

/-- The register that an access reads or writes, if it is one. -/
def ofAccess? : Access → Option Location
  | .flag id => (flag? id).map flag
  | .var id => (var? id).map var
  | .bank id => (bank? id).map bank
  | _ => none

theorem toNat_varId (i : Fin varCount) :
    (varId i).toNat =
      if i.val < savedVarCount then savedVarBase.toNat + i.val
      else temporaryBase.toNat + (i.val - savedVarCount) := by
  have hi := i.isLt
  simp only [varCount, savedVarCount, temporaryCount] at hi
  unfold varId
  split
  · next h =>
    simp only [savedVarCount] at h
    simp only [savedVarBase, UInt16.toNat_add, UInt16.toNat_ofNat', UInt16.reduceToNat,
      Nat.toUInt16_eq]
    omega
  · next h =>
    simp only [savedVarCount] at h ⊢
    simp only [temporaryBase, UInt16.toNat_add, UInt16.toNat_ofNat', UInt16.reduceToNat,
      Nat.toUInt16_eq]
    omega

theorem var?_varId (i : Fin varCount) : var? (varId i) = some i := by
  have hi := i.isLt
  have hn := toNat_varId i
  simp only [varCount, savedVarCount, temporaryCount] at hi hn
  have hs : savedVarBase.toNat = 0x4000 := rfl
  have ht : temporaryBase.toNat = 0x8000 := rfl
  unfold var?
  split at hn
  · rw [dif_pos (by simp only [savedVarCount]; omega)]
    simp only [hn, Nat.add_sub_cancel_left]
  · rw [dif_neg (by simp only [savedVarCount]; omega),
      dif_pos (by simp only [temporaryCount]; omega)]
    exact congrArg some (Fin.ext (by simp only [hn, savedVarCount]; omega))

theorem flag?_val (i : Fin flagCount) : flag? i.val.toUInt16 = some i := by
  have hi : i.val.toUInt16.toNat = i.val := Nat.mod_eq_of_lt (Nat.lt_trans i.isLt (by decide))
  unfold flag?
  rw [dif_pos (by rw [hi]; exact i.isLt)]
  exact congrArg some (Fin.ext hi)

theorem bank?_val (i : Fin bankCount) : bank? i.val.toUInt8 = some i := by
  have hi : i.val.toUInt8.toNat = i.val := Nat.mod_eq_of_lt (Nat.lt_trans i.isLt (by decide))
  unfold bank?
  rw [dif_pos (by rw [hi]; exact i.isLt)]
  exact congrArg some (Fin.ext hi)

theorem ofAccess?_access (l : Location) : ofAccess? l.access = some l := by
  cases l with
  | flag i => rw [access, ofAccess?, flag?_val, Option.map_some]
  | var i => rw [access, ofAccess?, var?_varId, Option.map_some]
  | bank i => rw [access, ofAccess?, bank?_val, Option.map_some]

end Location

/-- The values of all registers. -/
structure Registers where
  flags : BitVec flagCount
  vars : Vector UInt16 varCount
  banks : Vector UInt32 bankCount
deriving DecidableEq

namespace Registers

/-- All registers zero. -/
def zero : Registers where
  flags := 0
  vars := Vector.replicate varCount 0
  banks := Vector.replicate bankCount 0

/-- The value of a register; a set flag counts as one. -/
def get (r : Registers) : Location → UInt32
  | .flag i => if r.flags.getLsbD i.val then 1 else 0
  | .var i => (r.vars.get i).toUInt32
  | .bank i => r.banks.get i

/-- A bit vector with one bit changed. -/
def setBit {n : Nat} (bits : BitVec n) (i : Nat) (value : Bool) : BitVec n :=
  if bits.getLsbD i = value then bits else bits ^^^ BitVec.twoPow n i

/-- The registers after a write; a flag is set by any value but zero, a variable takes 16 bits. -/
def set (r : Registers) (l : Location) (value : UInt32) : Registers :=
  match l with
  | .flag i => { r with flags := setBit r.flags i.val (value != 0) }
  | .var i => { r with vars := r.vars.set i.val value.toUInt16 }
  | .bank i => { r with banks := r.banks.set i.val value }

theorem getLsbD_setBit {n : Nat} (bits : BitVec n) (i j : Nat) (value : Bool) (h : i < n) :
    (setBit bits i value).getLsbD j = if i = j then value else bits.getLsbD j := by
  unfold setBit
  split
  · next hv => split <;> simp_all
  · next hv =>
    rw [BitVec.getLsbD_xor, BitVec.getLsbD_twoPow]
    by_cases hij : i = j
    · subst hij
      cases value <;> simp_all
    · simp [hij]

theorem get_set_of_ne (r : Registers) {l k : Location} (value : UInt32) (h : l ≠ k) :
    (r.set l value).get k = r.get k := by
  cases l with
  | flag i =>
    cases k with
    | flag j =>
      have : i.val ≠ j.val := fun e => h (congrArg Location.flag (Fin.ext e))
      simp only [set, get, getLsbD_setBit _ _ _ _ i.isLt, if_neg this]
    | var j => rfl
    | bank j => rfl
  | var i =>
    cases k with
    | var j =>
      have : i.val ≠ j.val := fun e => h (congrArg Location.var (Fin.ext e))
      exact congrArg UInt16.toUInt32 (Vector.getElem_set_ne i.isLt j.isLt this)
    | flag j => rfl
    | bank j => rfl
  | bank i =>
    cases k with
    | bank j =>
      have : i.val ≠ j.val := fun e => h (congrArg Location.bank (Fin.ext e))
      exact Vector.getElem_set_ne i.isLt j.isLt this
    | flag j => rfl
    | var j => rfl

end Registers

/-- One bit for every register. -/
structure Marks where
  flags : BitVec flagCount
  vars : BitVec varCount
  banks : BitVec bankCount
deriving DecidableEq

namespace Marks

/-- No register marked. -/
def none : Marks := ⟨0, 0, 0⟩

/-- Whether a register is marked. -/
def get (m : Marks) : Location → Bool
  | .flag i => m.flags.getLsbD i.val
  | .var i => m.vars.getLsbD i.val
  | .bank i => m.banks.getLsbD i.val

/-- The marks with one changed. -/
def set (m : Marks) (l : Location) (value : Bool) : Marks :=
  match l with
  | .flag i => { m with flags := Registers.setBit m.flags i.val value }
  | .var i => { m with vars := Registers.setBit m.vars i.val value }
  | .bank i => { m with banks := Registers.setBit m.banks i.val value }

theorem get_set (m : Marks) (l k : Location) (value : Bool) :
    (m.set l value).get k = if l = k then value else m.get k := by
  cases l with
  | flag i =>
    cases k with
    | flag j =>
      simp only [set, get, Registers.getLsbD_setBit _ _ _ _ i.isLt, Location.flag.injEq,
        Fin.ext_iff]
    | var j | bank j => simp [set, get]
  | var i =>
    cases k with
    | var j =>
      simp only [set, get, Registers.getLsbD_setBit _ _ _ _ i.isLt, Location.var.injEq,
        Fin.ext_iff]
    | flag j | bank j => simp [set, get]
  | bank i =>
    cases k with
    | bank j =>
      simp only [set, get, Registers.getLsbD_setBit _ _ _ _ i.isLt, Location.bank.injEq,
        Fin.ext_iff]
    | flag j | var j => simp [set, get]

end Marks

end Cartridge
