import Cartridge.Script.Context
import Mathlib.Logic.Basic

/-!
# Registers — what a branch reads after it has written

`Registers.get_set` says what any register reads after a write, and two files of registers that read
the same everywhere are the same.  A branch's `flag`, `var` and `bank` are reads of the register
that the id names; `Context.knows` says that such a register, if there is one, is determined.
-/

namespace Cartridge

/-- The part of a value that a register keeps. -/
def Location.fit : Location → UInt32 → UInt32
  | .flag _, v => if v = 0 then 0 else 1
  | .var _, v => v.toUInt16.toUInt32
  | .bank _, v => v

namespace Registers

theorem get_set_self (r : Registers) (l : Location) (v : UInt32) :
    (r.set l v).get l = l.fit v := by
  cases l with
  | flag i =>
    simp only [set, get, getLsbD_setBit _ _ _ _ i.isLt, if_true, Location.fit]
    by_cases h : v = 0 <;> simp [h]
  | var i => exact congrArg UInt16.toUInt32 (Vector.getElem_set_self i.isLt)
  | bank i => exact Vector.getElem_set_self i.isLt

theorem get_set (r : Registers) (l k : Location) (v : UInt32) :
    (r.set l v).get k = if l = k then l.fit v else r.get k := by
  by_cases h : l = k
  · rw [if_pos h, ← h, get_set_self]
  · rw [if_neg h, get_set_of_ne r v h]

theorem ext_get {r s : Registers} (h : ∀ l, r.get l = s.get l) : r = s := by
  obtain ⟨flags, vars, banks⟩ := r
  obtain ⟨flags', vars', banks'⟩ := s
  have hf : flags = flags' := by
    apply BitVec.eq_of_getLsbD_eq
    intro i hi
    have := h (.flag ⟨i, hi⟩)
    simp only [get] at this
    cases hb : flags.getLsbD i <;> cases hb' : flags'.getLsbD i <;> simp_all
  have hv : vars = vars' := by
    apply Vector.ext
    intro i hi
    exact UInt16.toUInt32_inj.1 (h (.var ⟨i, hi⟩))
  have hb : banks = banks' := by
    apply Vector.ext
    intro i hi
    exact h (.bank ⟨i, hi⟩)
  rw [hf, hv, hb]

end Registers

namespace Context

/-- Whether the branch has produced what an access names, or it names no register at all. -/
def knows (c : Context) (a : Access) : Bool :=
  (Location.ofAccess? a).all c.determined.get

theorem knows_of_isDetermined {c : Context} {a : Access} (h : c.isDetermined a = true) :
    c.knows a = true := by
  unfold isDetermined at h
  unfold knows
  cases hl : Location.ofAccess? a with
  | none => rfl
  | some l => rw [hl] at h; exact h

variable {c d : Context}

/-- Branches that read the same in the register of a flag read the same flag. -/
theorem flag_congr {id : UInt16}
    (h : ∀ i, Location.flag? id = some i → c.registers.get (.flag i) = d.registers.get (.flag i)) :
    c.flag id = d.flag id := by
  unfold flag
  cases hi : Location.flag? id with
  | none => rfl
  | some i =>
    have := h i hi
    simp only [Registers.get] at this ⊢
    cases hb : c.registers.flags.getLsbD i.val <;> cases hb' : d.registers.flags.getLsbD i.val <;>
      simp_all

theorem var_congr {id : UInt16}
    (h : ∀ i, Location.var? id = some i → c.registers.get (.var i) = d.registers.get (.var i)) :
    c.var id = d.var id := by
  unfold var
  cases hi : Location.var? id with
  | none => rfl
  | some i => exact UInt16.toUInt32_inj.1 (h i hi)

theorem bank_congr {id : UInt8}
    (h : ∀ i, Location.bank? id = some i → c.registers.get (.bank i) = d.registers.get (.bank i)) :
    c.bank id = d.bank id := by
  unfold bank
  cases hi : Location.bank? id with
  | none => rfl
  | some i => exact h i hi

end Context

end Cartridge
