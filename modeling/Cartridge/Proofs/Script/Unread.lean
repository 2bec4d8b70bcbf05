import Cartridge.Proofs.Script.Congruence
import Cartridge.Proofs.Script.Draws
import Cartridge.Proofs.Script.Turns

/-!
# Unread — a register that no outcome lists as read does not matter

Two branches *agree off* a register if they differ at most in its value.  They are in lockstep as
long as no instruction reads it (`AgreeOff.lockstep`, `AgreeOff.step`).  Every instruction notes
what it reads, so the outcomes of one run tell whether a run from another value of the register
would have gone differently (`Interpreter.run_agreeOff`).
-/

namespace Cartridge

namespace Context

/-- The contexts differ at most in the value of one register. -/
structure AgreeOff (l : Location) (c d : Context) : Prop where
  others : d = { c with registers := d.registers }
  register : ∀ k, k ≠ l → c.registers.get k = d.registers.get k

namespace AgreeOff

open Interpreter

variable {l : Location} {c d : Context} (h : c.AgreeOff l d) {I : Interpreter} {mode : Mode}
  {i : Instruction}

include h

theorem exists_registers : ∃ r, d = { c with registers := r } ∧
    ∀ k, k ≠ l → c.registers.get k = r.get k :=
  ⟨d.registers, h.others, h.register⟩

/-- The branches agree in whatever the register is not among. -/
theorem agreeOn {as : List Access} (ha : l.access ∉ as) : AgreeOn as c d :=
  fun k hk => h.register k fun hkl => ha (hkl ▸ hk)

omit h in
/-- Notes and writes keep the agreement. -/
theorem congruence : Congruence (AgreeOff l) where
  location? h := by obtain ⟨r, rfl, -⟩ := h.exists_registers; rfl
  history h := by obtain ⟨r, rfl, -⟩ := h.exists_registers; rfl
  answered h := by obtain ⟨r, rfl, -⟩ := h.exists_registers; rfl
  determined h := by obtain ⟨r, rfl, -⟩ := h.exists_registers; rfl
  noteInput h a := by obtain ⟨r, rfl, hr⟩ := h.exists_registers; exact ⟨rfl, hr⟩
  noteOutput h a := by obtain ⟨r, rfl, hr⟩ := h.exists_registers; exact ⟨rfl, hr⟩
  setLeft h v := by obtain ⟨r, rfl, hr⟩ := h.exists_registers; exact ⟨rfl, hr⟩
  setRight h v known := by obtain ⟨r, rfl, hr⟩ := h.exists_registers; exact ⟨rfl, hr⟩
  store h k v known := by
    obtain ⟨r, rfl, hr⟩ := h.exists_registers
    refine ⟨rfl, fun j hj => ?_⟩
    simp only [Context.store, Registers.get_set]
    split
    · rfl
    · exact hr j hj

omit h in
/-- **No decision can tell the branches apart**, unless it looks at the register. -/
theorem lockstep (mode : Mode) : Lockstep mode (l.access ≠ ·) (AgreeOff l) where
  control h := by obtain ⟨r, rfl, -⟩ := h.exists_registers; rfl
  resume h k := by obtain ⟨r, rfl, hr⟩ := h.exists_registers; exact ⟨rfl, hr⟩
  noteRun h a := by obtain ⟨r, rfl, hr⟩ := h.exists_registers; exact ⟨rfl, hr⟩
  noteAnswer h a := by obtain ⟨r, rfl, hr⟩ := h.exists_registers; exact ⟨rfl, hr⟩
  noteInput h a := congruence.noteInput h a
  setFlag h id value := congruence.setFlag h id value
  setVar h id value := congruence.setVar h id value
  visited h := by obtain ⟨r, rfl, -⟩ := h.exists_registers; rfl
  determined h := congruence.determined h
  known h := by obtain ⟨r, rfl, -⟩ := h.exists_registers; rfl
  compared h _ := by obtain ⟨r, rfl, -⟩ := h.exists_registers; exact ⟨rfl, rfl⟩
  flag h id ha _ := (h.agreeOn (mt List.mem_singleton.mp ha)).flag
  visits h v := by obtain ⟨r, rfl, hr⟩ := h.exists_registers; exact ⟨rfl, hr⟩

/-! ## Runs -/

/-- Branches that agree off a register that they do not read draw below two alike. -/
theorem drawsBelowTwo (hr : ¬I.Reads c l) (hc : I.DrawsBelowTwo c) : I.DrawsBelowTwo d := by
  intro i hi hact
  have hi' : Instruction.decode I.memory c.pc = .ok i := (lockstep .execute).pc h ▸ hi
  have hv := (h.agreeOn fun ha => hr ⟨i, hi', by rw [hact]; exact ha⟩ :
    AgreeOn (i.named 0) c d).resolve
  exact hv ▸ hc i hi' hact

/-- An instruction that does not read the register takes the branches to branches in agreement. -/
theorem step (hr : ¬I.Reads c l) :
    Results (Advance.Pairs (AgreeOff l)) (I.step mode c) (I.step mode d) := by
  have hpc : d.pc = c.pc := ((lockstep mode).pc h).symm
  cases hc : Instruction.decode I.memory c.pc with
  | error e =>
    simp only [Interpreter.step, hc, hpc]
    exact rfl
  | ok i =>
    have hd : Instruction.decode I.memory d.pc = .ok i := by rw [hpc, hc]
    have hreads : l.access ∉ i.reads c i.command.action := fun ha => hr ⟨i, hc, ha⟩
    simp only [Interpreter.step, hc, hd]
    refine (lockstep mode).perform rfl ((lockstep mode).noteRun h i.address) ?_ ?_
    · rintro t ht _ ha rfl
      exact hreads (by rw [ht]; exact ha)
    · intro f hf
      have h₁ := (lockstep mode).noteRun h i.address
      refine congruence.applyEffect h₁ (h₁.agreeOn ?_)
      rw [reads_noteRun]
      exact hf ▸ hreads

end AgreeOff

end Context

namespace Interpreter

open Context (AgreeOff)

variable {I : Interpreter} {mode : Mode} {l : Location} {c d : Context} {L : List Context}

/-- **The inputs list all that a run depends on.**  If no outcome of a run from `c` lists a register
as read, then a run from a context with another value in it, whatever is drawn there, has the same
outcomes in the same order, but for the value of that register. -/
theorem run_agreeOff (h : c.AgreeOff l d)
    (hdraw : mode = .execute → ∀ e, I.Reaches .execute c e → e.isDone = false → I.DrawsBelowTwo e)
    (hL : I.run mode c = .ok L) (hl : ∀ e ∈ L, l.access ∉ e.inputs) (g : GameView) :
    ∃ M, (I.withDrawsOf g).run mode d = .ok M ∧ List.Forall₂ (AgreeOff l) L M := by
  have hstep (e : Context) (he : I.Reaches mode c e) (hn : e.isDone = false) (e' : Context)
      (hee : e.AgreeOff l e') : Results (Advance.Pairs (AgreeOff l)) (I.step mode e)
        ((I.withDrawsOf g).step mode e') := by
    have hr := not_reads_of_run hL hl he hn
    rw [step_withDrawsOf g fun hm => hee.drawsBelowTwo hr (hdraw hm e (hm ▸ he) hn)]
    exact hee.step hr
  have hlimits : (I.withDrawsOf g).limits = I.limits := rfl
  rcases run_pairs (R := AgreeOff l) hlimits (AgreeOff.lockstep mode).isDone h hstep with
    ⟨L', M, hL', hM, hLM⟩ | ⟨e, he, -⟩
  · obtain rfl : L' = L := Except.ok.inj (hL'.symm.trans hL)
    exact ⟨M, hM, hLM⟩
  · exact absurd (he.symm.trans hL) (by simp)

/-- A script that draws below one, gives a variable a value and asks for an answer. -/
def assignAndAsk : Interpreter :=
  .ofScript #[0x8F, 1, 0, 0x16, 1, 0x40, 7, 0, 0x6E, 0, 0, 0x02]

/-- About to run the script, with another value in a variable. -/
def assignedBefore (id : Fin varCount) : Context :=
  { Context.blank Memory.cartridgeBase with registers := Registers.zero.set (.var id) 4 }

/-- A game that draws the highest number below the bound. -/
def drawsHighest : GameView where
  draw _ _ bound := bound - 1
  draw_lt _ _ bound h := by
    have hone : 1 ≤ bound := UInt16.le_iff_toNat_le.mpr (UInt16.lt_iff_toNat_lt.mp h)
    rw [UInt16.lt_iff_toNat_lt, UInt16.toNat_sub_of_le bound 1 hone]
    exact Nat.sub_lt (UInt16.lt_iff_toNat_lt.mp h) Nat.one_pos

theorem run_agreeOff_assignAndAsk :
    (Context.blank Memory.cartridgeBase).AgreeOff (.var 1) (assignedBefore 1) ∧
    (∀ d, assignAndAsk.Reaches .execute (.blank Memory.cartridgeBase) d → d.isDone = false →
      assignAndAsk.DrawsBelowTwo d) ∧
    assignAndAsk.run .execute (.blank Memory.cartridgeBase) =
      .ok (assignAndAsk.endedBy .execute 7 (.blank Memory.cartridgeBase)) ∧
    (∀ e ∈ assignAndAsk.endedBy .execute 7 (.blank Memory.cartridgeBase),
      (Location.var 1).access ∉ e.inputs) ∧
    ∃ M, (assignAndAsk.withDrawsOf drawsHighest).run .execute (assignedBefore 1) = .ok M ∧
      List.Forall₂ (AgreeOff (.var 1))
        (assignAndAsk.endedBy .execute 7 (.blank Memory.cartridgeBase)) M := by
  have hagree : (Context.blank Memory.cartridgeBase).AgreeOff (.var 1) (assignedBefore 1) :=
    ⟨rfl, fun k hk => (Registers.get_set_of_ne _ 4 hk.symm).symm⟩
  have hturns : ((assignAndAsk.turn .execute)^[7] (.start (.blank Memory.cartridgeBase))).opened =
      [] := by
    decide +kernel
  have hdraw (d : Context) (hd : assignAndAsk.Reaches .execute (.blank Memory.cartridgeBase) d)
      (_ : d.isDone = false) : assignAndAsk.DrawsBelowTwo d := by
    have hopened : ∀ k < 7,
        ∀ d ∈ ((assignAndAsk.turn .execute)^[k] (.start (.blank Memory.cartridgeBase))).opened.head?,
          assignAndAsk.DrawsBelowTwo d := by decide +kernel
    obtain ⟨k, hk, hdk⟩ := exists_turn_of_reaches hturns List.mem_cons_self hd
    exact hopened k hk d hdk
  have hL := run_eq_endedBy 7 hturns (by decide) (by decide)
  have hl : ∀ e ∈ assignAndAsk.endedBy .execute 7 (.blank Memory.cartridgeBase),
      (Location.var 1).access ∉ e.inputs := by decide +kernel
  exact ⟨hagree, hdraw, hL, hl, run_agreeOff hagree (fun _ => hdraw) hL hl drawsHighest⟩

end Interpreter

end Cartridge
