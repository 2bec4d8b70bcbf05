import Cartridge.Proofs.Script.Registers
import Cartridge.Proofs.Script.Growth
import Cartridge.Proofs.Script.Turns

/-!
# Frame — what a run does not log it does not change

`Context.Unlogged` relates a branch to what becomes of it: logs have grown at their newer end, answers
have been taken from the front of those it was to give, and a register whose access is not among the
outputs has the value and the mark that it had.  Every elementary change of a branch keeps this
(`Unlogged.keptByMoves`), so every instruction does, and every outcome of a run
(`Interpreter.run_unlogged`).
-/

namespace Cartridge

theorem AccessLog.suffix_note (log : AccessLog) (a : Access) : log <:+ log.note a := by
  unfold note
  split
  · exact List.suffix_rfl
  · exact List.suffix_cons a log

namespace Context

/-- From a branch to what becomes of it: logs only grow, answers are only taken, and registers that
the outputs do not list stay as they were. -/
structure Unlogged (c d : Context) : Prop where
  history : c.history <:+ d.history
  answered : c.answered <:+ d.answered
  inputs : c.inputs <:+ d.inputs
  outputs : c.outputs <:+ d.outputs
  pending : d.pending <:+ c.pending
  location? : d.location? = c.location?
  value : ∀ l : Location, l.access ∉ d.outputs → d.registers.get l = c.registers.get l
  mark : ∀ l : Location, l.access ∉ d.outputs → d.determined.get l = c.determined.get l

namespace Unlogged

variable {c d e : Context}

theorem refl (c : Context) : Unlogged c c where
  history := List.suffix_rfl
  answered := List.suffix_rfl
  inputs := List.suffix_rfl
  outputs := List.suffix_rfl
  pending := List.suffix_rfl
  location? := rfl
  value _ _ := rfl
  mark _ _ := rfl

theorem trans (h : Unlogged c d) (h' : Unlogged d e) : Unlogged c e where
  history := h.history.trans h'.history
  answered := h.answered.trans h'.answered
  inputs := h.inputs.trans h'.inputs
  outputs := h.outputs.trans h'.outputs
  pending := h'.pending.trans h.pending
  location? := h'.location?.trans h.location?
  value := by
    intro l hl
    have hd : l.access ∉ d.outputs := fun hmem => hl (h'.outputs.mem hmem)
    rw [h'.value l hl, h.value l hd]
  mark := by
    intro l hl
    have hd : l.access ∉ d.outputs := fun hmem => hl (h'.outputs.mem hmem)
    rw [h'.mark l hl, h.mark l hd]

/-- A write logs the access of its register, and no other register has that access. -/
theorem store (c : Context) (l : Location) (value : UInt32) (known : Bool) :
    Unlogged c (c.store l value known) := by
  have hother : ∀ k : Location, k.access ∉ (c.store l value known).outputs → l ≠ k := by
    intro k hk hlk
    apply hk
    rw [← hlk]
    exact AccessLog.mem_note.mpr (Or.inl rfl)
  have hvalue : ∀ k : Location, k.access ∉ (c.store l value known).outputs →
      (c.registers.set l value).get k = c.registers.get k := by
    intro k hk
    exact Registers.get_set_of_ne _ _ (hother k hk)
  have hmark : ∀ k : Location, k.access ∉ (c.store l value known).outputs →
      (c.determined.set l known).get k = c.determined.get k := by
    intro k hk
    rw [Marks.get_set, if_neg (hother k hk)]
  exact { refl c with
    outputs := AccessLog.suffix_note c.outputs l.access
    value := hvalue
    mark := hmark }

theorem noteRun (c : Context) (a : UInt32) : Unlogged c (c.noteRun a) :=
  { refl c with history := List.suffix_cons a c.history }

/-- **Every elementary change of a branch is logged.** -/
theorem keptByMoves : KeptByMoves Unlogged where
  refl := refl
  trans := trans
  noteInput c a := { refl c with inputs := AccessLog.suffix_note c.inputs a }
  noteOutput c a := { refl c with
    outputs := AccessLog.suffix_note c.outputs a
    value := fun _ _ => rfl
    mark := fun _ _ => rfl }
  compared c _ _ _ := { refl c with }
  store := store
  goto c _ := { refl c with }
  calls c _ := { refl c with }
  close c _ := { refl c with }
  visits c _ := { refl c with }
  noteAnswer c answer := { refl c with answered := List.suffix_cons answer c.answered }
  take c answer _ given := { refl c with pending := given ▸ List.suffix_cons answer _ }

/-- What is determined later was determined before, or its access has been logged since. -/
theorem determined_logged (h : Unlogged c d)
    (hc : ∀ l : Location, c.determined.get l = true → l.access ∈ c.outputs) (l : Location)
    (hl : d.determined.get l = true) : l.access ∈ d.outputs := by
  by_contra hout
  rw [h.mark l hout] at hl
  have hbefore : l.access ∈ c.outputs := hc l hl
  exact hout (h.outputs.mem hbefore)

end Unlogged

end Context

namespace Interpreter

open Context (Unlogged)

variable {I : Interpreter} {mode : Mode} {c d e : Context} {L : List Context}

/-- An instruction logs what it changes. -/
theorem Next.unlogged (h : I.Next mode c d) : Unlogged c d := by
  obtain ⟨i, -, hran⟩ := h.ran
  exact (Unlogged.noteRun c i.address).trans (hran.kept Unlogged.keptByMoves)

/-- So do all instructions that lead from one branch to another. -/
theorem Reaches.unlogged (h : I.Reaches mode c d) : Unlogged c d := by
  induction h with
  | refl => exact .refl c
  | tail _ hnext ih => exact ih.trans hnext.unlogged

/-- **What a run does not log it does not change.**  Every outcome of a run goes on from the logs of
the context it started from, has answered in order, and is on the same map.  A register that its
outputs do not list has the value it had, and is as well known as it was; and if the start listed
all that it had determined, so does the outcome. -/
theorem run_unlogged (hL : I.run mode c = .ok L) (he : e ∈ L) :
    c.trace <+: e.trace ∧ c.choices <+: e.choices ∧
    c.inputs.inOrder <+: e.inputs.inOrder ∧ c.outputs.inOrder <+: e.outputs.inOrder ∧
    e.pending <:+ c.pending ∧ e.location? = c.location? ∧
    (∀ l : Location, l.access ∉ e.outputs →
      e.registers.get l = c.registers.get l ∧ e.determined.get l = c.determined.get l) ∧
    ((∀ l : Location, c.determined.get l = true → l.access ∈ c.outputs) →
      ∀ l : Location, e.determined.get l = true → l.access ∈ e.outputs) := by
  obtain ⟨hreaches, -⟩ := (mem_run_iff hL e).mp he
  have h : Unlogged c e := hreaches.unlogged
  refine ⟨?trace, ?choices, ?inputs, ?outputs, h.pending, h.location?, ?kept, h.determined_logged⟩
  case trace => exact List.reverse_prefix.mpr h.history
  case choices => exact List.reverse_prefix.mpr h.answered
  case inputs => exact List.reverse_prefix.mpr h.inputs
  case outputs => exact List.reverse_prefix.mpr h.outputs
  case kept =>
    intro l hl
    exact ⟨h.value l hl, h.mark l hl⟩

/-- A script that sets a flag, adds to a variable and asks for an answer. -/
def setAndAsk : Interpreter :=
  .ofScript #[0x29, 5, 0, 0x17, 1, 0x40, 1, 0, 0x6E, 0, 0, 0x02]

/-- About to run the script after another one, with an answer to give and a value in a variable. -/
def afterAnother : Context :=
  { Context.blank Memory.cartridgeBase with
    registers := Registers.zero.set (.var 2) 4
    outputs := [.money]
    answered := [1]
    pending := [0, 1]
    history := [7] }

theorem run_unlogged_setAndAsk :
    setAndAsk.run .execute afterAnother = .ok (setAndAsk.endedBy .execute 5 afterAnother) ∧
    ∃ e ∈ setAndAsk.endedBy .execute 5 afterAnother,
      e.trace = [7, 0x08000000, 0x08000003, 0x08000008, 0x0800000B] ∧
      afterAnother.trace <+: e.trace ∧ afterAnother.choices <+: e.choices ∧
      afterAnother.outputs.inOrder <+: e.outputs.inOrder ∧ e.pending <:+ afterAnother.pending ∧
      (Location.var 2).access ∉ e.outputs ∧ e.registers.get (.var 2) = 4 := by
  have hturns : ((setAndAsk.turn .execute)^[5] (.start afterAnother)).opened = [] := by
    decide +kernel
  have hL := run_eq_endedBy 5 hturns (by decide) (by decide)
  have hended : ∃ e ∈ setAndAsk.endedBy .execute 5 afterAnother,
      e.trace = [7, 0x08000000, 0x08000003, 0x08000008, 0x0800000B] ∧
      (Location.var 2).access ∉ e.outputs := by
    decide +kernel
  have hstart : afterAnother.registers.get (.var 2) = 4 := by decide +kernel
  obtain ⟨e, he, htrace, hout⟩ := hended
  obtain ⟨hgrown, hchoices, -, houtputs, hpending, -, hkept, -⟩ := run_unlogged hL he
  obtain ⟨hvalue, -⟩ := hkept (.var 2) hout
  exact ⟨hL, e, he, htrace, hgrown, hchoices, houtputs, hpending, hout, hvalue.trans hstart⟩

end Interpreter

end Cartridge
