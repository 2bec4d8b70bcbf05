import Cartridge.Proofs.Script.Move

/-!
# Progress — what one instruction gains for an exploring branch

An exploring branch gets over, goes on with the next instruction, returns from a call, or meets a
decision that it has not met before with the same calls.  Only a trainer battle can do otherwise: if
the branch itself has determined that the trainer is unbeaten, it is fought without asking the loop
guard.
-/

namespace Cartridge

/-- What an instruction has gained for a branch `c` that it has made to `d`. -/
inductive Progress (i : Instruction) (c d : Context) : Prop where
  | ended (done : d.isDone = true) (visited : d.visited = c.visited) (stack : d.stack = c.stack)
  | onward (pc : d.pc = i.next) (visited : d.visited = c.visited) (stack : d.stack = c.stack)
  | back (a : UInt32) (stack : c.stack = a :: d.stack) (visited : d.visited = c.visited)
  | decided (new : i.decision c ∉ c.visited) (visited : d.visited = i.decision c :: c.visited)

/-- Progress is measured in decisions, calls and addresses only. -/
theorem Progress.of_eq {i : Instruction} {c c' d : Context} (h : Progress i c' d)
    (hv : c'.visited = c.visited) (hs : c'.stack = c.stack) : Progress i c d := by
  have hdecision : i.decision c' = i.decision c := by simp only [Instruction.decision, hs]
  cases h with
  | ended done visited stack => exact .ended done (visited.trans hv) (stack.trans hs)
  | onward pc visited stack => exact .onward pc (visited.trans hv) (stack.trans hs)
  | back a stack visited => exact .back a (hs ▸ stack) (visited.trans hv)
  | decided new visited =>
    rw [hdecision, hv] at new visited
    exact .decided new visited

namespace Interpreter

/-- The branch is about to fight a trainer whom it has itself determined to be unbeaten. -/
def FightsKnown (I : Interpreter) (c : Context) : Prop :=
  ∃ i, Instruction.decode I.memory c.pc = .ok i ∧ i.command.action = .transfer .battle ∧
    c.isDetermined (.flag (Command.trainerFlags + (i.operand 1).toUInt16)) = true ∧
    c.flag (Command.trainerFlags + (i.operand 1).toUInt16) = false

variable {I : Interpreter} {i : Instruction} {c d : Context}

open Context (SameCourse)

/-! ## Moves -/

theorem progress_close {reason : ExitReason} : Progress i c (c.close reason) :=
  .ended rfl rfl rfl

theorem progress_goto : Progress i c (c.goto i.next) :=
  .onward rfl rfl rfl

/-- What the loop guard lets through has gained a decision, wherever it goes from there. -/
theorem Passed.progress {e : Context} (h : Passed .explore i c e) (hd : d.visited = e.visited) :
    Progress i c d := by
  cases h with
  | unguarded execute => cases execute
  | noted _ new => exact .decided new hd

theorem visited_enter (call : Bool) (next target : UInt32) (c : Context) :
    (enter call next target c).visited = c.visited := by
  cases call <;> rfl

theorem visited_reply (c : Context) (option : UInt8 × UInt16) :
    (reply i c option).visited = c.visited :=
  (SameCourse.storeVar { c with answered := option.1 :: c.answered } resultVar option.2 true).visited

theorem visited_win (flag : UInt16) (afterWin? : Option UInt32) (c : Context) :
    (win flag afterWin? c).visited = c.visited := by
  cases afterWin? <;> exact (SameCourse.setFlag c flag true).visited

theorem settle_of_beaten {flag : UInt16} {afterWin? tooFew? : Option UInt32}
    (h : c.flag flag = true) : I.settle i flag afterWin? tooFew? c = c.goto i.next := by
  unfold settle
  rw [if_pos h]

/-- A battle whose flag is not determined asks the loop guard; a determined one goes on if the
trainer is beaten. -/
theorem Fought.progress {flag : UInt16} {kind : BattleKind}
    (h : I.Fought .explore i c flag kind d) :
    Progress i c d ∨ (c.isDetermined (.flag flag) = true ∧ c.flag flag = false) := by
  cases h with
  | settled known =>
    cases hf : c.flag flag with
    | false => exact Or.inr ⟨known.resolve_left (by simp), rfl⟩
    | true =>
      rw [settle_of_beaten hf]
      exact Or.inl progress_goto
  | revisit => exact Or.inl progress_close
  | passed he => exact Or.inl (he.progress rfl)
  | refused he => exact Or.inl (he.progress rfl)
  | won he => exact Or.inl (he.progress (visited_win _ _ _))

theorem Moved.progress {t : Transfer} (h : I.Moved .explore i c t d) :
    Progress i c d ∨ (t = .battle ∧
      c.isDetermined (.flag (Command.trainerFlags + (i.operand 1).toUInt16)) = true ∧
      c.flag (Command.trainerFlags + (i.operand 1).toUInt16) = false) := by
  cases h with
  | stop | kill | underflow | revisit => exact Or.inl progress_close
  | back stack => exact Or.inl (.back _ stack rfl)
  | onward => exact Or.inl progress_goto
  | entered _ he => exact Or.inl (he.progress (visited_enter _ _ _ _))
  | skipped _ he => exact Or.inl (he.progress rfl)
  | chose _ he => exact Or.inl (he.progress (visited_reply _ _))
  | answered _ he => exact Or.inl (he.progress (visited_reply _ _))
  | battle hd =>
    rcases hd.progress with hp | hb
    · exact Or.inl (hp.of_eq rfl rfl)
    · exact Or.inr ⟨rfl, hb⟩

/-! ## Instructions -/

/-- **An instruction of an exploring branch gains something**, unless it is a fight that asks no
guard. -/
theorem progress_next (h : I.Next .explore c d) (hf : ¬I.FightsKnown c) :
    ∃ i, Instruction.decode I.memory c.pc = .ok i ∧ Progress i c d := by
  obtain ⟨i, hi, hran⟩ := h.ran
  have hrun : Progress i (c.noteRun i.address) d := by
    cases hran with
    | inert => exact progress_goto
    | @effect f e _ he =>
      have hs := I.sameCourse_applyEffect he
      exact (progress_goto (c := e)).of_eq hs.visited (congrArg Control.stack hs.control)
    | transfer action hd =>
      rcases hd.progress with hp | ⟨rfl, hk, hclear⟩
      · exact hp
      · exact absurd ⟨i, hi, action, hk, hclear⟩ hf
  exact ⟨i, hi, hrun.of_eq rfl rfl⟩

end Interpreter

end Cartridge
