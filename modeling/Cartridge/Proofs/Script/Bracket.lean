import Cartridge.Proofs.Script.Growth
import Cartridge.Proofs.Script.Passage
import Cartridge.Proofs.Script.Turns

/-!
# Bracket — every run is a well-bracketed path of control

Each instruction passes control on as it allows, or ends its branch (`Ran.crossed`).  So it adds one
passage to those that its branch has come by (`Path.passed`), and every outcome of a run has come by
passages with all returns where they belong (`Interpreter.run_bracketed`).  What is left of the call
stack decides whether the last return has anywhere to lead.
-/

namespace Cartridge.Interpreter

variable {I : Interpreter} {stack calls : List UInt32} {ps : List Passage} {a : UInt32}

/-! ## What one instruction does -/

/-- What a passage to `target` does to a call stack. -/
inductive Turns (next target : UInt32) : Manner → List UInt32 → List UInt32 → Prop where
  | level {m : Manner} {calls : List UInt32} (level : m = .onward ∨ m = .jump) :
    Turns next target m calls calls
  | call {calls : List UInt32} : Turns next target .call calls (next :: calls)
  | back {calls : List UInt32} : Turns next target .back (target :: calls) calls

/-- What an instruction makes of a branch with some calls: control passes on, or the branch is over;
and it has nowhere to return to exactly when the instruction is a return and there are no calls. -/
inductive Crossed (I : Interpreter) (i : Instruction) (calls : List UInt32) (d : Context) : Prop where
  | passed {m : Manner} (going : d.exit? = none) (leads : I.Leads i m d.pc)
    (turns : Turns i.next d.pc m calls d.stack)
  | ended {reason : ExitReason} (exit : d.exit? = some reason) (other : reason ≠ .stackUnderflow)
    (action : i.command.action ≠ .transfer .ret)
  | spent (exit : d.exit? = some .stackUnderflow) (action : i.command.action = .transfer .ret)
    (empty : calls = [])

section Instruction

variable {mode : Mode} {i : Instruction} {c d e : Context}

open Context (SameCourse)

/-- Going on with the same calls. -/
theorem crossed_goto {m : Manner} (hc : c.exit? = none) (hlevel : m = .onward ∨ m = .jump)
    (hleads : I.Leads i m a) : I.Crossed i c.stack (c.goto a) :=
  .passed hc hleads (.level hlevel)

theorem crossed_close {reason : ExitReason} (h : reason ≠ .stackUnderflow)
    (hact : i.command.action ≠ .transfer .ret) : I.Crossed i calls (c.close reason) :=
  .ended rfl h hact

theorem not_ret_of_ne {t : Transfer} (hact : i.command.action = .transfer t) (h : t ≠ .ret) :
    i.command.action ≠ .transfer .ret := by
  rw [hact]
  intro heq
  exact h (Action.transfer.inj heq)

theorem Passed.control (h : Passed mode i c e) : e.control = c.control := by
  cases h with
  | unguarded => rfl
  | noted => rfl

/-- What is said of calls and an end is said of all branches with the same control. -/
theorem exit_and_stack (h : e.control = c.control) : e.exit? = c.exit? ∧ e.stack = c.stack :=
  ⟨congrArg Control.exit? h, congrArg Control.stack h⟩

theorem crossed_enter {call : Bool} {target : UInt32} {t : Transfer} (hc : c.exit? = none)
    (hact : i.command.action = .transfer t) (hentry : I.destination? i t = some (call, target)) :
    I.Crossed i c.stack (enter call i.next target c) := by
  cases call with
  | false => exact crossed_goto hc (Or.inr rfl) (.jump hact hentry)
  | true => exact .passed hc (.call hact hentry) .call

theorem crossed_reply {option : UInt8 × UInt16} (hc : c.exit? = none) (hruns : runsOn i = true) :
    I.Crossed i c.stack (reply i c option) := by
  have hcourse := SameCourse.storeVar (c.noteAnswer option.1) resultVar option.2 true
  obtain ⟨hexit, hstack⟩ := exit_and_stack hcourse.control
  refine .passed (hexit.trans hc) (.onward hruns) ?_
  have hcalls : (reply i c option).stack = c.stack := hstack
  rw [hcalls]
  exact .level (Or.inl rfl)

/-! ### Battles -/

theorem crossed_win {flag : UInt16} (hc : c.exit? = none)
    (hact : i.command.action = .transfer .battle) :
    I.Crossed i c.stack
      (win flag ((BattleKind.ofByte (i.operand 0).toUInt8).afterWin?.map i.operand) c) := by
  obtain ⟨hexit, hstack⟩ := exit_and_stack (SameCourse.setFlag c flag true).control
  cases hscript : (BattleKind.ofByte (i.operand 0).toUInt8).afterWin? with
  | none => exact crossed_close (by decide) (not_ret_of_ne hact (by decide))
  | some n =>
    rw [← hstack]
    exact crossed_goto (hexit.trans hc) (Or.inr rfl) (.afterWin hact hscript)

theorem crossed_settle {flag : UInt16} (hc : c.exit? = none) (hruns : runsOn i = true)
    (hact : i.command.action = .transfer .battle) :
    I.Crossed i c.stack
      (I.settle i flag ((BattleKind.ofByte (i.operand 0).toUInt8).afterWin?.map i.operand)
        ((BattleKind.ofByte (i.operand 0).toUInt8).tooFew?.map i.operand) c) := by
  unfold settle
  split
  · exact crossed_goto hc (Or.inl rfl) (.onward hruns)
  · split
    · next a htooFew =>
      obtain ⟨n, hn, rfl⟩ := Option.map_eq_some_iff.mp htooFew
      split
      · exact crossed_goto hc (Or.inr rfl) (.tooFew hact hn)
      · exact crossed_win hc hact
    · exact crossed_win hc hact

theorem Fought.crossed {flag : UInt16} (hc : c.exit? = none) (hruns : runsOn i = true)
    (hact : i.command.action = .transfer .battle)
    (h : I.Fought mode i c flag (.ofByte (i.operand 0).toUInt8) d) : I.Crossed i c.stack d := by
  cases h with
  | settled => exact crossed_settle hc hruns hact
  | revisit => exact crossed_close (by decide) (not_ret_of_ne hact (by decide))
  | passed he =>
    obtain ⟨hexit, hstack⟩ := exit_and_stack he.control
    rw [← hstack]
    exact crossed_goto (hexit.trans hc) (Or.inl rfl) (.onward hruns)
  | refused he hn =>
    obtain ⟨hexit, hstack⟩ := exit_and_stack he.control
    rw [← hstack]
    exact crossed_goto (hexit.trans hc) (Or.inr rfl) (.tooFew hact hn)
  | won he =>
    obtain ⟨hexit, hstack⟩ := exit_and_stack he.control
    rw [← hstack]
    exact crossed_win (hexit.trans hc) hact

/-! ### Transfers -/

theorem Moved.crossed {t : Transfer} (hc : c.exit? = none) (hact : i.command.action = .transfer t)
    (h : I.Moved mode i c t d) : I.Crossed i c.stack d := by
  have hruns : t.passes = true → runsOn i = true := by
    intro hpasses
    simp only [runsOn, hact, hpasses]
  cases h with
  | stop => exact crossed_close (by decide) (not_ret_of_ne hact (by decide))
  | kill => exact crossed_close (by decide) (not_ret_of_ne hact (by decide))
  | underflow hempty => exact .spent rfl hact hempty
  | back hstack =>
    rw [hstack]
    exact .passed hc (.back hact) .back
  | onward hpasses => exact crossed_goto hc (Or.inl rfl) (.onward (hruns hpasses))
  | revisit _ hguarded =>
    refine crossed_close (by decide) (not_ret_of_ne hact ?_)
    rintro rfl
    cases hguarded
  | entered hentry he =>
    obtain ⟨hexit, hstack⟩ := exit_and_stack he.control
    rw [← hstack]
    exact crossed_enter (hexit.trans hc) hact hentry
  | skipped hpasses he =>
    obtain ⟨hexit, hstack⟩ := exit_and_stack he.control
    rw [← hstack]
    exact crossed_goto (hexit.trans hc) (Or.inl rfl) (.onward (hruns hpasses))
  | chose hpasses he =>
    obtain ⟨hexit, hstack⟩ := exit_and_stack he.control
    rw [← hstack]
    exact crossed_reply (hexit.trans hc) (hruns hpasses)
  | @answered _ e answer later result hpasses he hgiven =>
    obtain ⟨hexit, hstack⟩ := exit_and_stack he.control
    rw [← hstack]
    have hrest : { e with pending := later }.exit? = none := hexit.trans hc
    exact crossed_reply hrest (hruns hpasses)
  | battle hd =>
    have hnoted : (c.noteInput (.flag (Command.trainerFlags + (i.operand 1).toUInt16))).exit? =
        c.exit? ∧ (c.noteInput (.flag (Command.trainerFlags + (i.operand 1).toUInt16))).stack =
        c.stack := ⟨rfl, rfl⟩
    rw [← hnoted.2]
    exact hd.crossed (hnoted.1.trans hc) (hruns rfl) hact

/-- **Every instruction passes control on as it allows, or ends the branch.** -/
theorem Ran.crossed (hc : c.exit? = none) (h : I.Ran mode i c d) : I.Crossed i c.stack d := by
  cases h with
  | inert hact =>
    have hruns : runsOn i = true := by simp only [runsOn, hact]
    exact crossed_goto hc (Or.inl rfl) (.onward hruns)
  | effect hact he =>
    have hruns : runsOn i = true := by simp only [runsOn, hact]
    obtain ⟨hexit, hstack⟩ := exit_and_stack (I.sameCourse_applyEffect he).control
    rw [← hstack]
    exact crossed_goto (hexit.trans hc) (Or.inl rfl) (.onward hruns)
  | transfer hact hd => exact hd.crossed hc hact

end Instruction

/-! ## Runs -/

/-- A branch that is open and the passages that it has come by. -/
structure Path (I : Interpreter) (c d : Context) (ps : List Passage) : Prop where
  trace : d.trace = c.trace ++ ps.map Passage.source
  joined : c.pc :: ps.map Passage.target = ps.map Passage.source ++ [d.pc]
  allowed : ∀ p ∈ ps, I.Allows p
  returns : ∀ before p after, ps = before ++ p :: after → p.manner = .back →
    I.ReturnsTo c.stack before p.target
  standing : I.Standing c.stack ps d.stack

/-- The instructions of a branch that is over, up to `last`, joined by passages that these
instructions allow, with every return where it belongs.  It has ended in a return with nowhere to
lead exactly when `last` is such a return. -/
structure Bracketed (I : Interpreter) (c e : Context) (ps : List Passage) (last : Instruction) :
    Prop where
  trace : e.trace = c.trace ++ ps.map Passage.source ++ [last.address]
  joined : c.pc :: ps.map Passage.target = ps.map Passage.source ++ [last.address]
  decoded : Instruction.decode I.memory last.address = .ok last
  allowed : ∀ p ∈ ps, I.Allows p
  returns : ∀ before p after, ps = before ++ p :: after → p.manner = .back →
    I.ReturnsTo c.stack before p.target
  underflow : e.exit? = some .stackUnderflow ↔
    last.command.action = .transfer .ret ∧ ∀ a, ¬I.ReturnsTo c.stack ps a

section Runs

variable {mode : Mode} {i : Instruction} {c d e : Context} {L : List Context}

theorem Next.trace_eq (h : I.Next mode d e) : e.trace = d.trace ++ [d.pc] := by
  unfold Context.trace
  rw [h.history_eq, List.reverse_cons]

theorem Path.start (c : Context) : I.Path c c [] where
  trace := (List.append_nil _).symm
  joined := rfl
  allowed _ hp := absurd hp List.not_mem_nil
  returns before _ _ heq _ := by cases before <;> cases heq
  standing := .start c.stack

/-- What a passage does to the calls is what it does to what stands. -/
theorem Standing.turns {m : Manner} {target : UInt32} {calls' : List UInt32}
    (h : I.Standing stack ps calls) (hi : Instruction.decode I.memory a = .ok i)
    (hm : Turns i.next target m calls calls') :
    I.Standing stack (ps ++ [⟨a, m, target⟩]) calls' ∧
      (m = .back → I.ReturnsTo stack ps target) := by
  cases hm with
  | level hlevel =>
    refine ⟨h.level hlevel, ?_⟩
    rintro rfl
    rcases hlevel with hm | hm <;> cases hm
  | call =>
    refine ⟨h.call rfl ⟨i, hi, rfl⟩, ?_⟩
    intro hm
    cases hm
  | back => exact ⟨h.back rfl, fun _ => h.returnsTo⟩

/-- **An instruction that passes control on adds its passage to the path.** -/
theorem Path.passed {m : Manner} (h : I.Path c d ps) (hnext : I.Next mode d e)
    (hi : Instruction.decode I.memory d.pc = .ok i) (hleads : I.Leads i m e.pc)
    (hturns : Turns i.next e.pc m d.stack e.stack) : I.Path c e (ps ++ [⟨d.pc, m, e.pc⟩]) := by
  obtain ⟨hstanding, hback⟩ := h.standing.turns hi hturns
  refine ⟨?trace, ?joined, ?allowed, ?returns, hstanding⟩
  case trace =>
    rw [hnext.trace_eq, h.trace, List.map_append, List.append_assoc]
    rfl
  case joined =>
    rw [List.map_append, List.map_append, ← List.cons_append, h.joined]
    rfl
  case allowed =>
    intro p hp
    rcases List.mem_append.mp hp with hp | hp
    · exact h.allowed p hp
    · obtain rfl := List.mem_singleton.mp hp
      exact ⟨i, hi, hleads⟩
  case returns =>
    intro before p after heq hp
    rcases List.eq_nil_or_concat after with rfl | ⟨rest, q, rfl⟩
    · obtain ⟨rfl, hlast⟩ := List.append_inj' heq rfl
      obtain rfl := (List.cons.inj hlast).1
      exact hback hp
    · have hsplit : ps = before ++ p :: rest := by
        rw [List.concat_eq_append, ← List.cons_append, ← List.append_assoc] at heq
        exact (List.append_inj' heq rfl).1
      exact h.returns before p rest hsplit hp

/-- The last instruction of a branch closes its path. -/
theorem Path.ended (h : I.Path c d ps) (hnext : I.Next mode d e)
    (hi : Instruction.decode I.memory d.pc = .ok i)
    (hend : e.exit? = some .stackUnderflow ↔ i.command.action = .transfer .ret ∧ d.stack = []) :
    I.Bracketed c e ps i := by
  have haddress : i.address = d.pc := Instruction.address_of_decode hi
  refine ⟨?trace, ?joined, ?decoded, h.allowed, h.returns, ?underflow⟩
  case trace => rw [hnext.trace_eq, h.trace, haddress]
  case joined => rw [h.joined, haddress]
  case decoded => rw [haddress, hi]
  case underflow => rw [hend, h.standing.empty_iff]

theorem isDone_of_exit {reason : ExitReason} (h : e.exit? = some reason) : e.isDone = true := by
  rw [Context.isDone, h]
  rfl

theorem exit_of_isDone (h : e.isDone = false) : e.exit? = none :=
  Option.isNone_iff_eq_none.mp (Option.isSome_eq_false_iff.mp h)

/-- An instruction crosses from an open branch to each of its next branches. -/
theorem Next.crossed (h : I.Next mode d e) :
    ∃ i, Instruction.decode I.memory d.pc = .ok i ∧ I.Crossed i d.stack e := by
  obtain ⟨i, hi, hran⟩ := h.ran
  have hopen : (d.noteRun i.address).exit? = none := exit_of_isDone h.1
  have hcrossed : I.Crossed i (d.noteRun i.address).stack e := hran.crossed hopen
  exact ⟨i, hi, hcrossed⟩

/-- A next branch that is open goes on with the path. -/
theorem Next.path (hnext : I.Next mode d e) (h : I.Path c d ps) (hopen : e.isDone = false) :
    ∃ qs, I.Path c e qs := by
  obtain ⟨i, hi, hcrossed⟩ := hnext.crossed
  cases hcrossed with
  | passed hgoing hleads hturns => exact ⟨_, h.passed hnext hi hleads hturns⟩
  | ended hexit => exact absurd (isDone_of_exit hexit) (by simp [hopen])
  | spent hexit => exact absurd (isDone_of_exit hexit) (by simp [hopen])

/-- A next branch that is over closes the path. -/
theorem Next.bracketed (hnext : I.Next mode d e) (h : I.Path c d ps) (hdone : e.isDone = true) :
    ∃ last, I.Bracketed c e ps last := by
  obtain ⟨i, hi, hcrossed⟩ := hnext.crossed
  refine ⟨i, h.ended hnext hi ?_⟩
  cases hcrossed with
  | passed hgoing =>
    rw [Context.isDone, hgoing] at hdone
    cases hdone
  | ended hexit hother hact =>
    rw [hexit, Option.some_inj]
    exact ⟨fun heq => absurd heq hother, fun hret => absurd hret.1 hact⟩
  | spent hexit hact hempty => exact ⟨fun _ => ⟨hact, hempty⟩, fun _ => hexit⟩

/-- Along a run every open branch has come by a path. -/
theorem Reaches.path (h : I.Reaches mode c d) (hopen : d.isDone = false) :
    ∃ ps, I.Path c d ps := by
  induction h with
  | refl => exact ⟨[], .start c⟩
  | tail _ hnext ih =>
    obtain ⟨ps, hps⟩ := ih hnext.1
    exact hnext.path hps hopen

/-- **Every run is a well-bracketed path of control.**  From an open context each outcome has run
instructions from where that context stood, each joined to the next by a passage that it allows;
returns lead behind the last call that has not been returned from, and then to what the context had
on its stack; and the outcome is out of calls exactly when it ends in a return that has neither. -/
theorem run_bracketed (hopen : c.isDone = false) (hL : I.run mode c = .ok L) (he : e ∈ L) :
    ∃ ps last, I.Bracketed c e ps last := by
  obtain ⟨hreaches, hdone⟩ := (mem_run_iff hL e).mp he
  rcases Relation.ReflTransGen.cases_tail hreaches with heq | ⟨d, hcd, hnext⟩
  · rw [heq, hopen] at hdone
    cases hdone
  · obtain ⟨ps, hps⟩ := Reaches.path hcd hnext.1
    obtain ⟨last, hlast⟩ := hnext.bracketed hps hdone
    exact ⟨ps, last, hlast⟩

/-- A script that calls a routine of its own, then a standard one nobody knows, and returns. -/
def callAndReturn : Interpreter :=
  .ofScript #[0x04, 0x09, 0, 0, 0x08, 0x09, 0xFF, 0x03, 0x02, 0x03]

theorem run_bracketed_callAndReturn :
    (Context.blank Memory.cartridgeBase).isDone = false ∧
    callAndReturn.run .explore (.blank Memory.cartridgeBase) =
      .ok (callAndReturn.endedBy .explore 6 (.blank Memory.cartridgeBase)) ∧
    ∃ e ∈ callAndReturn.endedBy .explore 6 (.blank Memory.cartridgeBase),
      e.trace = [0x08000000, 0x08000009, 0x08000005, 0x08000007] ∧
      e.exit? = some .stackUnderflow ∧
      ∃ ps last, callAndReturn.Bracketed (.blank Memory.cartridgeBase) e ps last := by
  have hopen : (Context.blank Memory.cartridgeBase).isDone = false := by decide
  have hturns : ((callAndReturn.turn .explore)^[6]
      (.start (.blank Memory.cartridgeBase))).opened = [] := by
    decide +kernel
  have hL := run_eq_endedBy 6 hturns (by decide) (by decide)
  have hended : ∃ e ∈ callAndReturn.endedBy .explore 6 (.blank Memory.cartridgeBase),
      e.trace = [0x08000000, 0x08000009, 0x08000005, 0x08000007] ∧
      e.exit? = some .stackUnderflow := by
    decide +kernel
  obtain ⟨e, he, htrace, hexit⟩ := hended
  exact ⟨hopen, hL, e, he, htrace, hexit, run_bracketed hopen hL he⟩

end Runs

end Cartridge.Interpreter
