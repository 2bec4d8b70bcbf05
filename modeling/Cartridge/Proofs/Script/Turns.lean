import Cartridge.Proofs.Script.Fault
import Cartridge.Proofs.Script.Reach
import Mathlib.Logic.Function.Iterate

/-!
# Turns — a run without its limits

An `Agenda` is where a run stands: the branches that are open, the one that runs first, and those
that are over.  `Interpreter.turn` serves the first open branch, with room for everything, and stays
put once `Interpreter.answer?` has the answer of the run.  No instruction splits off more than
`forkLimit` branches, so limits that leave room for the turns of a run do not change its answer
(`drain_of_turns`), and a run that its limits have not cut off has come to its answer in its turns
(`turns_of_drain`).
-/

namespace Cartridge

/-- Where a run stands. -/
structure Agenda where
  /-- The branches to run, first the one that is running. -/
  opened : List Context
  /-- The branches that are over, newest first. -/
  closed : List Context := []

namespace Agenda

/-- A run of one branch, about to start. -/
def start (c : Context) : Agenda :=
  { opened := [c] }

end Agenda

/-- Whether an error says that a run was cut off by its limits. -/
def ScriptError.isLimit : ScriptError → Bool
  | budgetExhausted _ | contextCapExceeded _ => true
  | _ => false

/-- A run that was cut off by its limits. -/
def Exhausted {α : Type} (r : Except ScriptError α) : Prop :=
  ∃ e, r = .error e ∧ e.isLimit = true

namespace Interpreter

variable (I : Interpreter) (mode : Mode)

/-- The answer of a run with nothing left to run, or whose next instruction fails. -/
def answer? (g : Agenda) : Option (Except ScriptError (List Context)) :=
  match g.opened with
  | [] => some (.ok g.closed.reverse)
  | c :: _ =>
    if c.isDone then none
    else
      match I.step mode c with
      | .ok _ => none
      | .error fault => some (.error fault.cause)

/-- Closes the first open branch if it is over, and runs its next instruction if it is not. -/
def turn (g : Agenda) : Agenda :=
  match g.opened with
  | [] => g
  | c :: waiting =>
    if c.isDone then ⟨waiting, c :: g.closed⟩
    else
      match I.step mode c with
      | .ok a => ⟨a.context :: (waiting ++ a.forks), g.closed⟩
      | .error _ => g

variable {I mode}

theorem turn_of_isDone {c : Context} {waiting closed : List Context} (h : c.isDone = true) :
    I.turn mode ⟨c :: waiting, closed⟩ = ⟨waiting, c :: closed⟩ := by
  simp [turn, h]

theorem turn_of_step {c : Context} {waiting closed : List Context} {a : Advance}
    (h : c.isDone = false) (ha : I.step mode c = .ok a) :
    I.turn mode ⟨c :: waiting, closed⟩ = ⟨a.context :: (waiting ++ a.forks), closed⟩ := by
  simp [turn, h, ha]

theorem answer_of_fault {c : Context} {waiting closed : List Context} {fault : Fault}
    (h : c.isDone = false) (hf : I.step mode c = .error fault) :
    I.answer? mode ⟨c :: waiting, closed⟩ = some (.error fault.cause) := by
  simp [answer?, h, hf]

/-- Once a run has its answer, it stays put. -/
theorem turn_of_answer {g : Agenda} {r : Except ScriptError (List Context)}
    (h : I.answer? mode g = some r) : I.turn mode g = g := by
  obtain ⟨opened, closed⟩ := g
  cases opened with
  | nil => rfl
  | cons c waiting =>
    simp only [answer?] at h
    split at h
    · cases h
    · next hc =>
      split at h
      · cases h
      · next fault hf => simp [turn, hc, hf]

theorem answer_after {g : Agenda} {r : Except ScriptError (List Context)}
    (h : I.answer? mode g = some r) (n : Nat) : I.answer? mode ((I.turn mode)^[n] g) = some r := by
  rw [Function.iterate_fixed (turn_of_answer h)]
  exact h

/-- A run with nothing left to run stays that way. -/
theorem opened_of_le {g : Agenda} {n k : Nat} (h : ((I.turn mode)^[n] g).opened = [])
    (hle : n ≤ k) : ((I.turn mode)^[k] g).opened = [] := by
  obtain ⟨j, rfl⟩ := Nat.exists_eq_add_of_le hle
  have hfixed : I.turn mode ((I.turn mode)^[n] g) = (I.turn mode)^[n] g := by
    rw [turn, h]
  rw [Nat.add_comm, Function.iterate_add_apply, Function.iterate_fixed hfixed, h]

/-! ## Forks of one instruction -/

/-- The branches that one instruction can split off: all answers to a list but the first. -/
def forkLimit : Nat := backOut.toNat

theorem forks_guarded {i : Instruction} {c : Context} {proceed : Context → Advance} {n : Nat}
    (h : ∀ d, (proceed d).forks.length ≤ n) : (guarded mode i c proceed).forks.length ≤ n := by
  cases mode with
  | execute => exact h c
  | explore =>
    simp only [guarded]
    split
    · exact h _
    · exact Nat.zero_le n

theorem forks_branch {i : Instruction} {call : Bool} {relation? : Option Relation}
    {target? : Option UInt32} {c : Context} :
    (branch mode i call relation? target? c).forks.length ≤ 1 := by
  unfold branch
  split
  · refine forks_guarded fun d => ?_
    dsimp only
    split
    · exact Nat.zero_le 1
    · exact Nat.le_refl 1
  · exact Nat.zero_le 1

theorem forks_prompt {i : Instruction} {options : List (UInt8 × UInt16)} {c : Context} :
    (prompt mode i options c).forks.length ≤ options.length - 1 := by
  refine forks_guarded fun d => ?_
  dsimp only
  split
  · exact Nat.zero_le _
  · cases options with
    | nil => exact Nat.zero_le _
    | cons first rest => simp

theorem forks_battle {i : Instruction} {kind : BattleKind} {c : Context} :
    (I.battle mode i kind c).forks.length ≤ 2 := by
  simp only [battle]
  split
  · exact Nat.zero_le 2
  · refine forks_guarded fun d => ?_
    cases kind.tooFew? with
    | none => exact Nat.le_succ 1
    | some n => exact Nat.le_refl 2

theorem forks_transfer {i : Instruction} {t : Transfer} {c : Context} :
    (I.applyTransfer mode i t c).forks.length ≤ forkLimit := by
  have hone : 1 ≤ forkLimit := by decide
  cases t with
  | stop | kill => exact Nat.zero_le _
  | ret =>
    simp only [applyTransfer]
    split <;> exact Nat.zero_le _
  | jump call => exact forks_guarded fun d => Nat.zero_le _
  | branch call => exact Nat.le_trans forks_branch hone
  | standard call =>
    simp only [applyTransfer]
    split
    · exact forks_guarded fun d => Nat.zero_le _
    · exact Nat.zero_le _
  | standardBranch call => exact Nat.le_trans forks_branch hone
  | yesNo => exact Nat.le_trans forks_prompt hone
  | choice =>
    refine Nat.le_trans forks_prompt ?_
    simp only [listOptions, forkLimit, List.length_append, List.length_map, List.length_range]
    split
    · simp only [List.length_nil]; omega
    · simp only [List.length_singleton]; omega
  | battle => exact Nat.le_trans forks_battle (by decide)

/-- **No instruction splits off more branches than a list has answers to choose from.** -/
theorem forks_step {c : Context} {a : Advance} (h : I.step mode c = .ok a) :
    a.forks.length ≤ forkLimit := by
  unfold step at h
  split at h
  · unfold perform at h
    split at h
    · cases h; exact Nat.zero_le _
    · split at h
      · cases h; exact Nat.zero_le _
      · cases h
    · cases h; exact forks_transfer
  · cases h

/-! ## Errors of one instruction -/

/-- **An instruction fails for what it decodes or reads**, never for the limits of the run. -/
theorem cause_step {c : Context} {fault : Fault} (h : I.step mode c = .error fault) :
    fault.cause.isLimit = false := by
  cases step_eq_error_iff.mp h with
  | undecoded fails => rfl
  | torn decoded action fails =>
    obtain ⟨n, m, -, -, hcause, -⟩ := fails.missing
    rw [hcause]
    rfl

theorem not_exhausted_of_answer {g : Agenda} {r : Except ScriptError (List Context)}
    (h : I.answer? mode g = some r) : ¬Exhausted r := by
  rintro ⟨e, rfl, he⟩
  unfold answer? at h
  split at h
  · cases h
  · split at h
    · cases h
    · split at h
      · cases h
      · next fault hs =>
        cases h
        rw [cause_step hs] at he
        cases he

/-! ## Runs and turns -/

theorem enqueue_eq_some {cap : Nat} {waiting : Queue Context} {forks : List Context}
    (h : waiting.size + forks.length ≤ cap) :
    ∃ later, enqueue? cap waiting forks = some later ∧
      later.size = waiting.size + forks.length := by
  unfold enqueue?
  split
  · next hf => exact ⟨waiting, rfl, by rw [List.isEmpty_iff.mp hf, List.length_nil, Nat.add_zero]⟩
  · exact ⟨_, rfl, Queue.size_pushAll _ _⟩

/-- **Limits that leave room for the turns of a run do not change its answer.** -/
theorem drain_of_turns {r : Except ScriptError (List Context)} {n : Nat} :
    ∀ {steps : Nat} {current : Context} {waiting : Queue Context} {closed : List Context},
      I.answer? mode ((I.turn mode)^[n] ⟨current :: waiting.toList, closed⟩) = some r →
      n < steps → waiting.size + forkLimit * n ≤ I.limits.maxContexts →
      I.drain mode steps current waiting closed = r := by
  induction n with
  | zero =>
    intro steps current waiting closed hr hn _
    obtain ⟨steps, rfl⟩ := Nat.exists_eq_succ_of_ne_zero (Nat.ne_of_gt hn)
    simp only [Function.iterate_zero, id_eq, answer?] at hr
    split at hr
    · cases hr
    · next hdone =>
      split at hr
      · cases hr
      · next fault hf =>
        cases hr
        exact drain_fault hdone hf
  | succ n ih =>
    intro steps current waiting closed hr hn hroom
    obtain ⟨steps, rfl⟩ := Nat.exists_eq_succ_of_ne_zero (Nat.ne_of_gt (Nat.zero_lt_of_lt hn))
    rw [Function.iterate_succ_apply] at hr
    by_cases hdone : current.isDone = true
    · rw [turn_of_isDone hdone] at hr
      cases hpop : waiting.pop? with
      | none =>
        -- Nothing waits, so the agenda has its answer.
        rw [Queue.pop?_eq_none_iff.mp hpop, answer_after rfl] at hr
        rw [drain_last hdone hpop]
        exact Option.some.inj hr
      | some p =>
        obtain ⟨next, later⟩ := p
        rw [Queue.toList_of_pop hpop] at hr
        have hsize := Queue.size_of_pop hpop
        rw [drain_next hdone hpop]
        exact ih hr (by omega) (by rw [Nat.mul_succ] at hroom; omega)
    · cases ha : I.step mode current with
      | error fault =>
        rw [← Function.iterate_succ_apply,
          answer_after (answer_of_fault (by simpa using hdone) ha)] at hr
        rw [drain_fault hdone ha]
        exact Option.some.inj hr
      | ok a =>
        rw [turn_of_step (by simpa using hdone) ha] at hr
        have hforks := forks_step ha
        rw [Nat.mul_succ] at hroom
        have hfits : waiting.size + a.forks.length ≤ I.limits.maxContexts := by omega
        obtain ⟨later, hlater, hsize⟩ := enqueue_eq_some hfits
        rw [← toList_of_enqueue hlater] at hr
        rw [drain_step hdone ha hlater]
        exact ih hr (by omega) (by omega)

/-- **A run that its limits have not cut off has come to its answer in its turns.** -/
theorem turns_of_drain {steps : Nat} {current : Context} {waiting : Queue Context}
    {closed : List Context} (h : ¬Exhausted (I.drain mode steps current waiting closed)) :
    ∃ n, I.answer? mode ((I.turn mode)^[n] ⟨current :: waiting.toList, closed⟩) =
      some (I.drain mode steps current waiting closed) := by
  fun_induction I.drain mode steps current waiting closed with
  | case1 steps current waiting closed hdone hpop =>
    refine ⟨1, ?_⟩
    rw [Function.iterate_one, turn_of_isDone hdone, Queue.pop?_eq_none_iff.mp hpop]
    rfl
  | case2 steps current waiting closed hdone next later hpop _ ih =>
    obtain ⟨n, hn⟩ := ih h
    refine ⟨n + 1, ?_⟩
    rw [Function.iterate_succ_apply, turn_of_isDone hdone, Queue.toList_of_pop hpop]
    exact hn
  | case3 => exact absurd ⟨_, rfl, rfl⟩ h
  | case4 current waiting closed hdone steps fault hf =>
    exact ⟨0, answer_of_fault (by simpa using hdone) hf⟩
  | case5 => exact absurd ⟨_, rfl, rfl⟩ h
  | case6 current waiting closed hdone steps a ha later hq ih =>
    obtain ⟨n, hn⟩ := ih h
    refine ⟨n + 1, ?_⟩
    rw [Function.iterate_succ_apply, turn_of_step (by simpa using hdone) ha,
      ← toList_of_enqueue hq]
    exact hn

/-- A run with room for its turns gives the answer that it comes to in its turns. -/
theorem run_of_turns {c : Context} {r : Except ScriptError (List Context)} (n : Nat)
    (h : I.answer? mode ((I.turn mode)^[n] (.start c)) = some r) (hn : n < I.limits.maxSteps)
    (hroom : forkLimit * n ≤ I.limits.maxContexts) : I.run mode c = r := by
  have hstart : I.answer? mode ((I.turn mode)^[n] ⟨c :: (Queue.ofList []).toList, []⟩) = some r := h
  exact drain_of_turns hstart hn (by simpa [Queue.ofList] using hroom)

/-- The branches that are over after some turns of a run, in the order in which they ended. -/
def endedBy (I : Interpreter) (mode : Mode) (n : Nat) (c : Context) : List Context :=
  ((I.turn mode)^[n] (.start c)).closed.reverse

/-- A run that has nothing left to run after some turns answers with what is over by then. -/
theorem run_eq_endedBy {c : Context} (n : Nat) (h : ((I.turn mode)^[n] (.start c)).opened = [])
    (hn : n < I.limits.maxSteps) (hroom : forkLimit * n ≤ I.limits.maxContexts) :
    I.run mode c = .ok (I.endedBy mode n c) :=
  run_of_turns n (by rw [answer?, h, endedBy]) hn hroom

/-- While a run serves all its branches, every branch that is reached comes first at some turn. -/
theorem exists_turn_of_reaches {c d : Context} {g : Agenda} {n : Nat}
    (h : ((I.turn mode)^[n] g).opened = []) (hc : c ∈ g.opened) (hd : I.Reaches mode c d) :
    ∃ k < n, ((I.turn mode)^[k] g).opened.head? = some d := by
  induction n generalizing g c with
  | zero =>
    rw [Function.iterate_zero, id_eq] at h
    rw [h] at hc
    exact absurd hc List.not_mem_nil
  | succ n ih =>
    rw [Function.iterate_succ_apply] at h
    obtain ⟨opened, closed⟩ := g
    -- What comes first later comes first after the first turn.
    have hlater {c' : Context} (hc' : c' ∈ (I.turn mode ⟨opened, closed⟩).opened)
        (hd' : I.Reaches mode c' d) :
        ∃ k < n + 1, ((I.turn mode)^[k] ⟨opened, closed⟩).opened.head? = some d := by
      obtain ⟨k, hk, hfirst⟩ := ih h hc' hd'
      exact ⟨k + 1, Nat.succ_lt_succ hk, hfirst⟩
    cases opened with
    | nil => exact absurd hc List.not_mem_nil
    | cons b waiting =>
      by_cases hdone : b.isDone = true
      · rw [turn_of_isDone hdone] at hlater
        rcases List.mem_cons.mp hc with rfl | hc
        · exact ⟨0, Nat.succ_pos n, congrArg some (hd.eq_of_isDone hdone).symm⟩
        · exact hlater hc hd
      · rw [Bool.not_eq_true] at hdone
        cases ha : I.step mode b with
        | error fault =>
          rw [turn_of_answer (answer_of_fault hdone ha), Function.iterate_fixed
            (turn_of_answer (answer_of_fault hdone ha))] at h
          cases h
        | ok a =>
          rw [turn_of_step hdone ha] at hlater
          rcases List.mem_cons.mp hc with rfl | hc
          · rcases hd.cases_step ha with rfl | ⟨e, he, hed⟩
            · exact ⟨0, Nat.succ_pos n, rfl⟩
            · rcases List.mem_cons.mp he with rfl | he
              · exact hlater List.mem_cons_self hed
              · exact hlater (List.mem_cons_of_mem _ (List.mem_append_right _ he)) hed
          · exact hlater (List.mem_cons_of_mem _ (List.mem_append_left _ hc)) hd

end Interpreter

end Cartridge
