import Cartridge.Proofs.Script.Turns
import Mathlib.Data.List.Forall2

/-!
# Limits — what a run's limits can change

Limits only ever cut a run off: a run that they have let finish, or that a fault has ended, gives
the same answer within wider ones (`Interpreter.drain_withLimits`).  `Interpreter.Proceeds` keeps
the account of a run, the instructions that it has carried out and the branches that they have split
off.  By that account a run is cut off exactly at its limit of instructions or of waiting branches,
and one that finishes brings the branch that it started with and every one that was split off to an
end of its own, in this order.
-/

namespace Cartridge.Interpreter

variable {I : Interpreter} {mode : Mode} {b c d e : Context} {forks closed L : List Context}
  {g g' : Agenda} {waiting later : Queue Context} {a : Advance} {steps n k : Nat}

/-- The same interpreter with other limits. -/
def withLimits (I : Interpreter) (limits : RunLimits) : Interpreter :=
  { I with limits := limits }

/-! ## Wider limits -/

/-- A queue with more room takes what one with less room has taken. -/
theorem enqueue_mono {cap cap' : Nat} (hcap : cap ≤ cap')
    (h : enqueue? cap waiting forks = some later) : enqueue? cap' waiting forks = some later := by
  unfold enqueue? at h ⊢
  split at h
  · next hf => rwa [if_pos hf]
  · next hf =>
    rw [if_neg hf]
    split at h
    · next hroom => rwa [if_pos (Nat.le_trans hroom hcap)]
    · cases h

/-- **What wider limits do not change**: the answer of a run that its own limits have not cut off. -/
theorem drain_withLimits {limits : RunLimits} (hcap : I.limits.maxContexts ≤ limits.maxContexts)
    (h : ¬Exhausted (I.drain mode steps c waiting closed)) :
    ∀ more, steps ≤ more → (I.withLimits limits).drain mode more c waiting closed =
      I.drain mode steps c waiting closed := by
  fun_induction I.drain mode steps c waiting closed with
  | case1 steps c waiting closed hdone hpop =>
    intro more _
    exact drain_last hdone hpop
  | case2 steps c waiting closed hdone next later hpop _ ih =>
    intro more hmore
    rw [drain_next hdone hpop]
    exact ih h more hmore
  | case3 => exact absurd ⟨_, rfl, rfl⟩ h
  | case4 c waiting closed hdone steps fault hfault =>
    intro more hmore
    obtain ⟨more, rfl⟩ := Nat.exists_eq_succ_of_ne_zero (Nat.ne_of_gt (Nat.zero_lt_of_lt hmore))
    exact drain_fault hdone hfault
  | case5 => exact absurd ⟨_, rfl, rfl⟩ h
  | case6 c waiting closed hdone steps a ha later hq ih =>
    intro more hmore
    obtain ⟨more, rfl⟩ := Nat.exists_eq_succ_of_ne_zero (Nat.ne_of_gt (Nat.zero_lt_of_lt hmore))
    have hq' : enqueue? (I.withLimits limits).limits.maxContexts waiting a.forks = some later :=
      enqueue_mono hcap hq
    rw [drain_step (I := I.withLimits limits) hdone ha hq']
    exact ih h more (Nat.le_of_succ_le_succ hmore)

/-! ## The account of a run -/

variable (I mode) in
/-- From one agenda a run comes to another by `n` instructions, which split off `forks`. -/
inductive Proceeds : Agenda → (n : Nat) → (forks : List Context) → Agenda → Prop where
  | refl (g : Agenda) : Proceeds g 0 [] g
  /-- The branch that comes first is over. -/
  | close {c : Context} {waiting closed : List Context} {n : Nat} {forks : List Context}
    {g : Agenda} (done : c.isDone = true) (rest : Proceeds ⟨waiting, c :: closed⟩ n forks g) :
    Proceeds ⟨c :: waiting, closed⟩ n forks g
  /-- The branch that comes first runs an instruction. -/
  | step {c : Context} {waiting closed : List Context} {a : Advance} {n : Nat}
    {forks : List Context} {g : Agenda} (more : c.isDone = false) (ran : I.step mode c = .ok a)
    (rest : Proceeds ⟨a.context :: (waiting ++ a.forks), closed⟩ n forks g) :
    Proceeds ⟨c :: waiting, closed⟩ (n + 1) (a.forks ++ forks) g

/-- **A run that finishes** has carried out no more instructions than its limit allows, and nothing
is left to run. -/
theorem proceeds_of_drain (h : I.drain mode steps c waiting closed = .ok L) :
    ∃ n forks, n ≤ steps ∧
      I.Proceeds mode ⟨c :: waiting.toList, closed⟩ n forks ⟨[], L.reverse⟩ := by
  fun_induction I.drain mode steps c waiting closed with
  | case1 steps c waiting closed hdone hpop =>
    cases h
    rw [Queue.pop?_eq_none_iff.mp hpop, List.reverse_reverse]
    exact ⟨0, [], Nat.zero_le _, .close hdone (.refl _)⟩
  | case2 steps c waiting closed hdone next later hpop _ ih =>
    obtain ⟨n, forks, hn, hrest⟩ := ih h
    rw [Queue.toList_of_pop hpop]
    exact ⟨n, forks, hn, .close hdone hrest⟩
  | case3 => cases h
  | case4 => cases h
  | case5 => cases h
  | case6 c waiting closed hdone steps a ha later hq ih =>
    obtain ⟨n, forks, hn, hrest⟩ := ih h
    rw [toList_of_enqueue hq] at hrest
    exact ⟨n + 1, _, Nat.succ_le_succ hn, .step (by simpa using hdone) ha hrest⟩

/-- **A run that is out of budget** has carried out as many instructions as its limit allows, and the
branch that comes first is not over. -/
theorem proceeds_of_exhausted
    (h : I.drain mode steps c waiting closed = .error (.budgetExhausted k)) :
    k = I.limits.maxSteps ∧ ∃ forks d rest closed',
      I.Proceeds mode ⟨c :: waiting.toList, closed⟩ steps forks ⟨d :: rest, closed'⟩ ∧
        d.isDone = false := by
  fun_induction I.drain mode steps c waiting closed with
  | case1 => cases h
  | case2 steps c waiting closed hdone next later hpop _ ih =>
    obtain ⟨hk, forks, d, rest, closed', hrest, hd⟩ := ih h
    rw [Queue.toList_of_pop hpop]
    exact ⟨hk, forks, d, rest, closed', .close hdone hrest, hd⟩
  | case3 c waiting closed hdone =>
    cases h
    exact ⟨rfl, [], c, _, closed, .refl _, by simpa using hdone⟩
  | case4 c waiting closed hdone steps fault hfault =>
    have hlimit := cause_step hfault
    rw [Except.error.inj h] at hlimit
    cases hlimit
  | case5 => cases h
  | case6 c waiting closed hdone steps a ha later hq ih =>
    obtain ⟨hk, forks, d, rest, closed', hrest, hd⟩ := ih h
    rw [toList_of_enqueue hq] at hrest
    exact ⟨hk, _, d, rest, closed', .step (by simpa using hdone) ha hrest, hd⟩

/-- **A run with too many branches** has come to an instruction that splits off more of them than its
limit leaves room for. -/
theorem proceeds_of_full
    (h : I.drain mode steps c waiting closed = .error (.contextCapExceeded k)) :
    k = I.limits.maxContexts ∧ ∃ n forks d rest closed' a,
      I.Proceeds mode ⟨c :: waiting.toList, closed⟩ n forks ⟨d :: rest, closed'⟩ ∧
        d.isDone = false ∧ I.step mode d = .ok a ∧ k < rest.length + a.forks.length := by
  fun_induction I.drain mode steps c waiting closed with
  | case1 => cases h
  | case2 steps c waiting closed hdone next later hpop _ ih =>
    obtain ⟨hk, n, forks, d, rest, closed', a, hrest, hd⟩ := ih h
    rw [Queue.toList_of_pop hpop]
    exact ⟨hk, n, forks, d, rest, closed', a, .close hdone hrest, hd⟩
  | case3 => cases h
  | case4 c waiting closed hdone steps fault hfault =>
    have hlimit := cause_step hfault
    rw [Except.error.inj h] at hlimit
    cases hlimit
  | case5 c waiting closed hdone steps a ha hq =>
    cases h
    refine ⟨rfl, 0, [], c, _, closed, a, .refl _, by simpa using hdone, ha, ?_⟩
    rw [Queue.length_toList]
    by_contra hroom
    obtain ⟨later, hlater, -⟩ := enqueue_eq_some (Nat.le_of_not_lt hroom)
    rw [hq] at hlater
    cases hlater
  | case6 c waiting closed hdone steps a ha later hq ih =>
    obtain ⟨hk, n, forks, d, rest, closed', b, hrest, hd⟩ := ih h
    rw [toList_of_enqueue hq] at hrest
    exact ⟨hk, n + 1, _, d, rest, closed', b, .step (by simpa using hdone) ha hrest, hd⟩

/-! ## Every branch has its end -/

variable (I mode) in
/-- The next instruction of `c` makes `d` of it; what it splits off are other branches. -/
def Stays (c d : Context) : Prop :=
  c.isDone = false ∧ ∃ a, I.step mode c = .ok a ∧ a.context = d

variable (I mode) in
/-- `e` is the end that the branch `c` itself comes to. -/
def EndsAs (c e : Context) : Prop :=
  Relation.ReflTransGen (I.Stays mode) c e ∧ e.isDone = true

/-- **A run that has nothing left to run** has closed one branch for each that was open and for each
that was split off on the way, the end that this one came to, in the same order. -/
theorem Proceeds.ends (h : I.Proceeds mode g n forks g') (hnil : g'.opened = []) :
    ∃ ends, g'.closed = ends.reverse ++ g.closed ∧
      List.Forall₂ (I.EndsAs mode) (g.opened ++ forks) ends := by
  induction h with
  | refl g =>
    rw [hnil]
    exact ⟨[], rfl, .nil⟩
  | @close c waiting closed n forks g' done _ ih =>
    obtain ⟨ends, hclosed, hends⟩ := ih hnil
    refine ⟨c :: ends, ?_, .cons ⟨.refl, done⟩ hends⟩
    rw [hclosed, List.reverse_cons, List.append_assoc, List.singleton_append]
  | @step c waiting closed a n forks g' more ran _ ih =>
    obtain ⟨ends, hclosed, hends⟩ := ih hnil
    simp only [List.cons_append, List.append_assoc] at hends ⊢
    obtain ⟨e, ends, ⟨hstays, hdone⟩, hrest, rfl⟩ := List.forall₂_cons_left_iff.mp hends
    have hstay : I.Stays mode c a.context := ⟨more, a, ran, rfl⟩
    exact ⟨e :: ends, hclosed, .cons ⟨.head hstay hstays, hdone⟩ hrest⟩

/-- **Limits never change an answer.**  What a run answers within some limits, if it is not that they
cut it off, it answers within wider ones.  A run is cut off at the very number of instructions that
its limit allows, with a branch that is not over, or at an instruction that splits off more branches
than there is room for; and the error reports that limit.  The answer of a run that finishes holds
the end of the branch it started with and, in order, those of all branches that were split off. -/
theorem run_withLimits {limits : RunLimits} (hsteps : I.limits.maxSteps ≤ limits.maxSteps)
    (hcontexts : I.limits.maxContexts ≤ limits.maxContexts) (mode : Mode) (c : Context) :
    (∀ r, I.run mode c = r → ¬Exhausted r → (I.withLimits limits).run mode c = r) ∧
    (∀ k, I.run mode c = .error (.budgetExhausted k) → k = I.limits.maxSteps ∧
      ∃ forks d waiting closed, I.Proceeds mode (.start c) k forks ⟨d :: waiting, closed⟩ ∧
        d.isDone = false) ∧
    (∀ k, I.run mode c = .error (.contextCapExceeded k) → k = I.limits.maxContexts ∧
      ∃ n forks d waiting closed a,
        I.Proceeds mode (.start c) n forks ⟨d :: waiting, closed⟩ ∧ d.isDone = false ∧
        I.step mode d = .ok a ∧ k < waiting.length + a.forks.length) ∧
    ∀ L, I.run mode c = .ok L → ∃ n forks, n ≤ I.limits.maxSteps ∧
      I.Proceeds mode (.start c) n forks ⟨[], L.reverse⟩ ∧
      L.length = 1 + forks.length ∧ List.Forall₂ (I.EndsAs mode) (c :: forks) L := by
  refine ⟨?same, ?spent, ?full, ?done⟩
  case same =>
    rintro r rfl hr
    exact drain_withLimits hcontexts hr _ hsteps
  case spent =>
    intro k hk
    obtain ⟨rfl, hproceeds⟩ := proceeds_of_exhausted hk
    exact ⟨rfl, hproceeds⟩
  case full =>
    intro k hk
    exact proceeds_of_full hk
  case done =>
    intro L hL
    obtain ⟨n, forks, hn, hproceeds⟩ := proceeds_of_drain hL
    obtain ⟨ends, hclosed, hends⟩ := hproceeds.ends rfl
    obtain rfl : L = ends := by simpa using hclosed
    have hlength := hends.length_eq
    refine ⟨n, forks, hn, hproceeds, ?_, hends⟩
    rw [← hlength, Nat.add_comm]
    rfl

/-- A script that asks for an answer and ends, run within narrow limits. -/
def askOnce : Interpreter :=
  (ofScript #[0x6E, 0, 0, 0x02]).withLimits ⟨6, 640⟩

theorem run_withLimits_askOnce :
    askOnce.limits.maxSteps ≤ RunLimits.maxSteps {} ∧
    askOnce.limits.maxContexts ≤ RunLimits.maxContexts {} ∧
    ∃ L, askOnce.run .explore (.blank Memory.cartridgeBase) = .ok L ∧
      L.map (·.choices) = [[0], [1]] ∧
      (askOnce.withLimits {}).run .explore (.blank Memory.cartridgeBase) = .ok L ∧
      ∃ n forks, n ≤ 6 ∧
        askOnce.Proceeds .explore (.start (.blank Memory.cartridgeBase)) n forks ⟨[], L.reverse⟩ ∧
        L.length = 1 + forks.length := by
  have hsteps : askOnce.limits.maxSteps ≤ RunLimits.maxSteps {} := by decide
  have hcontexts : askOnce.limits.maxContexts ≤ RunLimits.maxContexts {} := by decide
  have hturns : ((askOnce.turn .explore)^[5] (.start (.blank Memory.cartridgeBase))).opened = [] := by
    decide +kernel
  have hL := run_eq_endedBy 5 hturns (by decide) (by decide)
  have hchoices : (askOnce.endedBy .explore 5 (.blank Memory.cartridgeBase)).map (·.choices) =
      [[0], [1]] := by
    decide +kernel
  have hlimits := run_withLimits hsteps hcontexts .explore (.blank Memory.cartridgeBase)
  obtain ⟨hsame, -, -, hdone⟩ := hlimits
  obtain ⟨n, forks, hn, hproceeds, hlength, -⟩ := hdone _ hL
  have hfinished : ¬Exhausted (askOnce.run .explore (.blank Memory.cartridgeBase)) := by
    rw [hL]
    rintro ⟨e, he, -⟩
    cases he
  exact ⟨hsteps, hcontexts, _, hL, hchoices, (hsame _ rfl hfinished).trans hL, n, forks, hn,
    hproceeds, hlength⟩

end Cartridge.Interpreter
