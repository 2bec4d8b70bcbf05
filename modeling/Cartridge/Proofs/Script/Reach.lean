import Cartridge.Proofs.Script.Control
import Cartridge.Script.Run
import Mathlib.Logic.Relation

/-!
# Reach — the branches that a run goes through

`Interpreter.Next` leads from a branch that is not over to every branch that its next instruction
makes of it, and `Interpreter.Reaches` is its closure.  A run that gives an answer has met no fault
on any branch it reaches, and it answers exactly the reached branches that are over, whatever the
order in which the queue served them.
-/

namespace Cartridge

/-- The branches after an instruction, the one that ran it first. -/
def Advance.branches (a : Advance) : List Context :=
  a.context :: a.forks

namespace Interpreter

variable (I : Interpreter) (mode : Mode)

/-- `d` is one of the branches that the next instruction makes of `c`. -/
def Next (c d : Context) : Prop :=
  c.isDone = false ∧ ∃ a, I.step mode c = .ok a ∧ d ∈ a.branches

/-- `d` comes from `c` by some instructions. -/
def Reaches : Context → Context → Prop :=
  Relation.ReflTransGen (I.Next mode)

variable {I mode}

theorem Reaches.refl (c : Context) : I.Reaches mode c c := Relation.ReflTransGen.refl

/-- What a branch that is not over reaches, it is itself or one of its next branches reaches. -/
theorem Reaches.head {c d e : Context} {a : Advance} (hc : c.isDone = false)
    (ha : I.step mode c = .ok a) (hd : d ∈ a.branches) (h : I.Reaches mode d e) :
    I.Reaches mode c e :=
  Relation.ReflTransGen.head ⟨hc, a, ha, hd⟩ h

theorem Reaches.eq_of_isDone {c d : Context} (h : I.Reaches mode c d) (hc : c.isDone = true) :
    d = c := by
  rcases Relation.ReflTransGen.cases_head h with heq | ⟨e, he, -⟩
  · exact heq.symm
  · exact absurd he.1 (by simp [hc])

theorem Reaches.cases_step {c d : Context} {a : Advance} (h : I.Reaches mode c d)
    (ha : I.step mode c = .ok a) : d = c ∨ ∃ e ∈ a.branches, I.Reaches mode e d := by
  rcases Relation.ReflTransGen.cases_head h with heq | ⟨e, ⟨-, a', ha', he⟩, hed⟩
  · exact Or.inl heq.symm
  · obtain rfl : a' = a := by rw [ha] at ha'; exact (Except.ok.inj ha').symm
    exact Or.inr ⟨e, he, hed⟩

/-! ## The queue -/

theorem toList_of_enqueue {cap : Nat} {waiting later : Queue Context} {forks : List Context}
    (h : enqueue? cap waiting forks = some later) : later.toList = waiting.toList ++ forks := by
  unfold enqueue? at h
  split at h
  · next hf => cases h; rw [List.isEmpty_iff.mp hf, List.append_nil]
  · split at h
    · cases h; exact Queue.toList_pushAll _ _
    · cases h

/-- The branches of a run after the current one has run an instruction. -/
theorem mem_open_after {a : Advance} {waiting later : Queue Context}
    (h : enqueue? I.limits.maxContexts waiting a.forks = some later) (d : Context) :
    d ∈ a.context :: later.toList ↔ d ∈ a.branches ∨ d ∈ waiting.toList := by
  rw [toList_of_enqueue h, Advance.branches]
  simp only [List.mem_cons, List.mem_append]
  grind

/-! ## Equations of a run -/

section Equations

variable {steps : Nat} {c : Context} {waiting later : Queue Context} {closed : List Context}

theorem drain_last (hc : c.isDone = true) (h : waiting.pop? = none) :
    I.drain mode steps c waiting closed = .ok (c :: closed).reverse := by
  rw [drain.eq_def, if_pos hc]
  split
  · rfl
  · next hpop => rw [h] at hpop; cases hpop

theorem drain_next {next : Context} (hc : c.isDone = true)
    (h : waiting.pop? = some (next, later)) :
    I.drain mode steps c waiting closed = I.drain mode steps next later (c :: closed) := by
  rw [drain.eq_def, if_pos hc]
  split
  · next hpop => rw [h] at hpop; cases hpop
  · next hpop => rw [h] at hpop; cases hpop; rfl

theorem drain_zero (hc : ¬c.isDone = true) :
    I.drain mode 0 c waiting closed = .error (.budgetExhausted I.limits.maxSteps) := by
  rw [drain, if_neg hc]

theorem drain_fault {fault : Fault} (hc : ¬c.isDone = true) (h : I.step mode c = .error fault) :
    I.drain mode (steps + 1) c waiting closed = .error fault.cause := by
  rw [drain, if_neg hc]
  simp only [h]

theorem drain_full {a : Advance} (hc : ¬c.isDone = true) (h : I.step mode c = .ok a)
    (hq : enqueue? I.limits.maxContexts waiting a.forks = none) :
    I.drain mode (steps + 1) c waiting closed =
      .error (.contextCapExceeded I.limits.maxContexts) := by
  rw [drain, if_neg hc]
  simp only [h, hq]

theorem drain_step {a : Advance} (hc : ¬c.isDone = true) (h : I.step mode c = .ok a)
    (hq : enqueue? I.limits.maxContexts waiting a.forks = some later) :
    I.drain mode (steps + 1) c waiting closed = I.drain mode steps a.context later closed := by
  rw [drain, if_neg hc]
  simp only [h, hq]

end Equations

/-! ## Answers of a run -/

/-- Every branch that a run answers with was over before, or is reached from an open one. -/
theorem reaches_of_mem_drain {steps : Nat} {current : Context} {waiting : Queue Context}
    {closed L : List Context} (h : I.drain mode steps current waiting closed = .ok L) :
    ∀ e ∈ L, e ∈ closed ∨
      ∃ d ∈ current :: waiting.toList, I.Reaches mode d e ∧ e.isDone = true := by
  fun_induction I.drain mode steps current waiting closed with
  | case1 steps current waiting closed hdone hpop =>
    cases h
    intro e he
    rw [List.mem_reverse, List.mem_cons] at he
    rcases he with rfl | he
    · exact Or.inr ⟨_, List.mem_cons_self, .refl _, hdone⟩
    · exact Or.inl he
  | case2 steps current waiting closed hdone next later hpop _ ih =>
    intro e he
    rcases ih h e he with he | ⟨d, hd, hde⟩
    · rcases List.mem_cons.mp he with rfl | he
      · exact Or.inr ⟨_, List.mem_cons_self, .refl _, hdone⟩
      · exact Or.inl he
    · rw [← Queue.toList_of_pop hpop] at hd
      exact Or.inr ⟨d, List.mem_cons_of_mem _ hd, hde⟩
  | case3 => cases h
  | case4 => cases h
  | case5 => cases h
  | case6 current waiting closed hdone steps a ha later hq ih =>
    intro e he
    rcases ih h e he with he | ⟨d, hd, hde, hdone'⟩
    · exact Or.inl he
    · rcases (mem_open_after hq d).mp hd with hd | hd
      · exact Or.inr ⟨current, List.mem_cons_self, .head (by simpa using hdone) ha hd hde, hdone'⟩
      · exact Or.inr ⟨d, List.mem_cons_of_mem _ hd, hde, hdone'⟩

/-- Every branch reached from an open one runs its next instruction without a fault, and is among
the answers once it is over. -/
theorem drain_serves {steps : Nat} {current : Context} {waiting : Queue Context}
    {closed L : List Context} (h : I.drain mode steps current waiting closed = .ok L) :
    (∀ e ∈ closed, e ∈ L) ∧ ∀ d ∈ current :: waiting.toList, ∀ e, I.Reaches mode d e →
      (e.isDone = true → e ∈ L) ∧ (e.isDone = false → ∃ a, I.step mode e = .ok a) := by
  fun_induction I.drain mode steps current waiting closed with
  | case1 steps current waiting closed hdone hpop =>
    cases h
    refine ⟨fun e he => by simp [he], ?_⟩
    intro d hd e hde
    rw [Queue.pop?_eq_none_iff.mp hpop, List.mem_singleton] at hd
    subst hd
    obtain rfl := hde.eq_of_isDone hdone
    exact ⟨fun _ => by simp, fun hn => by simp [hdone] at hn⟩
  | case2 steps current waiting closed hdone next later hpop _ ih =>
    obtain ⟨hclosed, hopen⟩ := ih h
    refine ⟨fun e he => hclosed e (List.mem_cons_of_mem _ he), ?_⟩
    intro d hd e hde
    rcases List.mem_cons.mp hd with rfl | hd
    · obtain rfl := hde.eq_of_isDone hdone
      exact ⟨fun _ => hclosed _ List.mem_cons_self, fun hn => by simp [hdone] at hn⟩
    · rw [Queue.toList_of_pop hpop] at hd
      exact hopen d hd e hde
  | case3 => cases h
  | case4 => cases h
  | case5 => cases h
  | case6 current waiting closed hdone steps a ha later hq ih =>
    obtain ⟨hclosed, hopen⟩ := ih h
    refine ⟨hclosed, ?_⟩
    intro d hd e hde
    rcases List.mem_cons.mp hd with rfl | hd
    · rcases hde.cases_step ha with rfl | ⟨d', hd', hde'⟩
      · exact ⟨fun hn => absurd hn (by simpa using hdone), fun _ => ⟨a, ha⟩⟩
      · exact hopen d' ((mem_open_after hq d').mpr (Or.inl hd')) e hde'
    · exact hopen d ((mem_open_after hq d).mpr (Or.inr hd)) e hde

/-- Every branch reached from an open one comes to an end among the answers. -/
theorem exists_end_of_drain {steps : Nat} {current : Context} {waiting : Queue Context}
    {closed L : List Context} (h : I.drain mode steps current waiting closed = .ok L) :
    ∀ d ∈ current :: waiting.toList, ∀ e, I.Reaches mode d e → ∃ r ∈ L, I.Reaches mode e r := by
  fun_induction I.drain mode steps current waiting closed with
  | case1 steps current waiting closed hdone hpop =>
    cases h
    intro d hd e hde
    rw [Queue.pop?_eq_none_iff.mp hpop, List.mem_singleton] at hd
    subst hd
    obtain rfl := hde.eq_of_isDone hdone
    exact ⟨e, by simp, .refl e⟩
  | case2 steps current waiting closed hdone next later hpop _ ih =>
    intro d hd e hde
    rcases List.mem_cons.mp hd with rfl | hd
    · obtain rfl := hde.eq_of_isDone hdone
      exact ⟨e, (drain_serves h).1 e List.mem_cons_self, .refl e⟩
    · rw [Queue.toList_of_pop hpop] at hd
      exact ih h d hd e hde
  | case3 => cases h
  | case4 => cases h
  | case5 => cases h
  | case6 current waiting closed hdone steps a ha later hq ih =>
    have hnext := ih h
    intro d hd e hde
    rcases List.mem_cons.mp hd with rfl | hd
    · rcases hde.cases_step ha with rfl | ⟨d', hd', hde'⟩
      · obtain ⟨r, hr, har⟩ := hnext _ List.mem_cons_self _ (.refl _)
        exact ⟨r, hr, .head (by simpa using hdone) ha List.mem_cons_self har⟩
      · exact hnext d' ((mem_open_after hq d').mpr (Or.inl hd')) e hde'
    · exact hnext d ((mem_open_after hq d).mpr (Or.inr hd)) e hde

/-- **A run answers exactly the branches that it reaches and that are over.** -/
theorem mem_run_iff {c : Context} {L : List Context} (h : I.run mode c = .ok L) (e : Context) :
    e ∈ L ↔ I.Reaches mode c e ∧ e.isDone = true := by
  constructor
  · intro he
    rcases reaches_of_mem_drain h e he with he | ⟨d, hd, hde⟩
    · exact absurd he List.not_mem_nil
    · rw [Queue.toList_ofList, List.mem_singleton] at hd
      exact hd ▸ hde
  · rintro ⟨hce, hdone⟩
    exact ((drain_serves h).2 c List.mem_cons_self e hce).1 hdone

/-- Every branch that a run with an answer reaches comes to an end there. -/
theorem exists_end_of_run {c : Context} {L : List Context} (h : I.run mode c = .ok L) {d : Context}
    (hd : I.Reaches mode c d) : ∃ e ∈ L, I.Reaches mode d e :=
  exists_end_of_drain h c List.mem_cons_self d hd

/-- A run that gives an answer has met no fault. -/
theorem step_ok_of_run {c : Context} {L : List Context} (h : I.run mode c = .ok L) {d : Context}
    (hd : I.Reaches mode c d) (hn : d.isDone = false) : ∃ a, I.step mode d = .ok a :=
  ((drain_serves h).2 c List.mem_cons_self d hd).2 hn

end Interpreter

end Cartridge
