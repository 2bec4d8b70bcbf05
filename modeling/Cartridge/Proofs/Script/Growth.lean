import Cartridge.Proofs.Script.Extent
import Cartridge.Proofs.Script.Move

/-!
# Growth — logs of a branch only grow

Every instruction is noted before it runs, so each next branch has one more instruction in its
history; answers are only ever added.  Along a run both logs of a branch are therefore suffixes,
newest first, of the logs of every branch it reaches.
-/

namespace Cartridge

namespace Context

/-- `d` has the instructions of `c` and at least its answers. -/
structure Continues (c d : Context) : Prop where
  history : d.history = c.history
  answered : c.answered <:+ d.answered

namespace Continues

theorem refl (c : Context) : Continues c c := ⟨rfl, List.suffix_rfl⟩

theorem trans {c d e : Context} (h : Continues c d) (h' : Continues d e) : Continues c e :=
  ⟨h'.history.trans h.history, h.answered.trans h'.answered⟩

theorem keptByMoves : KeptByMoves Continues where
  refl := refl
  trans := trans
  noteInput _ _ := ⟨rfl, List.suffix_rfl⟩
  noteOutput _ _ := ⟨rfl, List.suffix_rfl⟩
  compared _ _ _ _ := ⟨rfl, List.suffix_rfl⟩
  store _ _ _ _ := ⟨rfl, List.suffix_rfl⟩
  goto _ _ := ⟨rfl, List.suffix_rfl⟩
  calls _ _ := ⟨rfl, List.suffix_rfl⟩
  close _ _ := ⟨rfl, List.suffix_rfl⟩
  visits _ _ := ⟨rfl, List.suffix_rfl⟩
  noteAnswer _ _ := ⟨rfl, List.suffix_cons _ _⟩
  take _ _ _ _ := ⟨rfl, List.suffix_rfl⟩

end Continues

end Context

namespace Interpreter

open Context (Continues)

variable {I : Interpreter} {mode : Mode} {i : Instruction} {c d : Context}

theorem Ran.continues (h : I.Ran mode i c d) : Continues c d :=
  h.kept Continues.keptByMoves

/-! ## Runs -/

/-- A next branch has run one more instruction. -/
theorem Next.history (h : I.Next mode c d) :
    ∃ i, Instruction.decode I.memory c.pc = .ok i ∧ d.history = i.address :: c.history ∧
      c.answered <:+ d.answered := by
  obtain ⟨i, hi, hran⟩ := h.ran
  exact ⟨i, hi, hran.continues.history, hran.continues.answered⟩

/-- A next branch has noted the address that the branch stood at. -/
theorem Next.history_eq (h : I.Next mode c d) : d.history = c.pc :: c.history := by
  obtain ⟨i, hi, hhist, -⟩ := h.history
  rw [hhist, Instruction.address_of_decode hi]

/-- **Along a run the logs of a branch only grow.** -/
theorem Reaches.suffix (h : I.Reaches mode c d) :
    c.history <:+ d.history ∧ c.answered <:+ d.answered := by
  induction h with
  | refl => exact ⟨List.suffix_rfl, List.suffix_rfl⟩
  | tail _ hde ih =>
    obtain ⟨i, -, hhist, hans⟩ := hde.history
    exact ⟨ih.1.trans (hhist ▸ List.suffix_cons _ _), ih.2.trans hans⟩

/-- An answer of a run has not run more instructions, on top of an open branch, than there were
steps left. -/
theorem length_history_of_drain {steps : Nat} {current : Context} {waiting : Queue Context}
    {closed L : List Context} (h : I.drain mode steps current waiting closed = .ok L) :
    ∀ e ∈ L, e ∈ closed ∨
      ∃ d ∈ current :: waiting.toList, e.history.length ≤ d.history.length + steps := by
  fun_induction I.drain mode steps current waiting closed with
  | case1 steps current waiting closed hdone hpop =>
    cases h
    intro e he
    rw [List.mem_reverse, List.mem_cons] at he
    rcases he with rfl | he
    · exact Or.inr ⟨_, List.mem_cons_self, Nat.le_add_right _ _⟩
    · exact Or.inl he
  | case2 steps current waiting closed hdone next later hpop _ ih =>
    intro e he
    rcases ih h e he with he | ⟨d, hd, hde⟩
    · rcases List.mem_cons.mp he with rfl | he
      · exact Or.inr ⟨_, List.mem_cons_self, Nat.le_add_right _ _⟩
      · exact Or.inl he
    · rw [← Queue.toList_of_pop hpop] at hd
      exact Or.inr ⟨d, List.mem_cons_of_mem _ hd, hde⟩
  | case3 => cases h
  | case4 => cases h
  | case5 => cases h
  | case6 current waiting closed hdone steps a ha later hq ih =>
    intro e he
    rcases ih h e he with he | ⟨d, hd, hde⟩
    · exact Or.inl he
    · rcases (mem_open_after hq d).mp hd with hd | hd
      · have hnext : I.Next mode current d := ⟨by simpa using hdone, a, ha, hd⟩
        have hlen := congrArg List.length hnext.history_eq
        rw [List.length_cons] at hlen
        exact Or.inr ⟨current, List.mem_cons_self, by omega⟩
      · exact Or.inr ⟨d, List.mem_cons_of_mem _ hd, by omega⟩

/-- An outcome of a run has run no more instructions than the run may. -/
theorem length_history_of_run {e : Context} {L : List Context} (h : I.run mode c = .ok L)
    (he : e ∈ L) : e.history.length ≤ c.history.length + I.limits.maxSteps := by
  rcases length_history_of_drain h e he with he | ⟨d, hd, hde⟩
  · exact absurd he List.not_mem_nil
  · obtain rfl := List.mem_singleton.mp hd
    exact hde

end Interpreter

end Cartridge
