import Cartridge.Proofs.Script.Draws
import Cartridge.Proofs.Script.Effect
import Cartridge.Proofs.Script.Turns

/-!
# SameState — exploring from a state covers executing from it

Both start in one context, so the explorer does not only agree in what it has determined: all its
registers have the values of the executing branch, and the two log the same.  Only a draw could set
them apart, since exploring does not draw; below two there is nothing to draw but zero.
-/

namespace Cartridge

/-- Branches that started in one state: all registers count, and the logs are the same. -/
def Scope.sameState : Scope where
  whole := True
  watched := fun _ => True
  logs := (· = ·)
  logs_note := by
    rintro s t a b rfl (rfl | ⟨ha, -⟩)
    · rfl
    · exact absurd trivial ha

/-- Branches that started in one state differ at most in what they know and which decisions they
have noted. -/
theorem Link.eq_of_sameState {x e : Context} (h : Link .sameState x e) :
    x = { e with
      determined := x.determined
      visited := x.visited
      comparisonKnown := x.comparisonKnown } := by
  obtain ⟨hcontrol, hhistory, hanswered, hregister, hcompared, -, hinputs, houtputs⟩ := h
  obtain ⟨pc, registers, determined, left, right, comparisonKnown, stack, inputs, outputs, answered,
    pending, location?, visited, history, exit?⟩ := x
  obtain ⟨pc', registers', determined', left', right', comparisonKnown', stack', inputs', outputs',
    answered', pending', location?', visited', history', exit?'⟩ := e
  simp only [Context.control, Control.mk.injEq] at hcontrol
  obtain ⟨rfl, rfl, rfl, rfl, rfl⟩ := hcontrol
  obtain ⟨rfl, rfl⟩ := hcompared (Or.inl trivial)
  obtain rfl : registers = registers' := Registers.ext_get fun l => hregister l (Or.inl trivial)
  obtain rfl : inputs = inputs' := hinputs
  obtain rfl : outputs = outputs' := houtputs
  obtain rfl : history' = history := by simpa [Scope.sameState] using hhistory
  obtain rfl : answered' = answered := by simpa [Scope.sameState] using hanswered
  rfl

namespace Interpreter

variable {I : Interpreter}

/-- Where nothing is drawn from two or more, every effect keeps the branches in one state. -/
theorem carries_sameState {x e : Context} (hx : Link .sameState x e) (hd : I.DrawsBelowTwo e) :
    I.Carries (Link .sameState) x e := by
  intro i hi f x' e' hf hx' he'
  have h := ((Link.shadow .sameState).noteRun hx i.address).applyEffect (I := I) (i := i)
    .execute (f := f) (Or.inl trivial) (Or.inl trivial) fun hfr =>
      ⟨fun _ => drawn_eq_zero (hd i hi (hfr ▸ hf)) _, False.elim⟩
  rw [hx', he'] at h
  exact h

/-- **Exploring from a state covers executing from it**, if no draw has a choice: every end of the
execution is an outcome of the exploration, but for what that knows and which decisions it has
noted, unless the loop guard ended an outcome on the way there. -/
theorem explore_covers_execute {c : Context} {L M : List Context}
    (hdraw : ∀ d, I.Reaches .execute c d → d.isDone = false → I.DrawsBelowTwo d)
    (hL : I.execute c = .ok L) (hM : I.explore c = .ok M) :
    ∀ e ∈ L, ∃ x ∈ M,
      x = { e with
        determined := x.determined
        visited := x.visited
        comparisonKnown := x.comparisonKnown } ∨
      (x.exit? = some .revisit ∧ x.trace <+: e.trace ∧ x.choices <+: e.choices) := by
  intro e he
  have h₀ : Link .sameState c c :=
    ⟨rfl, by simp [Scope.sameState], by simp [Scope.sameState], fun _ _ => rfl,
      fun _ => ⟨rfl, rfl⟩, False.elim, rfl, rfl⟩
  have hcarry : ∀ x d d', I.Reaches .explore c x → I.Reaches .execute c d →
      I.Next .execute d d' → I.Reaches .execute d' e → Link .sameState x d →
      I.Carries (Link .sameState) x d :=
    fun x d _ _ hd hnext _ hx => carries_sameState hx (hdraw d hd hnext.1)
  obtain ⟨x, hx, hxe | ⟨hexit, hhist, hans⟩⟩ := (Link.shadow .sameState).covers h₀ hL hM hcarry he
  · exact ⟨x, hx, Or.inl hxe.eq_of_sameState⟩
  · refine ⟨x, hx, Or.inr ⟨hexit, ?_, ?_⟩⟩
    · simpa [Context.trace, Scope.sameState] using hhist
    · simpa [Context.choices, Scope.sameState] using hans

/-- A script that draws below one and asks for a flag until it is set. -/
def askUntilSet : Interpreter :=
  .ofScript #[0x8F, 1, 0, 0x2B, 5, 0, 0x06, 0, 3, 0, 0, 8, 0x02]

/-- A state with the flag set, about to run the script. -/
def flagSet : Context :=
  { Context.blank Memory.cartridgeBase with registers := Registers.zero.set (.flag 5) 1 }

theorem explore_covers_execute_askUntilSet :
    (∀ d, askUntilSet.Reaches .execute flagSet d → d.isDone = false →
      askUntilSet.DrawsBelowTwo d) ∧
    askUntilSet.execute flagSet = .ok (askUntilSet.endedBy .execute 5 flagSet) ∧
    askUntilSet.explore flagSet = .ok (askUntilSet.endedBy .explore 9 flagSet) ∧
    ∀ e ∈ askUntilSet.endedBy .execute 5 flagSet, ∃ x ∈ askUntilSet.endedBy .explore 9 flagSet,
      x = { e with
        determined := x.determined
        visited := x.visited
        comparisonKnown := x.comparisonKnown } ∨
      (x.exit? = some .revisit ∧ x.trace <+: e.trace ∧ x.choices <+: e.choices) := by
  have hexecute : ((askUntilSet.turn .execute)^[5] (.start flagSet)).opened = [] := by
    decide +kernel
  have hexplore : ((askUntilSet.turn .explore)^[9] (.start flagSet)).opened = [] := by
    decide +kernel
  have hdraw (d : Context) (hd : askUntilSet.Reaches .execute flagSet d) (_ : d.isDone = false) :
      askUntilSet.DrawsBelowTwo d := by
    have hturns : ∀ k < 5, ∀ d ∈ ((askUntilSet.turn .execute)^[k] (.start flagSet)).opened.head?,
        askUntilSet.DrawsBelowTwo d := by decide +kernel
    obtain ⟨k, hk, hdk⟩ := exists_turn_of_reaches hexecute List.mem_cons_self hd
    exact hturns k hk d hdk
  have hL := run_eq_endedBy 5 hexecute (by decide) (by decide)
  have hM := run_eq_endedBy 9 hexplore (by decide) (by decide)
  exact ⟨hdraw, hL, hM, explore_covers_execute hdraw hL hM⟩

end Interpreter

end Cartridge
