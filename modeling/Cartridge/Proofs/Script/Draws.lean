import Cartridge.Proofs.Script.Reach

/-!
# Draws — where a script draws, and when it does not matter what

Two games may draw different numbers.  A branch that draws below two has nothing to draw but zero,
and an exploring branch does not draw, so there the next instruction is the same whatever game draws
(`Interpreter.step_withDrawsOf`).
-/

namespace Cartridge.Interpreter

/-- If the branch is about to draw, it draws below two. -/
def DrawsBelowTwo (I : Interpreter) (c : Context) : Prop :=
  ∀ i, Instruction.decode I.memory c.pc = .ok i → i.command.action = .effect .random →
    (c.resolve (i.operand 0)).toUInt16 ≤ 1

instance (I : Interpreter) (c : Context) : Decidable (I.DrawsBelowTwo c) :=
  match h : Instruction.decode I.memory c.pc with
  | .ok i =>
    decidable_of_iff (i.command.action = .effect .random → (c.resolve (i.operand 0)).toUInt16 ≤ 1)
      ⟨fun hi j hj => by rw [h] at hj; cases hj; exact hi, fun hi => hi i h⟩
  | .error _ => .isTrue fun j hj => by rw [h] at hj; cases hj

/-- The interpreter, drawing as another game does. -/
def withDrawsOf (I : Interpreter) (g : GameView) : Interpreter :=
  { I with game := { I.game with draw := g.draw, draw_lt := g.draw_lt } }

variable {I : Interpreter} {mode : Mode} {i : Instruction} {c : Context}

theorem drawn_eq_zero {bound : UInt16} (h : bound ≤ 1) (c : Context) :
    I.drawn mode bound c = 0 := by
  unfold drawn
  split
  · next hb =>
    have hlt := I.game.draw_lt c.history c.answered bound hb.2
    simp only [UInt16.lt_iff_toNat_lt, UInt16.le_iff_toNat_le, UInt16.toNat_one] at h hlt
    apply UInt16.toNat_inj.mp
    rw [UInt16.toNat_zero]
    omega
  · rfl

theorem drawn_explore (bound : UInt16) (c : Context) : I.drawn .explore bound c = 0 :=
  if_neg (by simp)

/-- An effect does not depend on what the game draws, unless it draws from two or more. -/
theorem applyEffect_withDrawsOf (g : GameView) {f : Effect}
    (h : f = .random → mode = .execute → (c.resolve (i.operand 0)).toUInt16 ≤ 1) :
    (I.withDrawsOf g).applyEffect mode i f c = I.applyEffect mode i f c := by
  cases f with
  | random =>
    have hdrawn : (I.withDrawsOf g).drawn mode (c.resolve (i.operand 0)).toUInt16 c =
        I.drawn mode (c.resolve (i.operand 0)).toUInt16 c := by
      cases mode with
      | explore => rw [drawn_explore, drawn_explore]
      | execute => rw [drawn_eq_zero (h rfl rfl), drawn_eq_zero (h rfl rfl)]
    simp only [applyEffect, hdrawn]
  | _ => rfl

theorem perform_withDrawsOf (g : GameView)
    (h : i.command.action = .effect .random → mode = .execute →
      (c.resolve (i.operand 0)).toUInt16 ≤ 1) :
    (I.withDrawsOf g).perform mode i c = I.perform mode i c := by
  unfold perform
  cases hact : i.command.action with
  | inert => rfl
  | transfer t => rfl
  | effect f =>
    dsimp only
    rw [applyEffect_withDrawsOf g fun hf => h (hf ▸ hact)]

/-- **Another game's draws make no difference** to a branch that has no choice in what it draws. -/
theorem step_withDrawsOf (g : GameView) (h : mode = .execute → I.DrawsBelowTwo c) :
    (I.withDrawsOf g).step mode c = I.step mode c := by
  have hmemory : (I.withDrawsOf g).memory = I.memory := rfl
  unfold step
  rw [hmemory]
  cases hi : Instruction.decode I.memory c.pc with
  | error e => rfl
  | ok i => exact perform_withDrawsOf g fun hact hm => h hm i hi hact

end Cartridge.Interpreter
