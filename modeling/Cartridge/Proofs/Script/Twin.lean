import Cartridge.Proofs.Script.Effect
import Cartridge.Proofs.Script.Lockstep

/-!
# Twin — two explorations side by side

Two exploring branches are *twins* when they agree in all but the values of registers that they have
not determined, and of a comparison that they do not know.  Twins are in lockstep
(`Twin.lockstep`), and every effect of an informed branch takes twins to twins.  Two explorations
that start from twins therefore run in step, for any limits (`Twin.drain`).
-/

namespace Cartridge

/-- Branches that know the same. -/
def Scope.twin : Scope where
  marked := True

/-- Two exploring branches that agree in what they know. -/
structure Twin (x y : Context) : Prop where
  link : Link .twin x y
  visited : x.visited = y.visited

namespace Interpreter

/-- If the branch is about to run an effect, it knows the registers that the effect is said to need.
-/
def KnowsNeeds (I : Interpreter) (needs : Instruction → Effect → List Access) (c : Context) : Prop :=
  ∀ i, Instruction.decode I.memory c.pc = .ok i → ∀ f, i.command.action = .effect f →
    ∀ a ∈ needs i f, c.knows a = true

instance (I : Interpreter) (needs : Instruction → Effect → List Access) (c : Context) :
    Decidable (I.KnowsNeeds needs c) :=
  match h : Instruction.decode I.memory c.pc with
  | .error _ => .isTrue fun i hi => by rw [h] at hi; cases hi
  | .ok i =>
    match hf : i.command.action with
    | .effect f =>
      decidable_of_iff (∀ a ∈ needs i f, c.knows a = true) <| by
        constructor
        · intro hk j hj g hg
          rw [h] at hj
          cases hj
          rw [hf] at hg
          cases hg
          exact hk
        · exact fun hk => hk i h f hf
    | .inert | .transfer _ => .isTrue fun j hj f hg => by
        rw [h] at hj
        cases hj
        rw [hf] at hg
        cases hg

/-- If the branch is about to run an effect, it knows what that computes from. -/
abbrev Informed (I : Interpreter) (c : Context) : Prop :=
  I.KnowsNeeds Instruction.sources c

end Interpreter

namespace Twin

open Interpreter

/-- Linked branches that keep the visits of twins are twins. -/
theorem move {x y x' y' : Context} (h : Twin x y) (hl : Link .twin x' y')
    (hx : x'.visited = x.visited) (hy : y'.visited = y.visited) : Twin x' y' :=
  ⟨hl, by rw [hx, hy, h.visited]⟩

/-- **No decision can tell twins apart.** -/
theorem lockstep : Lockstep .explore (fun _ => True) Twin where
  control h := h.link.control
  resume h k := h.move ((Link.shadow _).resume h.link k) rfl rfl
  noteRun h a := h.move ((Link.shadow _).noteRun h.link a) rfl rfl
  noteAnswer h a := h.move ((Link.shadow _).noteAnswer h.link a) rfl rfl
  noteInput h a := h.move (h.link.noteInput a) rfl rfl
  setFlag h id value := h.move (h.link.setFlag id value) (Context.SameCourse.setFlag _ _ _).visited
    (Context.SameCourse.setFlag _ _ _).visited
  setVar h id value := h.move (h.link.setVar id value) (Context.SameCourse.storeVar _ _ _ _).visited
    (Context.SameCourse.storeVar _ _ _ _).visited
  visited h := h.visited
  determined h := (h.link.marks trivial).1
  known h := (h.link.marks trivial).2
  compared h hk := h.link.compared (Or.inr (hk.resolve_left (by simp)))
  flag h id _ hk := (Link.shadow _).flag h.link id (hk.resolve_left (by simp))
  visits h v := ⟨{ h.link with }, rfl⟩

variable {x y : Context} {I : Interpreter} {i : Instruction}

/-- Every effect of an informed branch takes twins to twins. -/
theorem applyEffect (h : Twin x y) {f : Effect} (hi : ∀ a ∈ i.sources f, x.knows a = true) :
    Results Twin (I.applyEffect .explore i f x) (I.applyEffect .explore i f y) := by
  have hf := h.link.applyEffect (I := I) .explore (Or.inr hi)
    (Or.inr fun _ ha => False.elim ha) fun _ => ⟨False.elim, fun _ => rfl⟩
  cases hx : I.applyEffect .explore i f x with
  | error fault =>
    rw [hx] at hf
    obtain ⟨fault', hy, hcause⟩ := hf.of_error
    rw [hy]
    exact hcause
  | ok x' =>
    rw [hx] at hf
    obtain ⟨y', hy, hf'⟩ := hf.of_ok
    rw [hy]
    exact h.move hf' (I.sameCourse_applyEffect hx).visited (I.sameCourse_applyEffect hy).visited

/-- An informed branch and its twin run the same instruction, to twins. -/
theorem step (h : Twin x y) (hi : I.Informed x) :
    Results (Advance.Pairs Twin) (I.step .explore x) (I.step .explore y) := by
  have hpc : y.pc = x.pc := (lockstep.pc h).symm
  cases hx : Instruction.decode I.memory x.pc with
  | error e =>
    simp only [Interpreter.step, hx, hpc]
    exact rfl
  | ok i =>
    have hy : Instruction.decode I.memory y.pc = .ok i := by rw [hpc, hx]
    simp only [Interpreter.step, hx, hy]
    exact lockstep.perform rfl (lockstep.noteRun h i.address) (fun _ _ _ _ => trivial)
      fun f hf => (lockstep.noteRun h i.address).applyEffect (hi i hx f hf)

/-- **Explorations of twins run in step**, to twins or to the same error. -/
theorem drain (steps : Nat) {waiting waiting' : Queue Context} {closed closed' : List Context}
    (h : Twin x y) (hw : List.Forall₂ Twin waiting.toList waiting'.toList)
    (hc : List.Forall₂ Twin closed closed')
    (hi : ∀ c ∈ x :: waiting.toList, ∀ d, I.Reaches .explore c d → d.isDone = false →
      I.Informed d) :
    (∃ L M, I.drain .explore steps x waiting closed = .ok L ∧
      I.drain .explore steps y waiting' closed' = .ok M ∧ List.Forall₂ Twin L M) ∨
    ∃ e, I.drain .explore steps x waiting closed = .error e ∧
      I.drain .explore steps y waiting' closed' = .error e :=
  drain_pairs rfl lockstep.isDone steps h hw hc fun c hcmem d hd hn _ hde =>
    hde.step (hi c hcmem d hd hn)

end Twin

end Cartridge
