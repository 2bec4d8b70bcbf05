import Cartridge.Proofs.Script.Control

/-!
# Steady — relations between branches that moves keep

Two runs are compared by a relation between their branches.  If the relation puts related branches
at one place and is kept by the elementary changes of a branch, it is kept by every move that
decisions are made of: going on, calling, answering, winning a battle.  `Results` lifts a relation
to instructions that may fail.
-/

namespace Cartridge

/-- A relation between branches at one place that elementary changes keep. -/
structure Steady (R : Context → Context → Prop) : Prop where
  control {x e : Context} : R x e → x.control = e.control
  resume {x e : Context} : R x e → ∀ k, R (x.resume k) (e.resume k)
  noteRun {x e : Context} : R x e → ∀ a, R (x.noteRun a) (e.noteRun a)
  noteAnswer {x e : Context} : R x e → ∀ a, R (x.noteAnswer a) (e.noteAnswer a)
  noteInput {x e : Context} : R x e → ∀ a, R (x.noteInput a) (e.noteInput a)
  setFlag {x e : Context} : R x e → ∀ id value, R (x.setFlag id value) (e.setFlag id value)
  setVar {x e : Context} : R x e → ∀ id value, R (x.setVar id value) (e.setVar id value)

namespace Steady

open Interpreter

variable {R : Context → Context → Prop} (hR : Steady R) {x e : Context}

include hR

theorem pc (h : R x e) : x.pc = e.pc := congrArg Control.pc (hR.control h)

theorem stack (h : R x e) : x.stack = e.stack := congrArg Control.stack (hR.control h)

theorem pending (h : R x e) : x.pending = e.pending := congrArg Control.pending (hR.control h)

theorem isDone (h : R x e) : x.isDone = e.isDone :=
  congrArg (fun k : Control => k.exit?.isSome) (hR.control h)

theorem goto (h : R x e) (a : UInt32) : R (x.goto a) (e.goto a) := by
  rw [Context.goto_eq_resume, Context.goto_eq_resume, ← hR.control h]
  exact hR.resume h _

theorem push (h : R x e) (a : UInt32) : R (x.push a) (e.push a) := by
  rw [Context.push_eq_resume, Context.push_eq_resume, ← hR.control h]
  exact hR.resume h _

theorem close (h : R x e) (reason : ExitReason) : R (x.close reason) (e.close reason) := by
  rw [Context.close_eq_resume, Context.close_eq_resume, ← hR.control h]
  exact hR.resume h _

theorem calls (h : R x e) (rest : List UInt32) :
    R { x with stack := rest } { e with stack := rest } := by
  have hx := hR.resume h { x.control with stack := rest }
  have he : e.resume { x.control with stack := rest } = { e with stack := rest } := by
    rw [hR.control h]; rfl
  exact he ▸ hx

theorem answers (h : R x e) (later : List UInt8) :
    R { x with pending := later } { e with pending := later } := by
  have hx := hR.resume h { x.control with pending := later }
  have he : e.resume { x.control with pending := later } = { e with pending := later } := by
    rw [hR.control h]; rfl
  exact he ▸ hx

theorem enter (h : R x e) (call : Bool) (next target : UInt32) :
    R (enter call next target x) (enter call next target e) := by
  cases call with
  | false => exact hR.goto h target
  | true => exact hR.goto (hR.push h next) target

theorem reply (h : R x e) (i : Instruction) (option : UInt8 × UInt16) :
    R (reply i x option) (reply i e option) :=
  hR.goto (hR.setVar (hR.noteAnswer h option.1) resultVar option.2) i.next

theorem win (h : R x e) (flag : UInt16) (afterWin? : Option UInt32) :
    R (win flag afterWin? x) (win flag afterWin? e) := by
  cases afterWin? with
  | some a => exact hR.goto (hR.setFlag h flag true) a
  | none => exact hR.close (hR.setFlag h flag true) .finished

theorem settle {I : Interpreter} (h : R x e) {i : Instruction} {flag : UInt16}
    {afterWin? tooFew? : Option UInt32} (hf : x.flag flag = e.flag flag) :
    R (I.settle i flag afterWin? tooFew? x) (I.settle i flag afterWin? tooFew? e) := by
  unfold Interpreter.settle
  rw [hf]
  split
  · exact hR.goto h _
  · split
    · split
      · exact hR.goto h _
      · exact hR.win h _ _
    · exact hR.win h _ _

end Steady

/-- Both fail for one cause, or both succeed with related results. -/
def Results {α β : Type} (R : α → β → Prop) : Except Fault α → Except Fault β → Prop
  | .ok a, .ok b => R a b
  | .error f, .error g => f.cause = g.cause
  | _, _ => False

theorem Results.of_ok {α β : Type} {R : α → β → Prop} {a : α} {r : Except Fault β}
    (h : Results R (.ok a) r) : ∃ b, r = .ok b ∧ R a b := by
  cases r with
  | ok b => exact ⟨b, rfl, h⟩
  | error _ => exact h.elim

theorem Results.of_error {α β : Type} {R : α → β → Prop} {f : Fault} {r : Except Fault β}
    (h : Results R (.error f) r) : ∃ g, r = .error g ∧ f.cause = g.cause := by
  cases r with
  | ok _ => exact h.elim
  | error g => exact ⟨g, rfl, h⟩

theorem Results.bind {α β γ δ : Type} {R : α → β → Prop} {Q : γ → δ → Prop}
    {a : Except Fault α} {b : Except Fault β} {f : α → Except Fault γ} {g : β → Except Fault δ}
    (h : Results R a b) (hf : ∀ p q, R p q → Results Q (f p) (g q)) :
    Results Q (a >>= f) (b >>= g) := by
  cases a with
  | ok p =>
    obtain ⟨q, rfl, hpq⟩ := h.of_ok
    exact hf p q hpq
  | error _ =>
    obtain ⟨_, rfl, hcause⟩ := h.of_error
    exact hcause

end Cartridge
