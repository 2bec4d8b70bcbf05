import Cartridge.Proofs.Script.Registers
import Cartridge.Script.Step

/-!
# Control — what decides where a branch goes on

`Context.control` is the part of a branch that its effects leave alone and its decisions change:
where it stands, its calls, the answers it still has to give, its map and its end.  An effect makes
notes, compares and writes registers, and so keeps whatever these changes keep
(`Interpreter.kept_applyEffect`).  In particular it keeps the course of a branch: its control and
its logs of instructions run and of answers taken.
-/

namespace Cartridge

/-- Where a branch stands and how it goes on. -/
structure Control where
  pc : UInt32
  stack : List UInt32
  pending : List UInt8
  location? : Option MapId
  exit? : Option ExitReason

namespace Context

/-- Where the branch stands and how it goes on. -/
def control (c : Context) : Control :=
  ⟨c.pc, c.stack, c.pending, c.location?, c.exit?⟩

/-- The branch with another place to go on from. -/
def resume (c : Context) (k : Control) : Context :=
  { c with
    pc := k.pc
    stack := k.stack
    pending := k.pending
    location? := k.location?
    exit? := k.exit? }

/-- The branch with one more instruction run. -/
def noteRun (c : Context) (a : UInt32) : Context :=
  { c with history := a :: c.history }

/-- The branch with one more answer taken. -/
def noteAnswer (c : Context) (answer : UInt8) : Context :=
  { c with answered := answer :: c.answered }

/-! ## Moves as changes of control -/

theorem goto_eq_resume (c : Context) (a : UInt32) :
    c.goto a = c.resume { c.control with pc := a } := rfl

theorem push_eq_resume (c : Context) (a : UInt32) :
    c.push a = c.resume { c.control with stack := a :: c.control.stack } := rfl

theorem close_eq_resume (c : Context) (reason : ExitReason) :
    c.close reason = c.resume { c.control with exit? := some reason } := rfl

/-! ## Relations that effects keep -/

/-- A relation between a branch and what becomes of it that every change by an effect keeps. -/
structure KeptByEffects (R : Context → Context → Prop) : Prop where
  refl (c : Context) : R c c
  trans {c d e : Context} : R c d → R d e → R c e
  noteInput (c : Context) (a : Access) : R c (c.noteInput a)
  noteOutput (c : Context) (a : Access) : R c (c.noteOutput a)
  compared (c : Context) (left right : UInt32) (known : Bool) :
    R c { c with left := left, right := right, comparisonKnown := known }
  store (c : Context) (l : Location) (value : UInt32) (known : Bool) : R c (c.store l value known)

namespace KeptByEffects

variable {R : Context → Context → Prop} (hR : KeptByEffects R) (c : Context)

include hR

theorem noteOperand (operand : UInt32) : R c (c.noteOperand operand) := by
  unfold Context.noteOperand
  split
  · exact hR.noteInput _ _
  · exact hR.refl _

theorem setFlag (id : UInt16) (value : Bool) : R c (c.setFlag id value) := by
  unfold Context.setFlag
  split
  · exact hR.store _ _ _ _
  · exact hR.refl _

theorem storeVar (id value : UInt16) (known : Bool) : R c (c.storeVar id value known) := by
  unfold Context.storeVar
  split
  · exact hR.store _ _ _ _
  · exact hR.refl _

theorem setBank (id : UInt8) (value : UInt32) : R c (c.setBank id value) := by
  unfold Context.setBank
  split
  · exact hR.store _ _ _ _
  · exact hR.refl _

end KeptByEffects

/-! ## Effects keep everything but registers, comparison and access logs -/

/-- `d` differs from `c` at most in registers, what is known of them, the comparison and the logs of
accesses. -/
structure SameCourse (c d : Context) : Prop where
  control : d.control = c.control
  visited : d.visited = c.visited
  history : d.history = c.history
  answered : d.answered = c.answered

namespace SameCourse

theorem refl (c : Context) : SameCourse c c := ⟨rfl, rfl, rfl, rfl⟩

theorem trans {c d e : Context} (h : SameCourse c d) (h' : SameCourse d e) : SameCourse c e :=
  ⟨h'.control.trans h.control, h'.visited.trans h.visited, h'.history.trans h.history,
    h'.answered.trans h.answered⟩

theorem keptByEffects : KeptByEffects SameCourse where
  refl := refl
  trans := trans
  noteInput _ _ := ⟨rfl, rfl, rfl, rfl⟩
  noteOutput _ _ := ⟨rfl, rfl, rfl, rfl⟩
  compared _ _ _ _ := ⟨rfl, rfl, rfl, rfl⟩
  store _ _ _ _ := ⟨rfl, rfl, rfl, rfl⟩

theorem setFlag (c : Context) (id : UInt16) (value : Bool) : SameCourse c (c.setFlag id value) :=
  keptByEffects.setFlag c id value

theorem storeVar (c : Context) (id value : UInt16) (known : Bool) :
    SameCourse c (c.storeVar id value known) :=
  keptByEffects.storeVar c id value known

end SameCourse

end Context

namespace Interpreter

variable (I : Interpreter) {mode : Mode} {i : Instruction} {c d : Context}

open Context (KeptByEffects SameCourse)

section Effects

variable {R : Context → Context → Prop} (hR : KeptByEffects R)

include hR

theorem kept_hide (bank map person : UInt8) (c : Context) : R c (I.hide bank map person c) := by
  unfold hide
  split
  · split
    · exact hR.refl _
    · exact hR.setFlag _ _ _
  · exact hR.refl _

theorem kept_comparand {side : Comparand} {v : UInt32} (h : I.comparand i side c = .ok (d, v)) :
    R c d := by
  cases side with
  | literal n => cases h; exact hR.refl _
  | bank n => cases h; exact hR.noteInput _ _
  | bankByte n => cases h; exact hR.noteInput _ _
  | farByte n =>
    simp only [comparand] at h
    cases hb : I.farByte (i.operand n) c with
    | error f => rw [hb] at h; cases h
    | ok byte => rw [hb] at h; cases h; exact hR.refl _
  | var n => cases h; exact hR.noteInput _ _
  | unknown => cases h; exact hR.refl _

theorem kept_compare {l r : Comparand} (h : I.compare i l r c = .ok d) : R c d := by
  simp only [compare] at h
  cases hl : I.comparand i l c with
  | error f => rw [hl] at h; cases h
  | ok p =>
    obtain ⟨c₁, left⟩ := p
    rw [hl] at h
    change (I.comparand i r { c₁ with left := left } >>= _) = _ at h
    cases hr : I.comparand i r { c₁ with left := left } with
    | error f => rw [hr] at h; cases h
    | ok q =>
      obtain ⟨c₂, right⟩ := q
      rw [hr] at h
      cases h
      have hleft : R c c₁ := I.kept_comparand hR hl
      have hset : R c₁ { c₁ with left := left } := hR.compared c₁ left c₁.right c₁.comparisonKnown
      have hright : R { c₁ with left := left } c₂ := I.kept_comparand hR hr
      exact hR.trans (hR.trans (hR.trans hleft hset) hright) (hR.compared c₂ c₂.left right _)

/-- **Whatever the changes by effects keep, effects keep.** -/
theorem kept_applyEffect {e : Effect} (h : I.applyEffect mode i e c = .ok d) : R c d := by
  cases e with
  | loadBank => cases h; exact hR.setBank _ _ _
  | loadFarByte =>
    simp only [applyEffect] at h
    cases hb : I.farByte (i.operand 1) c with
    | error f => rw [hb] at h; cases h
    | ok value => rw [hb] at h; cases h; exact hR.setBank _ _ _
  | readBank => cases h; exact hR.noteInput _ _
  | copyBank => cases h; exact hR.trans (hR.noteInput _ _) (hR.setBank _ _ _)
  | assign => cases h; exact hR.storeVar _ _ _ _
  | add => cases h; exact hR.trans (hR.noteInput _ _) (hR.storeVar _ _ _ _)
  | subtract =>
    cases h
    exact hR.trans (hR.trans (hR.noteOperand _ _) (hR.noteInput _ _)) (hR.storeVar _ _ _ _)
  | copy => cases h; exact hR.trans (hR.noteInput _ _) (hR.storeVar _ _ _ _)
  | copyResolved => cases h; exact hR.trans (hR.noteOperand _ _) (hR.storeVar _ _ _ _)
  | compare l r => exact I.kept_compare hR h
  | special => cases h; exact hR.noteOutput _ _
  | specialInto => cases h; exact hR.trans (hR.noteOutput _ _) (hR.storeVar _ _ _ _)
  | assignFlag base value => cases h; exact hR.trans (hR.noteOperand _ _) (hR.setFlag _ _ _)
  | testFlag base =>
    cases h
    exact hR.trans (hR.trans (hR.noteOperand _ _) (hR.noteInput _ _)) (hR.compared _ _ _ _)
  | resetTemporaries =>
    cases h
    exact hR.trans (hR.trans (hR.storeVar _ _ _ _) (hR.storeVar _ _ _ _)) (hR.storeVar _ _ _ _)
  | warp => cases h; exact hR.noteOutput _ _
  | playerPosition => cases h; exact hR.trans (hR.storeVar _ _ _ _) (hR.storeVar _ _ _ _)
  | countParty => cases h; exact hR.storeVar _ _ _ _
  | moveItem =>
    cases h
    have hnoted := hR.trans (hR.noteOperand c (i.operand 0)) (hR.noteOperand _ (i.operand 1))
    exact hR.trans (hR.trans hnoted (hR.noteOutput _ _)) (hR.storeVar _ _ _ _)
  | ownsItem =>
    cases h
    have hnoted := hR.trans (hR.noteOperand c (i.operand 0)) (hR.noteOperand _ (i.operand 1))
    exact hR.trans (hR.trans hnoted (hR.noteInput _ _)) (hR.storeVar _ _ _ _)
  | answer value => cases h; exact hR.trans (hR.noteOperand _ _) (hR.storeVar _ _ _ _)
  | receive =>
    cases h
    exact hR.trans (hR.trans (hR.noteOperand _ _) (hR.noteOutput _ _)) (hR.storeVar _ _ _ _)
  | findMove => cases h; exact hR.storeVar _ _ _ _
  | gender => cases h; exact hR.storeVar _ _ _ _
  | random => cases h; exact hR.trans (hR.noteOperand _ _) (hR.storeVar _ _ _ _)
  | moveMoney => cases h; exact hR.noteOutput _ _
  | ownsMoney => cases h; exact hR.trans (hR.noteInput _ _) (hR.storeVar _ _ _ _)
  | hidePerson =>
    simp only [applyEffect] at h
    split at h
    · cases h; exact hR.trans (hR.noteOperand _ _) (I.kept_hide hR _ _ _ _)
    · cases h; exact hR.noteOperand _ _
  | hidePersonOn =>
    cases h
    exact hR.trans (hR.noteOperand _ _) (I.kept_hide hR _ _ _ _)

end Effects

/-- **Effects keep the course of a branch.** -/
theorem sameCourse_applyEffect {e : Effect} (h : I.applyEffect mode i e c = .ok d) :
    SameCourse c d :=
  I.kept_applyEffect SameCourse.keptByEffects h

end Interpreter

end Cartridge
