import Cartridge.Proofs.Script.Turns
import Cartridge.Proofs.Script.Twin

/-!
# Symbolic — what exploring owes to registers that nothing has determined

An exploration from a state should come out the same whatever the undetermined registers hold.  It
does as long as every branch that runs an effect is informed: it knows the registers from which the
effect computes a value, a flag or a result that then counts as determined (`explore_outcomes_eq`).
A sum, a difference, a bank copied to another one, a flag named by a variable and an item looked
for count as determined whatever they come from, so one of these on an undetermined register can
cost the exploration a branch (`explore_outcomes_differ`).
-/

namespace Cartridge

namespace Context

/-- Contexts that agree in all but undetermined registers and an unknown comparison. -/
structure Alike (c d : Context) : Prop where
  others : d = { c with registers := d.registers, left := d.left, right := d.right }
  register : ∀ l, c.determined.get l = true → c.registers.get l = d.registers.get l
  compared : c.comparisonKnown = true → c.left = d.left ∧ c.right = d.right

/-- What an outcome shows: its instructions, its answers and why it ended. -/
def outcome (c : Context) : List UInt32 × List UInt8 × Option ExitReason :=
  (c.trace, c.choices, c.exit?)

theorem Alike.twin {c d : Context} (h : Alike c d) : Twin c d := by
  obtain ⟨hothers, hregister, hcompared⟩ := h
  rw [hothers]
  exact
    { link :=
        { control := rfl
          history := (List.append_nil _).symm
          answered := (List.append_nil _).symm
          register := fun l hl => hregister l (hl.resolve_left id)
          compared := fun hk => hcompared (hk.resolve_left id)
          marks := fun _ => ⟨rfl, rfl⟩
          inputs := trivial
          outputs := trivial }
      visited := rfl }

end Context

theorem Twin.outcome {x y : Context} (h : Twin x y) : x.outcome = y.outcome := by
  have hhistory : y.history = x.history := h.link.history.trans (List.append_nil _)
  have hanswered : y.answered = x.answered := h.link.answered.trans (List.append_nil _)
  have hexit : x.exit? = y.exit? := congrArg Control.exit? h.link.control
  simp only [Context.outcome, Context.trace, Context.choices, hhistory, hanswered, hexit]

theorem Twin.map_outcome {L M : List Context} (h : List.Forall₂ Twin L M) :
    L.map Context.outcome = M.map Context.outcome := by
  induction h with
  | nil => rfl
  | cons hxy _ ih => rw [List.map_cons, List.map_cons, hxy.outcome, ih]

namespace Interpreter

variable {I : Interpreter}

/-- **Exploring is blind to undetermined registers while its branches are informed**: from alike
states it gives the same outcomes in the same order, or fails with the same error. -/
theorem explore_outcomes_eq {c d : Context} (h : c.Alike d)
    (hi : ∀ e, I.Reaches .explore c e → e.isDone = false → I.Informed e) :
    (I.explore c).map (·.map Context.outcome) = (I.explore d).map (·.map Context.outcome) := by
  have hi' : ∀ b ∈ c :: (Queue.ofList []).toList, ∀ e, I.Reaches .explore b e →
      e.isDone = false → I.Informed e := by
    intro b hb
    rw [Queue.toList_ofList, List.mem_singleton] at hb
    exact hb ▸ hi
  have hw : List.Forall₂ Twin (Queue.ofList []).toList (Queue.ofList []).toList := .nil
  rcases Twin.drain I.limits.maxSteps h.twin hw .nil hi' with ⟨L, M, hL, hM, hLM⟩ | ⟨e, hc, hd⟩
  · have hL' : I.explore c = .ok L := hL
    have hM' : I.explore d = .ok M := hM
    rw [hL', hM']
    exact congrArg Except.ok (Twin.map_outcome hLM)
  · have hc' : I.explore c = .error e := hc
    have hd' : I.explore d = .error e := hd
    rw [hc', hd']

/-- A script that counts a variable up from three, copies another one and asks what the copy is. -/
def copyAndAsk : Interpreter :=
  .ofScript #[0x16, 1, 0x40, 3, 0, 0x17, 1, 0x40, 1, 0, 0x19, 2, 0x40, 3, 0x40, 0x21, 2, 0x40, 2, 0,
    0x06, 1, 0x1B, 0, 0, 8, 0x02, 0x25, 0, 0, 0x02]

/-- A state in which nothing is determined and one variable has a value. -/
def varAt (id : Fin varCount) (value : UInt32) : Context :=
  { Context.blank Memory.cartridgeBase with registers := Registers.zero.set (.var id) value }

theorem alike_varAt (id : Fin varCount) (v w : UInt32) : (varAt id v).Alike (varAt id w) where
  others := rfl
  register l hl := by cases l <;> simp [varAt, Context.blank, Marks.none, Marks.get] at hl
  compared hk := Bool.noConfusion hk

theorem explore_outcomes_eq_copyAndAsk :
    (∀ e, copyAndAsk.Reaches .explore (varAt 3 0) e → e.isDone = false →
      copyAndAsk.Informed e) ∧
    (copyAndAsk.endedBy .explore 10 (varAt 3 0)).length = 2 ∧
    copyAndAsk.explore (varAt 3 0) = .ok (copyAndAsk.endedBy .explore 10 (varAt 3 0)) ∧
    (copyAndAsk.explore (varAt 3 0)).map (·.map Context.outcome) =
      (copyAndAsk.explore (varAt 3 2)).map (·.map Context.outcome) := by
  have hends : ((copyAndAsk.turn .explore)^[10] (.start (varAt 3 0))).opened = [] := by
    decide +kernel
  have hi (e : Context) (he : copyAndAsk.Reaches .explore (varAt 3 0) e) (_ : e.isDone = false) :
      copyAndAsk.Informed e := by
    have hturns : ∀ k < 10, ∀ e ∈ ((copyAndAsk.turn .explore)^[k] (.start (varAt 3 0))).opened.head?,
        copyAndAsk.Informed e := by decide +kernel
    obtain ⟨k, hk, hke⟩ := exists_turn_of_reaches hends List.mem_cons_self he
    exact hturns k hk e hke
  exact ⟨hi, by decide +kernel, run_eq_endedBy 10 hends (by decide) (by decide),
    explore_outcomes_eq (alike_varAt 3 0 2) hi⟩

/-- A script that adds one to a variable and asks whether it has come to five. -/
def addAndAsk : Interpreter :=
  .ofScript #[0x17, 1, 0x40, 1, 0, 0x21, 1, 0x40, 5, 0, 0x06, 1, 0x11, 0, 0, 8, 0x02, 0x25, 0, 0, 0x02]

/-- A sum counts as determined even if nothing has determined its terms, so the outcomes of a script
that asks for one depend on a register that the script has not determined. -/
theorem explore_outcomes_differ :
    ¬ ∀ (I : Interpreter) (c d : Context), c.Alike d → ∀ L M, I.explore c = .ok L →
      I.explore d = .ok M → L.map Context.outcome = M.map Context.outcome := by
  intro h
  have hc : ((addAndAsk.turn .explore)^[5] (.start (varAt 1 0))).opened = [] := by decide +kernel
  have hd : ((addAndAsk.turn .explore)^[6] (.start (varAt 1 4))).opened = [] := by decide +kernel
  have heq := h addAndAsk _ _ (alike_varAt 1 0 4) _ _
    (run_eq_endedBy 5 hc (by decide) (by decide)) (run_eq_endedBy 6 hd (by decide) (by decide))
  revert heq
  decide +kernel

end Interpreter

end Cartridge
