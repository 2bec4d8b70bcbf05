import Cartridge.Proofs.Script.Coverage

/-!
# Link — how two branches at the same place may differ

An exploring branch `x` and another branch `e` at the same place are *linked* when they agree in
what `x` has determined: those registers, and the two compared values if it knows them.  A `Scope`
can ask for more: that all registers agree, that both branches know the same, that their access logs
correspond.  `Link.applyEffect` says that every effect keeps the link, provided it takes the values
that it counts as produced, and the names that matter, from registers that `x` knows.
-/

namespace Cartridge

/-- How closely an exploring branch and another one are compared. -/
structure Scope where
  /-- What the other branch had run and answered before. -/
  past : Past := {}
  /-- Whether all registers count, not only those that the explorer has determined. -/
  whole : Prop := False
  /-- Whether the two branches know the same. -/
  marked : Prop := False
  /-- The accesses that the logs are compared for. -/
  watched : Access → Prop := fun _ => False
  /-- How the logs of the two branches correspond. -/
  logs : AccessLog → AccessLog → Prop := fun _ _ => True
  logs_note : ∀ {s t : AccessLog} {a b : Access}, logs s t → a = b ∨ ¬watched a ∧ ¬watched b →
    logs (s.note a) (t.note b) := by intros; trivial

/-- The exploring branch `x` and the branch `e` agree as far as the scope asks. -/
structure Link (S : Scope) (x e : Context) : Prop where
  control : x.control = e.control
  history : e.history = x.history ++ S.past.history
  answered : e.answered = x.answered ++ S.past.answered
  register : ∀ l, S.whole ∨ x.determined.get l = true → x.registers.get l = e.registers.get l
  compared : S.whole ∨ x.comparisonKnown = true → x.left = e.left ∧ x.right = e.right
  marks : S.marked → x.determined = e.determined ∧ x.comparisonKnown = e.comparisonKnown
  inputs : S.logs x.inputs e.inputs
  outputs : S.logs x.outputs e.outputs

namespace Link

variable {S : Scope} {x e : Context} (h : Link S x e)

include h

/-! ## Reads -/

theorem eq_of_knows {l : Location} {a : Access} (hl : Location.ofAccess? a = some l)
    (hk : S.whole ∨ x.knows a = true) : x.registers.get l = e.registers.get l := by
  refine h.register l (hk.imp_right fun hk => ?_)
  simpa [Context.knows, hl] using hk

theorem flag {id : UInt16} (hk : S.whole ∨ x.knows (.flag id) = true) :
    x.flag id = e.flag id :=
  Context.flag_congr fun i hi => h.eq_of_knows (by simp [Location.ofAccess?, hi]) hk

theorem var {id : UInt16} (hk : S.whole ∨ x.knows (.var id) = true) : x.var id = e.var id :=
  Context.var_congr fun i hi => h.eq_of_knows (by simp [Location.ofAccess?, hi]) hk

theorem bank {id : UInt8} (hk : S.whole ∨ x.knows (.bank id) = true) : x.bank id = e.bank id :=
  Context.bank_congr fun i hi => h.eq_of_knows (by simp [Location.ofAccess?, hi]) hk

theorem resolve {operand : UInt32} (hk : S.whole ∨ x.knows (.var operand.toUInt16) = true) :
    x.resolve operand = e.resolve operand := by
  unfold Context.resolve
  rw [h.var hk]

theorem isDetermined (hm : S.marked) (a : Access) : x.isDetermined a = e.isDetermined a := by
  unfold Context.isDetermined
  rw [(h.marks hm).1]

/-! ## Logs -/

theorem noteInput_of {a b : Access} (hab : a = b ∨ ¬S.watched a ∧ ¬S.watched b) :
    Link S (x.noteInput a) (e.noteInput b) :=
  { h with inputs := S.logs_note h.inputs hab }

theorem noteInput (a : Access) : Link S (x.noteInput a) (e.noteInput a) :=
  h.noteInput_of (Or.inl rfl)

theorem noteOutput_of {a b : Access} (hab : a = b ∨ ¬S.watched a ∧ ¬S.watched b) :
    Link S (x.noteOutput a) (e.noteOutput b) :=
  { h with outputs := S.logs_note h.outputs hab }

theorem noteOutput (a : Access) : Link S (x.noteOutput a) (e.noteOutput a) :=
  h.noteOutput_of (Or.inl rfl)

theorem noteOperand (operand : UInt32) :
    Link S (x.noteOperand operand) (e.noteOperand operand) := by
  unfold Context.noteOperand
  split
  · exact h.noteInput _
  · exact h

/-! ## Writes -/

theorem store {l : Location} {v w : UInt32} {k k' : Bool} (hv : S.whole ∨ k = true → v = w)
    (hk : S.marked → k = k') : Link S (x.store l v k) (e.store l w k') where
  control := h.control
  history := h.history
  answered := h.answered
  register := by
    intro j hj
    simp only [Context.store, Marks.get_set, Registers.get_set] at hj ⊢
    split at hj
    · next hlj => rw [if_pos hlj, if_pos hlj, hv hj]
    · next hlj => rw [if_neg hlj, if_neg hlj, h.register j hj]
  compared := h.compared
  marks := by
    intro hm
    obtain ⟨hd, hc⟩ := h.marks hm
    exact ⟨by simp only [Context.store, hd, hk hm], hc⟩
  inputs := h.inputs
  outputs := S.logs_note h.outputs (Or.inl rfl)

theorem setFlag (id : UInt16) (value : Bool) :
    Link S (x.setFlag id value) (e.setFlag id value) := by
  unfold Context.setFlag
  split
  · exact h.store (fun _ => rfl) (fun _ => rfl)
  · exact h

theorem storeVar (id : UInt16) {v w : UInt16} {k k' : Bool} (hv : S.whole ∨ k = true → v = w)
    (hk : S.marked → k = k') : Link S (x.storeVar id v k) (e.storeVar id w k') := by
  unfold Context.storeVar
  split
  · exact h.store (fun hs => by rw [hv hs]) hk
  · exact h

theorem setVar (id value : UInt16) : Link S (x.setVar id value) (e.setVar id value) :=
  h.storeVar id (fun _ => rfl) (fun _ => rfl)

theorem guessVar (id value : UInt16) : Link S (x.guessVar id value) (e.guessVar id value) :=
  h.storeVar id (fun _ => rfl) (fun _ => rfl)

theorem setBank (id : UInt8) (value : UInt32) :
    Link S (x.setBank id value) (e.setBank id value) := by
  unfold Context.setBank
  split
  · exact h.store (fun _ => rfl) (fun _ => rfl)
  · exact h

theorem compare {left right left' right' : UInt32} {k k' : Bool}
    (hv : S.whole ∨ k = true → left = left' ∧ right = right') (hk : S.marked → k = k') :
    Link S { x with left := left, right := right, comparisonKnown := k }
      { e with left := left', right := right', comparisonKnown := k' } :=
  { h with compared := hv, marks := fun hm => ⟨(h.marks hm).1, hk hm⟩ }

end Link

/-- Decisions cannot tell linked branches apart. -/
theorem Link.shadow (S : Scope) : Shadow S.past (Link S) where
  control h := h.control
  history h := h.history
  answered h := h.answered
  compared h hk := h.compared (Or.inr hk)
  flag h id hk := h.flag (Or.inr (Context.knows_of_isDetermined hk))
  resume h k := { h with control := rfl }
  noteRun h a := { h with history := by rw [Context.noteRun, h.history]; rfl }
  noteAnswer h a := { h with answered := by rw [Context.noteAnswer, h.answered]; rfl }
  visits h v := { h with }
  noteInput h a := h.noteInput a
  setFlag h id value := h.setFlag id value
  setVar h id value := h.setVar id value

end Cartridge
