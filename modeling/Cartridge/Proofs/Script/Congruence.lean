import Cartridge.Proofs.Script.Reads

/-!
# Congruence — what an effect does depends on what it reads

A relation between branches on one course is a congruence if it is kept when both note or write the
same.  An effect then keeps it between branches that agree in the registers that the effect reads
(`Congruence.applyEffect`); the registers that it does not read may differ.
-/

namespace Cartridge

namespace Location

theorem varId_of_var? {id : UInt16} {i : Fin varCount} (h : var? id = some i) : varId i = id := by
  apply UInt16.toNat_inj.mp
  rw [toNat_varId]
  unfold var? at h
  split at h
  · next hs =>
    obtain rfl := Option.some.inj h
    rw [if_pos (show id.toNat - savedVarBase.toNat < savedVarCount by omega)]
    exact Nat.add_sub_cancel' hs.1
  · split at h
    · next ht =>
      obtain rfl := Option.some.inj h
      rw [if_neg (show ¬savedVarCount + (id.toNat - temporaryBase.toNat) < savedVarCount by omega)]
      simp only [Nat.add_sub_cancel_left]
      exact Nat.add_sub_cancel' ht.1
    · cases h

/-- A register has the access that names it. -/
theorem access_of_ofAccess? {a : Access} {l : Location} (h : ofAccess? a = some l) :
    l.access = a := by
  cases a with
  | flag id =>
    obtain ⟨i, hi, rfl⟩ := Option.map_eq_some_iff.mp h
    unfold flag? at hi
    split at hi <;> cases hi
    simp [access]
  | var id =>
    obtain ⟨i, hi, rfl⟩ := Option.map_eq_some_iff.mp h
    rw [access, varId_of_var? hi]
  | bank id =>
    obtain ⟨i, hi, rfl⟩ := Option.map_eq_some_iff.mp h
    unfold bank? at hi
    split at hi <;> cases hi
    simp [access]
  | special id | item id | money | species id | warp b m => cases h

end Location

namespace Context

theorem registers_noteOperand (c : Context) (operand : UInt32) :
    (c.noteOperand operand).registers = c.registers := by
  unfold noteOperand
  split <;> rfl

/-- The branches have the same values in the registers that some accesses name. -/
def AgreeOn (as : List Access) (c d : Context) : Prop :=
  ∀ k : Location, k.access ∈ as → c.registers.get k = d.registers.get k

namespace AgreeOn

variable {as bs : List Access} {c d : Context}

theorem left (h : AgreeOn (as ++ bs) c d) : AgreeOn as c d :=
  fun k hk => h k (List.mem_append_left _ hk)

theorem right (h : AgreeOn (as ++ bs) c d) : AgreeOn bs c d :=
  fun k hk => h k (List.mem_append_right _ hk)

theorem flag {id : UInt16} (h : AgreeOn [.flag id] c d) : c.flag id = d.flag id :=
  flag_congr fun i hi => h _ <| by
    rw [Location.access_of_ofAccess? (a := .flag id) (by simp [Location.ofAccess?, hi])]
    exact List.mem_cons_self

theorem var {id : UInt16} (h : AgreeOn [.var id] c d) : c.var id = d.var id :=
  var_congr fun i hi => h _ <| by
    rw [Location.access_of_ofAccess? (a := .var id) (by simp [Location.ofAccess?, hi])]
    exact List.mem_cons_self

theorem bank {id : UInt8} (h : AgreeOn [.bank id] c d) : c.bank id = d.bank id :=
  bank_congr fun i hi => h _ <| by
    rw [Location.access_of_ofAccess? (a := .bank id) (by simp [Location.ofAccess?, hi])]
    exact List.mem_cons_self

theorem resolve {i : Instruction} {n : Nat} (h : AgreeOn (i.named n) c d) :
    c.resolve (i.operand n) = d.resolve (i.operand n) := by
  unfold Context.resolve
  split
  · next hv =>
    rw [Instruction.named, if_pos hv] at h
    rw [h.var]
  · rfl

end AgreeOn

end Context

open Context (AgreeOn)

/-- A relation between branches on one course that is kept when both note or write the same. -/
structure Congruence (R : Context → Context → Prop) : Prop where
  location? {c d : Context} : R c d → c.location? = d.location?
  history {c d : Context} : R c d → c.history = d.history
  answered {c d : Context} : R c d → c.answered = d.answered
  determined {c d : Context} : R c d → c.determined = d.determined
  noteInput {c d : Context} : R c d → ∀ a, R (c.noteInput a) (d.noteInput a)
  noteOutput {c d : Context} : R c d → ∀ a, R (c.noteOutput a) (d.noteOutput a)
  setLeft {c d : Context} : R c d → ∀ v, R { c with left := v } { d with left := v }
  setRight {c d : Context} : R c d → ∀ v known,
    R { c with right := v, comparisonKnown := known }
      { d with right := v, comparisonKnown := known }
  store {c d : Context} : R c d → ∀ l v known, R (c.store l v known) (d.store l v known)

namespace Congruence

open Interpreter

variable {R : Context → Context → Prop} (hR : Congruence R) {c d : Context} {I : Interpreter}
  {mode : Mode} {i : Instruction}

include hR

/-! ## Notes and writes -/

theorem noteOperand (h : R c d) (operand : UInt32) :
    R (c.noteOperand operand) (d.noteOperand operand) := by
  unfold Context.noteOperand
  split
  · exact hR.noteInput h _
  · exact h

theorem record (h : R c d) (left right : UInt32) (known : Bool) :
    R { c with left := left, right := right, comparisonKnown := known }
      { d with left := left, right := right, comparisonKnown := known } :=
  hR.setRight (hR.setLeft h left) right known

theorem setFlag (h : R c d) (id : UInt16) (value : Bool) :
    R (c.setFlag id value) (d.setFlag id value) := by
  unfold Context.setFlag
  split
  · exact hR.store h _ _ _
  · exact h

theorem storeVar (h : R c d) (id value : UInt16) (known : Bool) :
    R (c.storeVar id value known) (d.storeVar id value known) := by
  unfold Context.storeVar
  split
  · exact hR.store h _ _ _
  · exact h

theorem setVar (h : R c d) (id value : UInt16) : R (c.setVar id value) (d.setVar id value) :=
  hR.storeVar h id value true

theorem guessVar (h : R c d) (id value : UInt16) : R (c.guessVar id value) (d.guessVar id value) :=
  hR.storeVar h id value false

theorem setBank (h : R c d) (id : UInt8) (value : UInt32) :
    R (c.setBank id value) (d.setBank id value) := by
  unfold Context.setBank
  split
  · exact hR.store h _ _ _
  · exact h

theorem hide (h : R c d) (bank map person : UInt8) :
    R (I.hide bank map person c) (I.hide bank map person d) := by
  unfold Interpreter.hide
  split
  · split
    · exact h
    · exact hR.setFlag h _ _
  · exact h

theorem isDetermined (h : R c d) (a : Access) : c.isDetermined a = d.isDetermined a := by
  unfold Context.isDetermined
  rw [hR.determined h]

theorem comparandKnown (h : R c d) (side : Comparand) :
    Interpreter.comparandKnown i side c = Interpreter.comparandKnown i side d := by
  cases side <;> simp only [Interpreter.comparandKnown, hR.isDetermined h]

theorem copyVar (h : R c d) (target source : UInt16) {v w : UInt16} (hvw : v = w) :
    R (Interpreter.copyVar target source v c) (Interpreter.copyVar target source w d) := by
  subst hvw
  unfold Interpreter.copyVar
  rw [hR.isDetermined h]
  exact hR.storeVar h _ _ _

theorem drawn (h : R c d) (bound : UInt16) : I.drawn mode bound c = I.drawn mode bound d := by
  unfold Interpreter.drawn
  rw [hR.history h, hR.answered h]

/-! ## Comparisons -/

theorem comparand (h : R c d) {side : Comparand} (ha : AgreeOn (side.reads i) c d) :
    Results (fun p q => R p.1 q.1 ∧ p.2 = q.2 ∧ p.1.registers = c.registers ∧
        q.1.registers = d.registers)
      (I.comparand i side c) (I.comparand i side d) := by
  cases side with
  | literal n | unknown => exact ⟨h, rfl, rfl, rfl⟩
  | bank n => exact ⟨hR.noteInput h _, ha.bank, rfl, rfl⟩
  | bankByte n => exact ⟨hR.noteInput h _, congrArg (· &&& 0xFF) ha.bank, rfl, rfl⟩
  | var n => exact ⟨hR.noteInput h _, congrArg UInt16.toUInt32 ha.var, rfl, rfl⟩
  | farByte n =>
    simp only [Interpreter.comparand, farByte]
    cases I.memory.readU8 (i.operand n) with
    | error f => exact rfl
    | ok byte => exact ⟨h, rfl, rfl, rfl⟩

theorem compareSides (h : R c d) {left right : Comparand}
    (ha : AgreeOn (left.reads i ++ right.reads i) c d) :
    Results R (I.compare i left right c) (I.compare i left right d) := by
  refine (hR.comparand h ha.left).bind ?_
  rintro ⟨c₁, v⟩ ⟨d₁, w⟩ ⟨h₁, rfl, hc₁, hd₁⟩
  have ha₁ : AgreeOn (right.reads i) { c₁ with left := v } { d₁ with left := v } := by
    intro k hk
    have hk' := ha.right k hk
    rw [← hc₁, ← hd₁] at hk'
    exact hk'
  refine (hR.comparand (hR.setLeft h₁ v) ha₁).bind ?_
  rintro ⟨c₂, v'⟩ ⟨d₂, w'⟩ ⟨h₂, rfl, -, -⟩
  have hknown : (Interpreter.comparandKnown i left c₂ && Interpreter.comparandKnown i right c₂) =
      (Interpreter.comparandKnown i left d₂ && Interpreter.comparandKnown i right d₂) :=
    congrArg₂ (· && ·) (hR.comparandKnown h₂ left) (hR.comparandKnown h₂ right)
  change R { c₂ with
      right := v'
      comparisonKnown :=
        Interpreter.comparandKnown i left c₂ && Interpreter.comparandKnown i right c₂ }
    { d₂ with
      right := v'
      comparisonKnown :=
        Interpreter.comparandKnown i left d₂ && Interpreter.comparandKnown i right d₂ }
  rw [← hknown]
  exact hR.setRight h₂ v' _

/-! ## Effects -/

/-- **An effect keeps a congruence** between branches that agree in the registers that it reads. -/
theorem applyEffect (h : R c d) {f : Effect} (ha : AgreeOn (i.reads c (.effect f)) c d) :
    Results R (I.applyEffect mode i f c) (I.applyEffect mode i f d) := by
  cases f with
  | loadBank => exact hR.setBank h _ _
  | loadFarByte =>
    simp only [Interpreter.applyEffect, farByte]
    cases I.memory.readU8 (i.operand 1) with
    | error g => exact rfl
    | ok byte => exact hR.setBank h _ _
  | readBank => exact hR.noteInput h _
  | copyBank =>
    simp only [Interpreter.applyEffect, ha.bank]
    exact hR.setBank (hR.noteInput h _) _ _
  | assign => exact hR.setVar h _ _
  | add =>
    simp only [Interpreter.applyEffect, ha.var]
    exact hR.setVar (hR.noteInput h _) _ _
  | subtract =>
    simp only [Interpreter.applyEffect, ha.left.resolve, ha.right.var]
    exact hR.setVar (hR.noteInput (hR.noteOperand h _) _) _ _
  | copy => exact hR.copyVar (hR.noteInput h _) _ _ ha.var
  | copyResolved => exact hR.copyVar (hR.noteOperand h _) _ _ (congrArg _ ha.resolve)
  | compare left right => exact hR.compareSides h ha
  | special => exact hR.noteOutput h _
  | specialInto => exact hR.guessVar (hR.noteOutput h _) _ _
  | assignFlag base value =>
    simp only [Interpreter.applyEffect, ha.resolve]
    exact hR.setFlag (hR.noteOperand h _) _ _
  | testFlag base =>
    have hv : c.resolve (i.operand 0) = d.resolve (i.operand 0) := ha.left.resolve
    have h₁ := hR.noteInput (hR.noteOperand h (i.operand 0))
      (.flag (base + (c.resolve (i.operand 0)).toUInt16))
    have hf : AgreeOn [.flag (base + (c.resolve (i.operand 0)).toUInt16)]
        ((c.noteOperand (i.operand 0)).noteInput (.flag (base + (c.resolve (i.operand 0)).toUInt16)))
        ((d.noteOperand (i.operand 0)).noteInput
          (.flag (base + (c.resolve (i.operand 0)).toUInt16))) := by
      intro k hk
      change (c.noteOperand _).registers.get k = (d.noteOperand _).registers.get k
      rw [Context.registers_noteOperand, Context.registers_noteOperand]
      exact ha.right k hk
    simp only [Interpreter.applyEffect, ← hv, ← hf.flag, ← hR.isDetermined h₁]
    exact hR.record h₁ _ _ _
  | resetTemporaries => exact hR.setVar (hR.setVar (hR.setVar h _ _) _ _) _ _
  | warp => exact hR.noteOutput h _
  | playerPosition => exact hR.guessVar (hR.guessVar h _ _) _ _
  | countParty => exact hR.setVar h _ _
  | moveItem =>
    simp only [Interpreter.applyEffect, ha.left.resolve]
    exact hR.setVar (hR.noteOutput (hR.noteOperand (hR.noteOperand h _) _) _) _ _
  | ownsItem =>
    simp only [Interpreter.applyEffect, ha.left.left.resolve, ha.left.right.resolve]
    exact hR.setVar (hR.noteInput (hR.noteOperand (hR.noteOperand h _) _) _) _ _
  | answer value => exact hR.setVar (hR.noteOperand h _) _ _
  | receive =>
    simp only [Interpreter.applyEffect, ha.resolve]
    exact hR.setVar (hR.noteOutput (hR.noteOperand h _) _) _ _
  | findMove => exact hR.setVar h _ _
  | gender => exact hR.setVar h _ _
  | random =>
    simp only [Interpreter.applyEffect, ha.resolve, hR.drawn h]
    exact hR.storeVar (hR.noteOperand h _) _ _ _
  | moveMoney => exact hR.noteOutput h _
  | ownsMoney => exact hR.setVar (hR.noteInput h _) _ _
  | hidePerson =>
    simp only [Interpreter.applyEffect, ha.resolve, hR.location? h]
    split
    · exact hR.hide (hR.noteOperand h _) _ _ _
    · exact hR.noteOperand h _
  | hidePersonOn =>
    simp only [Interpreter.applyEffect, ha.resolve]
    exact hR.hide (hR.noteOperand h _) _ _ _

end Congruence

end Cartridge
