import Cartridge.Proofs.Script.Link

/-!
# Effect — effects keep branches linked

`Instruction.sources` lists what an effect computes from when it counts the outcome as produced
without asking what it was produced from: the flag to write, the sum, the item to look for.  A
branch is *informed* when it knows all of them.  `Instruction.names` lists what decides which item
or species an effect logs.  Where these are known, the effect has the same outcome on linked
branches.
-/

namespace Cartridge

/-- The registers from which an effect takes what it counts as produced by the branch. -/
def Instruction.sources (i : Instruction) : Effect → List Access
  | .copyBank => [.bank (i.operand 1).toUInt8]
  | .add => [.var (i.operand 0).toUInt16]
  | .subtract | .ownsItem => [.var (i.operand 0).toUInt16, .var (i.operand 1).toUInt16]
  | .assignFlag _ _ | .testFlag _ | .hidePerson | .hidePersonOn => [.var (i.operand 0).toUInt16]
  | _ => []

/-- The registers that decide whether an effect logs an access. -/
def Instruction.names (i : Instruction) : Effect → Access → List Access
  | .moveItem, .item _ | .receive, .species _ => [.var (i.operand 0).toUInt16]
  | _, _ => []

namespace Interpreter

variable (I : Interpreter) {i : Instruction}

theorem comparandKnown_congr {c d : Context} (h : c.determined = d.determined) (side : Comparand) :
    comparandKnown i side c = comparandKnown i side d := by
  cases side <;> simp only [comparandKnown, Context.isDetermined, h]

end Interpreter

namespace Link

open Interpreter

variable {S : Scope} {x e : Context} (h : Link S x e) {I : Interpreter} {i : Instruction}

include h

/-- The two contexts have read one side of a comparison, whatever values they had put on the left.
-/
theorem comparand (side : Comparand) (v w : UInt32) :
    Results (fun p q =>
        (Link S { p.1 with left := x.left } { q.1 with left := e.left } ∧ p.1.left = v ∧
          q.1.left = w) ∧
        (p.1.determined = x.determined ∧ q.1.determined = e.determined) ∧
        (S.whole ∨ comparandKnown i side x = true → p.2 = q.2))
      (I.comparand i side { x with left := v }) (I.comparand i side { e with left := w }) := by
  have hknown {a : Access} (hk : S.whole ∨ x.isDetermined a = true) :
      S.whole ∨ x.knows a = true := hk.imp_right Context.knows_of_isDetermined
  cases side with
  | literal n => exact ⟨⟨h, rfl, rfl⟩, ⟨rfl, rfl⟩, fun _ => rfl⟩
  | bank n => exact ⟨⟨h.noteInput _, rfl, rfl⟩, ⟨rfl, rfl⟩, fun hk => h.bank (hknown hk)⟩
  | bankByte n =>
    exact ⟨⟨h.noteInput _, rfl, rfl⟩, ⟨rfl, rfl⟩,
      fun hk => congrArg (· &&& 0xFF) (h.bank (hknown hk))⟩
  | farByte n =>
    simp only [Interpreter.comparand, farByte]
    cases I.memory.readU8 (i.operand n) with
    | error f => exact rfl
    | ok byte => exact ⟨⟨h, rfl, rfl⟩, ⟨rfl, rfl⟩, fun _ => rfl⟩
  | var n =>
    exact ⟨⟨h.noteInput _, rfl, rfl⟩, ⟨rfl, rfl⟩,
      fun hk => congrArg UInt16.toUInt32 (h.var (hknown hk))⟩
  | unknown => exact ⟨⟨h, rfl, rfl⟩, ⟨rfl, rfl⟩, fun _ => rfl⟩

theorem compareSides (l r : Comparand) :
    Results (Link S) (I.compare i l r x) (I.compare i l r e) := by
  refine (h.comparand l x.left e.left).bind ?_
  rintro ⟨x₁, v⟩ ⟨e₁, w⟩ ⟨⟨h₁, -, -⟩, ⟨hx₁, he₁⟩, hvw⟩
  refine (h₁.comparand r v w).bind ?_
  rintro ⟨x₂, v'⟩ ⟨e₂, w'⟩ ⟨⟨h₂, rfl, rfl⟩, ⟨hx₂, he₂⟩, hvw'⟩
  have hx : x₂.determined = x.determined := hx₂.trans hx₁
  have he : e₂.determined = e.determined := he₂.trans he₁
  refine h₂.compare (fun hk => ?_) (fun hm => ?_)
  · rw [comparandKnown_congr hx, comparandKnown_congr hx, Bool.and_eq_true] at hk
    refine ⟨hvw (hk.imp_right And.left), hvw' (hk.imp_right fun hk => ?_)⟩
    exact (comparandKnown_congr hx₁ r).trans hk.2
  · have hxe : x₂.determined = e₂.determined := by rw [hx, he, (h.marks hm).1]
    rw [comparandKnown_congr hxe, comparandKnown_congr hxe]

/-- A copy is as well known as what it is copied from. -/
theorem copyVar (target source : UInt16) {v w : UInt16}
    (hvw : S.whole ∨ x.knows (.var source) = true → v = w) :
    Link S (Interpreter.copyVar target source v x) (Interpreter.copyVar target source w e) := by
  refine h.storeVar target (fun hk => hvw (hk.imp_right fun hk => ?_)) (fun hm => ?_)
  · rw [Bool.or_eq_true, Option.isNone_iff_eq_none] at hk
    rcases hk with hk | hk
    · simp [Context.knows, Location.ofAccess?, hk]
    · exact Context.knows_of_isDetermined hk
  · rw [h.isDetermined hm]

theorem hide (bank map person : UInt8) :
    Link S (I.hide bank map person x) (I.hide bank map person e) := by
  unfold Interpreter.hide
  split
  · split
    · exact h
    · exact h.setFlag _ _
  · exact h

/-- What an operand names is the same for both branches, or not watched for. -/
theorem eq_or_unwatched {kind : UInt16 → Access} {operand : UInt32}
    (hk : ∀ a, (∃ v, a = kind v) → S.watched a → S.whole ∨ x.knows (.var operand.toUInt16) = true) :
    kind (x.resolve operand).toUInt16 = kind (e.resolve operand).toUInt16 ∨
      ¬S.watched (kind (x.resolve operand).toUInt16) ∧
        ¬S.watched (kind (e.resolve operand).toUInt16) := by
  by_cases hx : S.whole ∨ x.knows (.var operand.toUInt16) = true
  · exact Or.inl (by rw [h.resolve hx])
  · exact Or.inr ⟨fun hw => hx (hk _ ⟨_, rfl⟩ hw), fun hw => hx (hk _ ⟨_, rfl⟩ hw)⟩

theorem location?_eq : x.location? = e.location? := congrArg Control.location? h.control

/-- **Every effect keeps branches linked** that know its sources and the names it logs. -/
theorem applyEffect (mode : Mode) {f : Effect}
    (hs : S.whole ∨ ∀ a ∈ i.sources f, x.knows a = true)
    (hn : S.whole ∨ ∀ a, S.watched a → ∀ b ∈ i.names f a, x.knows b = true)
    (hr : f = .random → (S.whole → I.drawn mode (e.resolve (i.operand 0)).toUInt16 e = 0) ∧
      (S.marked → mode = .explore)) :
    Results (Link S) (I.applyEffect .explore i f x) (I.applyEffect mode i f e) := by
  have hs' {a : Access} (ha : a ∈ i.sources f) : S.whole ∨ x.knows a = true :=
    hs.imp_right fun hs => hs a ha
  cases f with
  | loadBank => exact h.setBank _ _
  | loadFarByte =>
    simp only [Interpreter.applyEffect, farByte]
    cases I.memory.readU8 (i.operand 1) with
    | error g => exact rfl
    | ok byte => exact h.setBank _ _
  | readBank => exact h.noteInput _
  | copyBank =>
    have hv := h.bank (hs' List.mem_cons_self)
    simp only [Interpreter.applyEffect, hv]
    exact (h.noteInput _).setBank _ _
  | assign => exact h.setVar _ _
  | add =>
    have hv := h.var (hs' List.mem_cons_self)
    simp only [Interpreter.applyEffect, hv]
    exact (h.noteInput _).setVar _ _
  | subtract =>
    have hv := h.var (hs' List.mem_cons_self)
    have hw := h.resolve (hs' (List.mem_cons_of_mem _ List.mem_cons_self))
    simp only [Interpreter.applyEffect, hv, hw]
    exact ((h.noteOperand _).noteInput _).setVar _ _
  | copy => exact (h.noteInput _).copyVar _ _ fun hk => h.var hk
  | copyResolved =>
    refine (h.noteOperand _).copyVar _ _ fun hk => ?_
    have hk' : S.whole ∨ x.knows (.var (i.operand 1).toUInt16) = true := by
      refine hk.imp_right fun hk => ?_
      unfold Context.noteOperand at hk
      split at hk <;> exact hk
    rw [h.resolve hk']
  | compare l r => exact h.compareSides l r
  | special => exact h.noteOutput _
  | specialInto => exact (h.noteOutput _).guessVar _ _
  | assignFlag base value =>
    have hv := h.resolve (hs' List.mem_cons_self)
    simp only [Interpreter.applyEffect, hv]
    exact (h.noteOperand _).setFlag _ _
  | testFlag base =>
    have hv := h.resolve (hs' List.mem_cons_self)
    simp only [Interpreter.applyEffect, hv]
    have h₁ := (h.noteOperand (i.operand 0)).noteInput
      (.flag (base + (e.resolve (i.operand 0)).toUInt16))
    refine h₁.compare (fun hk => ⟨?_, rfl⟩) (fun hm => h₁.isDetermined hm _)
    rw [h₁.flag (hk.imp_right Context.knows_of_isDetermined)]
  | resetTemporaries => exact ((h.setVar _ _).setVar _ _).setVar _ _
  | warp => exact h.noteOutput _
  | playerPosition => exact (h.guessVar _ _).guessVar _ _
  | countParty => exact h.setVar _ _
  | moveItem =>
    have h₁ := (h.noteOperand (i.operand 0)).noteOperand (i.operand 1)
    refine (h₁.noteOutput_of (h.eq_or_unwatched ?_)).setVar _ _
    rintro _ ⟨v, rfl⟩ hw
    exact hn.imp_right fun hn => hn _ hw _ List.mem_cons_self
  | ownsItem =>
    have hv := h.resolve (hs' List.mem_cons_self)
    have hw := h.resolve (hs' (List.mem_cons_of_mem _ List.mem_cons_self))
    simp only [Interpreter.applyEffect, hv, hw]
    exact (((h.noteOperand _).noteOperand _).noteInput _).setVar _ _
  | answer value => exact (h.noteOperand _).setVar _ _
  | receive =>
    refine ((h.noteOperand _).noteOutput_of (h.eq_or_unwatched ?_)).setVar _ _
    rintro _ ⟨v, rfl⟩ hw
    exact hn.imp_right fun hn => hn _ hw _ List.mem_cons_self
  | findMove => exact h.setVar _ _
  | gender => exact h.setVar _ _
  | random =>
    obtain ⟨hzero, hmode⟩ := hr rfl
    simp only [Interpreter.applyEffect]
    refine (h.noteOperand _).storeVar _ (fun hk => ?_) (fun hm => by rw [hmode hm])
    rw [hzero (hk.resolve_right (by simp)), drawn, if_neg (by simp)]
  | moveMoney => exact h.noteOutput _
  | ownsMoney => exact (h.noteInput _).setVar _ _
  | hidePerson =>
    have hv := h.resolve (hs' List.mem_cons_self)
    simp only [Interpreter.applyEffect, hv, h.location?_eq]
    split
    · exact (h.noteOperand _).hide _ _ _
    · exact h.noteOperand _
  | hidePersonOn =>
    have hv := h.resolve (hs' List.mem_cons_self)
    simp only [Interpreter.applyEffect, hv]
    exact (h.noteOperand _).hide _ _ _

end Link

end Cartridge
