import Cartridge.Proofs.Script.Control
import Cartridge.Proofs.Script.Extent

/-!
# Fault — what an instruction that fails leaves behind

An instruction fails because it cannot be decoded, or because a far byte that its effect needs
cannot be read (`Interpreter.step_eq_error_iff`).  In the first case the context is as it was
before.  In the second the instruction has been noted as run, and everything else is as it was
before (`Interpreter.stepOnce_fault`), except that a comparison whose right side cannot be read has
its left side in place already, beside the old right one (`Interpreter.Torn.right`).
-/

namespace Cartridge

/-- Operand `n` is the address of a byte that the effect needs. -/
def Effect.Needs : Effect → Nat → Prop
  | .loadFarByte, n => n = 1
  | .compare l r, n => l = .farByte n ∨ r = .farByte n
  | _, _ => False

namespace Interpreter

variable {I : Interpreter} {mode : Mode} {i : Instruction} {c d : Context} {f : Fault}
  {v : UInt32}

/-! ## Far bytes -/

theorem bind_eq_error_iff {ε α β : Type} {x : Except ε α} {next : α → Except ε β} {e : ε} :
    x >>= next = .error e ↔ x = .error e ∨ ∃ a, x = .ok a ∧ next a = .error e := by
  cases x with
  | error e' => simp [bind, Except.bind]
  | ok a => simp [bind, Except.bind]

theorem farByte_eq_error_iff {a : UInt32} :
    I.farByte a c = .error f ↔ ∃ e, I.memory.readU8 a = .error e ∧ f = ⟨.memory e, c⟩ := by
  unfold farByte
  cases I.memory.readU8 a with
  | error e => simp [eq_comm]
  | ok byte => simp

/-- A side of a comparison cannot be read only if it is a far byte. -/
theorem comparand_eq_error_iff {side : Comparand} :
    I.comparand i side c = .error f ↔
      ∃ n e, side = .farByte n ∧ I.memory.readU8 (i.operand n) = .error e ∧
        f = ⟨.memory e, c⟩ := by
  cases side with
  | farByte n =>
    rw [comparand, bind_eq_error_iff, farByte_eq_error_iff]
    constructor
    · rintro (⟨e, hmissing, rfl⟩ | ⟨byte, -, hpure⟩)
      · exact ⟨n, e, rfl, hmissing, rfl⟩
      · cases hpure
    · rintro ⟨_, e, ⟨⟩, hmissing, rfl⟩
      exact Or.inl ⟨e, hmissing, rfl⟩
  | literal | bank | bankByte | var | unknown =>
    constructor
    · rintro ⟨⟩
    · rintro ⟨_, _, ⟨⟩, _⟩

/-- Reading a side of a comparison changes nothing but the log of inputs. -/
theorem comparand_eq_ok {side : Comparand} (h : I.comparand i side c = .ok (d, v)) :
    d = { c with inputs := d.inputs } := by
  cases side with
  | farByte n =>
    simp only [comparand] at h
    cases hb : I.farByte (i.operand n) c with
    | error f => rw [hb] at h; cases h
    | ok byte => rw [hb] at h; cases h; rfl
  | literal | bank | bankByte | var | unknown => cases h; rfl

/-! ## Effects that fail -/

/-- The ways in which an effect fails, and how far the context has come. -/
inductive Torn (I : Interpreter) (i : Instruction) (c : Context) : Effect → Fault → Prop where
  /-- The byte to load cannot be read. -/
  | load {e : MemoryError} (missing : I.memory.readU8 (i.operand 1) = .error e) :
    Torn I i c .loadFarByte ⟨.memory e, c⟩
  /-- The left side of a comparison cannot be read. -/
  | left {n : Nat} {right : Comparand} {e : MemoryError}
    (missing : I.memory.readU8 (i.operand n) = .error e) :
    Torn I i c (.compare (.farByte n) right) ⟨.memory e, c⟩
  /-- The right side of a comparison cannot be read, and the left one is in place. -/
  | right {left : Comparand} {n : Nat} {d : Context} {v : UInt32} {e : MemoryError}
    (read : I.comparand i left c = .ok (d, v))
    (missing : I.memory.readU8 (i.operand n) = .error e) :
    Torn I i c (.compare left (.farByte n)) ⟨.memory e, { d with left := v }⟩

theorem compare_eq_error_iff {l r : Comparand} :
    I.compare i l r c = .error f ↔ Torn I i c (.compare l r) f := by
  rw [compare, bind_eq_error_iff, comparand_eq_error_iff]
  constructor
  · rintro (⟨n, e, rfl, hmissing, rfl⟩ | ⟨⟨d, v⟩, hread, hright⟩)
    · exact .left hmissing
    · rcases bind_eq_error_iff.mp hright with hright | ⟨p, -, hpure⟩
      · obtain ⟨n, e, rfl, hmissing, rfl⟩ := comparand_eq_error_iff.mp hright
        exact .right hread hmissing
      · cases hpure
  · intro h
    cases h with
    | left missing => exact Or.inl ⟨_, _, rfl, missing, rfl⟩
    | right read missing =>
      exact Or.inr ⟨_, read,
        bind_eq_error_iff.mpr (Or.inl (comparand_eq_error_iff.mpr ⟨_, _, rfl, missing, rfl⟩))⟩

/-- **An effect fails** for a far byte that cannot be read, and for nothing else. -/
theorem applyEffect_eq_error_iff {e : Effect} :
    I.applyEffect mode i e c = .error f ↔ Torn I i c e f := by
  cases e with
  | loadFarByte =>
    rw [applyEffect, bind_eq_error_iff, farByte_eq_error_iff]
    constructor
    · rintro (⟨e, hmissing, rfl⟩ | ⟨byte, -, hpure⟩)
      · exact .load hmissing
      · cases hpure
    · intro h
      cases h with
      | load missing => exact Or.inl ⟨_, missing, rfl⟩
  | compare l r => exact compare_eq_error_iff
  | hidePerson =>
    simp only [applyEffect]
    constructor
    · intro h
      split at h <;> cases h
    · rintro ⟨⟩
  | _ =>
    constructor
    · rintro ⟨⟩
    · rintro ⟨⟩

/-- An effect that fails changes at most the left value and the log of inputs. -/
theorem Torn.rest {e : Effect} (h : Torn I i c e f) :
    f.context = { c with left := f.context.left, inputs := f.context.inputs } := by
  cases h with
  | load | left => rfl
  | right read _ =>
    dsimp only
    rw [comparand_eq_ok read]

/-- An effect fails for a far byte that it needs; it has changed nothing unless that byte is the
right side of a comparison. -/
theorem Torn.missing {e : Effect} (h : Torn I i c e f) :
    ∃ n m, e.Needs n ∧ I.memory.readU8 (i.operand n) = .error m ∧ f.cause = .memory m ∧
      (f.context = c ∨ ∃ l d v, e = .compare l (.farByte n) ∧ I.comparand i l c = .ok (d, v)) := by
  cases h with
  | load missing => exact ⟨1, _, rfl, missing, rfl, Or.inl rfl⟩
  | left missing => exact ⟨_, _, Or.inl rfl, missing, rfl, Or.inl rfl⟩
  | right read missing => exact ⟨_, _, Or.inr rfl, missing, rfl, Or.inr ⟨_, _, _, rfl, read⟩⟩

/-! ## Instructions that fail -/

/-- The ways in which an instruction fails, and how far the context has come. -/
inductive Breaks (I : Interpreter) (c : Context) : Fault → Prop where
  /-- It cannot be decoded, and nothing has happened. -/
  | undecoded {e : DecodeError} (fails : Instruction.decode I.memory c.pc = .error e) :
    Breaks I c ⟨.decode e, c⟩
  /-- It has been noted as run, and its effect fails. -/
  | torn {i : Instruction} {e : Effect} {f : Fault}
    (decoded : Instruction.decode I.memory c.pc = .ok i) (action : i.command.action = .effect e)
    (fails : Torn I i (c.noteRun c.pc) e f) : Breaks I c f

/-- **An instruction fails** if it cannot be decoded or a far byte cannot be read. -/
theorem step_eq_error_iff : I.step mode c = .error f ↔ Breaks I c f := by
  unfold step
  cases hdecode : Instruction.decode I.memory c.pc with
  | error e =>
    constructor
    · rintro ⟨⟩
      exact .undecoded hdecode
    · intro h
      cases h with
      | undecoded fails => rw [hdecode] at fails; cases fails; rfl
      | torn decoded => rw [hdecode] at decoded; cases decoded
  | ok i =>
    have haddress := Instruction.address_of_decode hdecode
    dsimp only
    rw [haddress]
    constructor
    · intro h
      unfold perform at h
      split at h
      · cases h
      · next e haction =>
        split at h
        · cases h
        · next f' hfails =>
          cases h
          exact .torn hdecode haction (applyEffect_eq_error_iff.mp hfails)
      · cases h
    · intro h
      cases h with
      | undecoded fails => rw [hdecode] at fails; cases fails
      | torn decoded action fails =>
        rw [hdecode] at decoded
        cases decoded
        have herror : I.applyEffect mode i _ _ = .error f := applyEffect_eq_error_iff.mpr fails
        unfold perform
        rw [action]
        dsimp only
        rw [← Context.noteRun, herror]

/-- **What a failing instruction leaves.**  Either it cannot be decoded, and the context is as it
was; or a far byte that its effect needs cannot be read, and the context is as it was but for the
instruction being noted as run.  Where the byte is the right side of a comparison whose left side
had been read, this leaves the left value and the log of inputs open. -/
theorem stepOnce_fault (h : I.stepOnce c = .error f) :
    (∃ e, Instruction.decode I.memory c.pc = .error e ∧ f = ⟨.decode e, c⟩) ∨
    ∃ i e n m, Instruction.decode I.memory c.pc = .ok i ∧ i.command.action = .effect e ∧
      e.Needs n ∧ I.memory.readU8 (i.operand n) = .error m ∧ f.cause = .memory m ∧
      f.context = { c.noteRun c.pc with left := f.context.left, inputs := f.context.inputs } ∧
      (f.context = c.noteRun c.pc ∨
        ∃ l d v, e = .compare l (.farByte n) ∧ I.comparand i l (c.noteRun c.pc) = .ok (d, v)) := by
  have hbreaks : Breaks I c f := by
    unfold stepOnce at h
    split at h
    · cases h
    · exact step_eq_error_iff.mp h
  cases hbreaks with
  | undecoded fails => exact Or.inl ⟨_, fails, rfl⟩
  | torn decoded action fails =>
    obtain ⟨n, m, hneeds, hmissing, hcause, hcontext⟩ := fails.missing
    exact Or.inr ⟨_, _, n, m, decoded, action, hneeds, hmissing, hcause, fails.rest, hcontext⟩

/-- A cartridge that holds nothing but a script, in a game of which nothing is known. -/
def ofScript (bytes : Array UInt8) : Interpreter where
  memory := ⟨[⟨Memory.cartridgeBase, bytes⟩]⟩
  game := .unknown
  limits := {}

/-- Compares its own first byte with the byte at address zero, where there is none. -/
def comparesFar : Interpreter :=
  .ofScript #[0x20, 0, 0, 0, 8, 0, 0, 0, 0]

theorem stepOnce_fault_comparesFar : ∃ f,
    comparesFar.stepOnce (.blank Memory.cartridgeBase) = .error f ∧
      f.context = { (Context.blank Memory.cartridgeBase).noteRun Memory.cartridgeBase with
        left := f.context.left, inputs := f.context.inputs } := by
  have hhistory : (match comparesFar.stepOnce (.blank Memory.cartridgeBase) with
      | .error f => f.context.history
      | .ok _ => []) = [Memory.cartridgeBase] := by decide +kernel
  cases hstep : comparesFar.stepOnce (.blank Memory.cartridgeBase) with
  | ok d => rw [hstep] at hhistory; cases hhistory
  | error f =>
    rw [hstep] at hhistory
    refine ⟨f, rfl, ?_⟩
    obtain ⟨e, -, rfl⟩ | ⟨i, e, n, m, -, -, -, -, -, hrest, -⟩ := stepOnce_fault hstep
    · cases hhistory
    · exact hrest

/-- Loads the byte at address zero, where there is none. -/
def loadsFar : Interpreter :=
  .ofScript #[0x12, 0, 0, 0, 0, 0]

/-- An instruction that fails stays noted as run. -/
theorem stepOnce_stays_noted :
    ¬ ∀ (I : Interpreter) (c : Context) (f : Fault), I.stepOnce c = .error f → f.context = c := by
  intro hintact
  have hhistory : (match loadsFar.stepOnce (.blank Memory.cartridgeBase) with
      | .error f => f.context.history
      | .ok _ => []) = [Memory.cartridgeBase] := by decide +kernel
  cases hstep : loadsFar.stepOnce (.blank Memory.cartridgeBase) with
  | ok d => rw [hstep] at hhistory; cases hhistory
  | error f =>
    rw [hstep] at hhistory
    have hnoted : f.context.history = [Memory.cartridgeBase] := hhistory
    rw [hintact _ _ f hstep] at hnoted
    cases hnoted

end Interpreter

end Cartridge
