import Cartridge.Proofs.Script.Move

/-!
# Passage — how control passes, and where a return belongs

Control passes from instruction to instruction in a manner that the first one allows
(`Interpreter.Leads`).  Calls and returns among the passages match like brackets: `Balanced` passages
have returned from all their calls, and after `Unwound` ones nothing but entries of the first call
stack is left.  A return belongs behind the last call that has not been returned from, or at the next
of these entries (`Interpreter.ReturnsTo`).  A call stack that keeps step with the passages
(`Interpreter.Standing`) has that place on top (`Standing.returnsTo`), and is empty exactly when a
return has nowhere to lead (`Standing.empty_iff`).
-/

namespace Cartridge

/-- How control passes to the instruction that runs next. -/
inductive Manner where
  /-- To the instruction right behind. -/
  | onward
  /-- To a destination of the instruction. -/
  | jump
  /-- To a destination of the instruction, from which the script is to return. -/
  | call
  /-- Back from a call. -/
  | back
deriving DecidableEq

/-- Control passes from one address to another. -/
structure Passage where
  source : UInt32
  manner : Manner
  target : UInt32
deriving DecidableEq

/-! ## Brackets -/

/-- Every call has been returned from, and every return is one from a call. -/
inductive Balanced : List Passage → Prop where
  | nil : Balanced []
  | level {ps : List Passage} {p : Passage} (before : Balanced ps)
    (level : p.manner = .onward ∨ p.manner = .jump) : Balanced (ps ++ [p])
  | closed {ps inside : List Passage} {call back : Passage} (before : Balanced ps)
    (calls : call.manner = .call) (within : Balanced inside) (returns : back.manner = .back) :
    Balanced (ps ++ call :: (inside ++ [back]))

/-- Every call has been returned from, and `n` returns were from calls made before. -/
inductive Unwound : Nat → List Passage → Prop where
  | balanced {ps : List Passage} (all : Balanced ps) : Unwound 0 ps
  | back {n : Nat} {ps inside : List Passage} {back : Passage} (before : Unwound n ps)
    (returns : back.manner = .back) (within : Balanced inside) :
    Unwound (n + 1) (ps ++ back :: inside)

theorem Balanced.append {ps qs : List Passage} (h : Balanced ps) (h' : Balanced qs) :
    Balanced (ps ++ qs) := by
  induction h' with
  | nil => rwa [List.append_nil]
  | level _ hlevel ih =>
    rw [← List.append_assoc]
    exact .level ih hlevel
  | closed _ hcalls hwithin hreturns ih _ =>
    rw [← List.append_assoc]
    exact .closed ih hcalls hwithin hreturns

/-- A call, what runs inside it and the return from it. -/
theorem Balanced.call {inside : List Passage} {call back : Passage} (hcall : call.manner = .call)
    (hinside : Balanced inside) (hback : back.manner = .back) :
    Balanced (call :: (inside ++ [back])) := by
  have h : Balanced ([] ++ call :: (inside ++ [back])) := .closed .nil hcall hinside hback
  rwa [List.nil_append] at h

theorem Unwound.append {n : Nat} {ps qs : List Passage} (h : Unwound n ps) (h' : Balanced qs) :
    Unwound n (ps ++ qs) := by
  cases h with
  | balanced hall => exact .balanced (hall.append h')
  | back hbefore hreturns hwithin =>
    rw [List.append_assoc, List.cons_append]
    exact .back hbefore hreturns (hwithin.append h')

/-- The calls that are open, and the returns from calls made before: what one more passage makes of
these two numbers. -/
def Passage.tally (n : Nat × Nat) (p : Passage) : Nat × Nat :=
  match p.manner, n with
  | .onward, n | .jump, n => n
  | .call, (opened, outer) => (opened + 1, outer)
  | .back, (opened + 1, outer) => (opened, outer)
  | .back, (0, outer) => (0, outer + 1)

theorem Passage.tally_level {p : Passage} (h : p.manner = .onward ∨ p.manner = .jump)
    (n : Nat × Nat) : p.tally n = n := by
  rcases h with h | h <;> simp only [tally, h]

theorem Passage.tally_call {p : Passage} (h : p.manner = .call) (n : Nat × Nat) :
    p.tally n = (n.1 + 1, n.2) := by
  simp only [tally, h]

theorem Passage.tally_back {p : Passage} (h : p.manner = .back) (opened outer : Nat) :
    p.tally (opened + 1, outer) = (opened, outer) := by
  simp only [tally, h]

theorem Passage.tally_outer {p : Passage} (h : p.manner = .back) (outer : Nat) :
    p.tally (0, outer) = (0, outer + 1) := by
  simp only [tally, h]

/-- Balanced passages count for nothing. -/
theorem Balanced.tally {ps : List Passage} (h : Balanced ps) (n : Nat × Nat) :
    ps.foldl (fun n p => p.tally n) n = n := by
  induction h generalizing n with
  | nil => rfl
  | level _ hlevel ih =>
    rw [List.foldl_append, ih]
    exact Passage.tally_level hlevel n
  | closed _ hcalls _ hreturns ih ihwithin =>
    rw [List.foldl_append, ih, List.foldl_cons, List.foldl_append, ihwithin,
      Passage.tally_call hcalls]
    exact Passage.tally_back hreturns n.1 n.2

theorem Unwound.tally {n : Nat} {ps : List Passage} (h : Unwound n ps) :
    ps.foldl (fun n p => p.tally n) (0, 0) = (0, n) := by
  induction h with
  | balanced hall => exact hall.tally _
  | back _ hreturns hwithin ih =>
    rw [List.foldl_append, ih, List.foldl_cons, Passage.tally_outer hreturns]
    exact hwithin.tally _

/-- How many returns were from calls made before is a matter of the passages alone. -/
theorem Unwound.unique {n k : Nat} {ps : List Passage} (h : Unwound n ps) (h' : Unwound k ps) :
    n = k := by
  have heq := h.tally.symm.trans h'.tally
  exact congrArg Prod.snd heq

/-- With a call that has not been returned from, passages are not unwound. -/
theorem Unwound.not_inside {n : Nat} {earlier inside : List Passage} {call : Passage}
    (h : Unwound n (earlier ++ call :: inside)) (hcall : call.manner = .call)
    (hinside : Balanced inside) : False := by
  have htally := h.tally
  rw [List.foldl_append, List.foldl_cons, hinside.tally, Passage.tally_call hcall] at htally
  exact Nat.succ_ne_zero _ (congrArg Prod.fst htally)

namespace Interpreter

variable (I : Interpreter)

/-! ## Where control may go -/

/-- Whether an instruction may run on into the one right behind. -/
def runsOn (i : Instruction) : Bool :=
  match i.command.action with
  | .inert | .effect _ => true
  | .transfer t => t.passes

/-- Where control may pass to from an instruction.  Where a return leads the instruction does not
say. -/
inductive Leads (i : Instruction) : Manner → UInt32 → Prop where
  | onward (runs : runsOn i = true) : Leads i .onward i.next
  | jump {t : Transfer} {target : UInt32} (action : i.command.action = .transfer t)
    (entry : I.destination? i t = some (false, target)) : Leads i .jump target
  | call {t : Transfer} {target : UInt32} (action : i.command.action = .transfer t)
    (entry : I.destination? i t = some (true, target)) : Leads i .call target
  | tooFew {n : Nat} (action : i.command.action = .transfer .battle)
    (script : (BattleKind.ofByte (i.operand 0).toUInt8).tooFew? = some n) :
    Leads i .jump (i.operand n)
  | afterWin {n : Nat} (action : i.command.action = .transfer .battle)
    (script : (BattleKind.ofByte (i.operand 0).toUInt8).afterWin? = some n) :
    Leads i .jump (i.operand n)
  | back {target : UInt32} (action : i.command.action = .transfer .ret) : Leads i .back target

/-- The instruction at the source of a passage allows it. -/
def Allows (p : Passage) : Prop :=
  ∃ i, Instruction.decode I.memory p.source = .ok i ∧ I.Leads i p.manner p.target

/-- The address behind a call. -/
def IsBehind (call : Passage) (a : UInt32) : Prop :=
  ∃ i, Instruction.decode I.memory call.source = .ok i ∧ a = i.next

/-- Where a return after some passages belongs: behind the last call that has not been returned
from, or, when there is none, at the next entry of the call stack that they started with. -/
def ReturnsTo (stack : List UInt32) (before : List Passage) (a : UInt32) : Prop :=
  (∃ earlier call inside, before = earlier ++ call :: inside ∧ call.manner = .call ∧
    Balanced inside ∧ I.IsBehind call a) ∨
  ∃ n, Unwound n before ∧ stack[n]? = some a

/-! ## The call stack after some passages -/

/-- What a call stack holds after some passages, innermost first. -/
inductive Standing (stack : List UInt32) : List Passage → List UInt32 → Prop where
  | unwound {n : Nat} {ps : List Passage} (all : Unwound n ps) : Standing stack ps (stack.drop n)
  | inside {ps within : List Passage} {call : Passage} {calls : List UInt32} {a : UInt32}
    (before : Standing stack ps calls) (called : call.manner = .call) (behind : I.IsBehind call a)
    (balanced : Balanced within) : Standing stack (ps ++ call :: within) (a :: calls)

variable {I} {stack calls : List UInt32} {ps qs : List Passage} {a : UInt32}

namespace Standing

theorem start (stack : List UInt32) : I.Standing stack [] stack := by
  have h : I.Standing stack [] (stack.drop 0) := .unwound (.balanced .nil)
  rwa [List.drop_zero] at h

theorem append (h : I.Standing stack ps calls) (hqs : Balanced qs) :
    I.Standing stack (ps ++ qs) calls := by
  cases h with
  | unwound hall => exact .unwound (hall.append hqs)
  | inside hbefore hcalled hbehind hbalanced =>
    rw [List.append_assoc, List.cons_append]
    exact .inside hbefore hcalled hbehind (hbalanced.append hqs)

/-- A passage that neither calls nor returns leaves the stack as it is. -/
theorem level {p : Passage} (h : I.Standing stack ps calls)
    (hp : p.manner = .onward ∨ p.manner = .jump) : I.Standing stack (ps ++ [p]) calls := by
  have hlevel : Balanced ([] ++ [p]) := .level .nil hp
  exact h.append hlevel

/-- A call pushes the address behind it. -/
theorem call {p : Passage} (h : I.Standing stack ps calls) (hp : p.manner = .call)
    (hbehind : I.IsBehind p a) : I.Standing stack (ps ++ [p]) (a :: calls) :=
  .inside h hp hbehind .nil

/-- **The innermost call is where a return belongs.** -/
theorem returnsTo (h : I.Standing stack ps (a :: calls)) : I.ReturnsTo stack ps a := by
  generalize htop : a :: calls = top at h
  cases h with
  | @unwound n _ hall =>
    have hentry : stack[n]? = some a := by
      rw [← List.head?_drop, ← htop, List.head?_cons]
    exact Or.inr ⟨n, hall, hentry⟩
  | @inside before within call outer behind hbefore hcalled hbehind hbalanced =>
    obtain ⟨rfl, rfl⟩ := List.cons.inj htop
    exact Or.inl ⟨before, call, within, rfl, hcalled, hbalanced, hbehind⟩

/-- A return leaves the other calls. -/
theorem back {p : Passage} (h : I.Standing stack ps (a :: calls)) (hp : p.manner = .back) :
    I.Standing stack (ps ++ [p]) calls := by
  generalize htop : a :: calls = top at h
  cases h with
  | @unwound n _ hall =>
    have hrest : calls = stack.drop (n + 1) := by
      rw [← List.tail_drop, ← htop, List.tail_cons]
    rw [hrest]
    exact .unwound (.back hall hp .nil)
  | @inside before within call outer behind hbefore hcalled hbehind hbalanced =>
    obtain ⟨rfl, rfl⟩ := List.cons.inj htop
    rw [List.append_assoc, List.cons_append]
    exact hbefore.append (.call hcalled hbalanced hp)

/-- **Nothing is left on the stack exactly when a return has nowhere to lead.** -/
theorem empty_iff (h : I.Standing stack ps calls) :
    calls = [] ↔ ∀ a, ¬I.ReturnsTo stack ps a := by
  constructor
  · rintro rfl a hreturns
    generalize hempty : [] = top at h
    cases h with
    | @unwound n _ hall =>
      have hlen : stack.length ≤ n := List.drop_eq_nil_iff.mp hempty.symm
      rcases hreturns with ⟨earlier, call, inside, rfl, hcall, hinside, -⟩ | ⟨k, hk, hentry⟩
      · exact hall.not_inside hcall hinside
      · obtain rfl := hall.unique hk
        rw [List.getElem?_eq_none hlen] at hentry
        cases hentry
    | inside => cases hempty
  · intro hnowhere
    cases calls with
    | nil => rfl
    | cons a rest => exact absurd h.returnsTo (hnowhere a)

end Standing

end Interpreter

end Cartridge
