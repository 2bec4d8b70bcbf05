import Cartridge.Proofs.Script.Congruence
import Cartridge.Proofs.Script.Growth

/-!
# Offer — where a branch asks, and what it does with an answer

`Interpreter.offer?` is the list of options at an address that asks for an answer.  Executing takes
a pending answer there, whether offered or not, and otherwise tries every option, each with an
answer of its own.  `Took` lists what an instruction does to the answers of a branch; where it does
not ask, the pending answers make no difference (`step_give`).
-/

namespace Cartridge

namespace Context

/-- The branch with some answers to give. -/
def give (c : Context) (answers : List UInt8) : Context :=
  { c with pending := answers }

theorem give_of_pending {c : Context} {answers : List UInt8} (h : c.pending = answers) :
    c.give answers = c := by
  subst h
  rfl

/-- What a branch notes and writes does not depend on the answers it has to give. -/
theorem congruence_give (p : List UInt8) : Congruence fun c d => d = c.give p where
  location? := by rintro c _ rfl; rfl
  history := by rintro c _ rfl; rfl
  answered := by rintro c _ rfl; rfl
  determined := by rintro c _ rfl; rfl
  noteInput := by rintro c _ rfl a; rfl
  noteOutput := by rintro c _ rfl a; rfl
  setLeft := by rintro c _ rfl v; rfl
  setRight := by rintro c _ rfl v known; rfl
  store := by rintro c _ rfl l v known; rfl

end Context

namespace Interpreter

variable {I : Interpreter} {i : Instruction} {c d : Context} {options : List (UInt8 × UInt16)}

/-! ## Options -/

/-- What a transfer offers, if it asks for an answer. -/
def options? (I : Interpreter) (i : Instruction) : Transfer → Option (List (UInt8 × UInt16))
  | .yesNo => some [(0, 1), (1, 0)]
  | .choice =>
    some (listOptions ((I.game.optionCount? (i.operand 2).toUInt8).getD 2)
      (i.operands.getLast?.getD 0 != 0))
  | _ => none

/-- What the instruction at an address offers, if it asks for an answer. -/
def offer? (I : Interpreter) (a : UInt32) : Option (List (UInt8 × UInt16)) :=
  match Instruction.decode I.memory a with
  | .ok i =>
    match i.command.action with
    | .transfer t => I.options? i t
    | .inert | .effect _ => none
  | .error _ => none

theorem nodup_listOptions (count : Nat) (refuseBackOut : Bool) :
    ((listOptions count refuseBackOut).map Prod.fst).Nodup := by
  have hsmall (n : Nat) (hn : n ∈ List.range (min count backOut.toNat)) :
      n.toUInt8.toNat = n ∧ n < 127 := by
    have hlt : n < 127 := Nat.lt_of_lt_of_le (List.mem_range.mp hn) (Nat.min_le_right _ _)
    exact ⟨Nat.mod_eq_of_lt (by omega), hlt⟩
  rw [listOptions, List.map_append, List.map_map, List.nodup_append']
  refine ⟨(List.nodup_map_iff_inj_on List.nodup_range).mpr ?_, ?_, ?_⟩
  · intro n hn k hk h
    have htoNat := congrArg UInt8.toNat h
    simp only [Function.comp_apply] at htoNat
    rwa [(hsmall n hn).1, (hsmall k hk).1] at htoNat
  · split <;> simp
  · rw [List.disjoint_left]
    intro a ha hb
    obtain ⟨n, hn, rfl⟩ := List.mem_map.mp ha
    split at hb
    · exact absurd hb List.not_mem_nil
    · have htoNat := congrArg UInt8.toNat (List.mem_singleton.mp hb)
      simp only [Function.comp_apply] at htoNat
      rw [(hsmall n hn).1] at htoNat
      exact Nat.ne_of_lt (hsmall n hn).2 htoNat

/-- Every option has an answer of its own. -/
theorem nodup_offer {a : UInt32} (h : I.offer? a = some options) :
    (options.map Prod.fst).Nodup := by
  unfold offer? at h
  split at h
  · split at h
    · next t _ =>
      cases t <;> cases h
      · decide
      · exact nodup_listOptions _ _
    · cases h
    · cases h
  · cases h

/-- The option with an offered answer is found by it. -/
theorem find_option {option : UInt8 × UInt16} (hnodup : (options.map Prod.fst).Nodup)
    (h : option ∈ options) : options.find? (·.1 == option.1) = some option := by
  induction options with
  | nil => exact absurd h List.not_mem_nil
  | cons first rest ih =>
    rw [List.map_cons, List.nodup_cons] at hnodup
    rcases List.mem_cons.mp h with rfl | hrest
    · exact List.find?_cons_of_pos (by simp)
    · have hne : first.1 ≠ option.1 := fun heq =>
        hnodup.1 (heq ▸ List.mem_map_of_mem hrest)
      rw [List.find?_cons_of_neg (by simpa using hne)]
      exact ih hnodup.2 hrest

/-! ## Prompts -/

theorem reply_give (p : List UInt8) (option : UInt8 × UInt16) :
    reply i (c.give p) option = (reply i c option).give p :=
  congrArg (Context.goto · i.next)
    ((Context.congruence_give p).setVar (c := { c with answered := option.1 :: c.answered }) rfl
      resultVar option.2)

theorem answered_reply (option : UInt8 × UInt16) :
    (reply i c option).answered = option.1 :: c.answered :=
  (Context.SameCourse.storeVar { c with answered := option.1 :: c.answered } resultVar option.2
    true).answered

theorem pending_reply (option : UInt8 × UInt16) : (reply i c option).pending = c.pending :=
  congrArg Control.pending (Context.SameCourse.storeVar
    { c with answered := option.1 :: c.answered } resultVar option.2 true).control

/-- A pending answer is taken as it is. -/
theorem prompt_given (i : Instruction) (options : List (UInt8 × UInt16)) {answer : UInt8}
    {later : List UInt8} (h : c.pending = answer :: later) :
    ∃ result, prompt .execute i options c = ⟨reply i (c.give later) (answer, result), []⟩ := by
  simp only [prompt, guarded, h]
  exact ⟨_, rfl⟩

/-- An offered answer has the result that it is offered with. -/
theorem prompt_offered {option : UInt8 × UInt16} {later : List UInt8}
    (hnodup : (options.map Prod.fst).Nodup) (hoption : option ∈ options)
    (h : c.pending = option.1 :: later) :
    prompt .execute i options c = ⟨reply i (c.give later) option, []⟩ := by
  simp only [prompt, guarded, h, find_option hnodup hoption]
  rfl

/-- Without a pending answer every option is tried. -/
theorem mem_prompt_open (h : c.pending = []) (hne : options ≠ [])
    (hd : d ∈ (prompt .execute i options c).branches) :
    ∃ option ∈ options, d = reply i c option := by
  cases options with
  | nil => exact absurd rfl hne
  | cons first rest =>
    simp only [prompt, guarded, h, Advance.branches] at hd
    rw [← List.map_cons] at hd
    obtain ⟨option, hoption, rfl⟩ := List.mem_map.mp hd
    exact ⟨option, hoption, rfl⟩

theorem prompt_nothing (h : c.pending = []) :
    prompt .execute i [] c = ⟨c.goto i.next, []⟩ := by
  simp only [prompt, guarded, h]

/-! ## Where a branch does not ask -/

/-- The branch goes on as one branch that has taken no answer, in the same way whatever answers it
has to give. -/
def Straight (f : Context → Advance) (c : Context) : Prop :=
  ∃ d : Context, d.answered = c.answered ∧ ∀ p, f (c.give p) = ⟨d.give p, []⟩

theorem straight_of {f : Context → Context} (hd : d.answered = c.answered)
    (h : ∀ p, f (c.give p) = d.give p) : Straight (fun c => ⟨f c, []⟩) c :=
  ⟨d, hd, fun p => congrArg (Advance.mk · []) (h p)⟩

theorem straight_goto (a : UInt32) : Straight (fun c => ⟨c.goto a, []⟩) c :=
  ⟨c.goto a, rfl, fun _ => rfl⟩

theorem straight_close (reason : ExitReason) : Straight (fun c => ⟨c.close reason, []⟩) c :=
  ⟨c.close reason, rfl, fun _ => rfl⟩

theorem enter_give (call : Bool) (next target : UInt32) (p : List UInt8) :
    enter call next target (c.give p) = (enter call next target c).give p := by
  cases call <;> rfl

theorem answered_enter (call : Bool) (next target : UInt32) :
    (enter call next target c).answered = c.answered := by
  cases call <;> rfl

theorem straight_enter (call : Bool) (next target : UInt32) :
    Straight (fun c => ⟨enter call next target c, []⟩) c :=
  straight_of (answered_enter call next target) (enter_give call next target)

theorem straight_branch (call : Bool) (relation? : Option Relation) (target? : Option UInt32) :
    Straight (branch .execute i call relation? target?) c := by
  cases relation? with
  | none => exact straight_goto i.next
  | some relation =>
    cases target? with
    | none => exact straight_goto i.next
    | some target =>
      have hbranch : branch .execute i call (some relation) (some target) = fun d =>
          ⟨if relation.holds d.left d.right then enter call i.next target d else d.goto i.next,
            []⟩ := by
        funext d
        simp only [branch, guarded, true_or, if_true]
      rw [hbranch]
      by_cases h : relation.holds c.left c.right = true
      · exact straight_of (answered_enter call i.next target) fun p =>
          (if_pos h).trans (enter_give call i.next target p)
      · exact straight_of (d := c.goto i.next) rfl fun p => if_neg h

theorem win_give (flag : UInt16) (afterWin? : Option UInt32) (p : List UInt8) :
    win flag afterWin? (c.give p) = (win flag afterWin? c).give p := by
  have h := (Context.congruence_give p).setFlag (c := c) rfl flag true
  cases afterWin? with
  | some a => exact congrArg (Context.goto · a) h
  | none => exact congrArg (Context.close · .finished) h

theorem answered_win (flag : UInt16) (afterWin? : Option UInt32) :
    (win flag afterWin? c).answered = c.answered := by
  cases afterWin? <;> exact (Context.SameCourse.setFlag c flag true).answered

theorem straight_settle (flag : UInt16) (afterWin? tooFew? : Option UInt32) :
    Straight (fun c => ⟨I.settle i flag afterWin? tooFew? c, []⟩) c := by
  have hwon (h : ∀ p, I.settle i flag afterWin? tooFew? (c.give p) =
      win flag afterWin? (c.give p)) :
      Straight (fun c => ⟨I.settle i flag afterWin? tooFew? c, []⟩) c :=
    straight_of (answered_win flag afterWin?) fun p => (h p).trans (win_give flag afterWin? p)
  by_cases hf : c.flag flag = true
  · exact straight_of (d := c.goto i.next) rfl fun p => if_pos hf
  · cases tooFew? with
    | none => exact hwon fun p => if_neg hf
    | some a =>
      by_cases hparty : I.game.partySize < 2
      · exact straight_of (d := c.goto a) rfl fun p => (if_neg hf).trans (if_pos hparty)
      · exact hwon fun p => (if_neg hf).trans (if_neg hparty)

theorem straight_applyTransfer {t : Transfer} (h : I.options? i t = none) :
    Straight (I.applyTransfer .execute i t) c := by
  cases t with
  | stop | kill => exact straight_close _
  | ret =>
    cases hs : c.stack with
    | nil =>
      refine ⟨c.close .stackUnderflow, rfl, fun p => ?_⟩
      have hs' : (c.give p).stack = [] := hs
      simp only [applyTransfer, hs']
      rfl
    | cons a rest =>
      refine ⟨{ c with stack := rest }.goto a, rfl, fun p => ?_⟩
      have hs' : (c.give p).stack = a :: rest := hs
      simp only [applyTransfer, hs']
      rfl
  | jump call => exact straight_enter _ _ _
  | branch call => exact straight_branch _ _ _
  | standard call =>
    unfold Straight
    simp only [applyTransfer]
    cases I.game.standardScript? (i.operand 0).toUInt8 with
    | none => exact straight_goto i.next
    | some target => exact straight_enter _ _ _
  | standardBranch call => exact straight_branch _ _ _
  | yesNo => cases h
  | choice => cases h
  | battle =>
    obtain ⟨d, hd, hgive⟩ := straight_settle (I := I) (i := i)
      (c := c.noteInput (.flag (Command.trainerFlags + (i.operand 1).toUInt16)))
      (Command.trainerFlags + (i.operand 1).toUInt16)
      ((BattleKind.ofByte (i.operand 0).toUInt8).afterWin?.map i.operand)
      ((BattleKind.ofByte (i.operand 0).toUInt8).tooFew?.map i.operand)
    refine ⟨d, hd, fun p => ?_⟩
    simp only [applyTransfer, battle, true_or, if_true]
    exact hgive p

theorem applyTransfer_asking {mode : Mode} {t : Transfer} (h : I.options? i t = some options) :
    I.applyTransfer mode i t c = prompt mode i options c := by
  cases t <;> cases h <;> rfl

/-! ## Instructions -/

/-- **Where a branch does not ask, the answers it has to give make no difference.** -/
theorem step_give (hoffer : I.offer? c.pc = none) {a : Advance} (ha : I.step .execute c = .ok a) :
    ∃ d : Context, d.answered = c.answered ∧
      ∀ p, I.step .execute (c.give p) = .ok ⟨d.give p, []⟩ := by
  obtain ⟨i, hi, ha⟩ := step_eq_ok_iff.mp ha
  have hstep (p : List UInt8) : I.step .execute (c.give p) =
      I.perform .execute i ((c.noteRun i.address).give p) := by
    unfold step
    rw [show (c.give p).pc = c.pc from rfl, hi]
    rfl
  simp only [offer?, hi] at hoffer
  cases hact : i.command.action with
  | inert =>
    refine ⟨(c.noteRun i.address).goto i.next, rfl, fun p => ?_⟩
    rw [hstep, perform, hact]
    rfl
  | transfer t =>
    rw [hact] at hoffer
    obtain ⟨d, hd, hgive⟩ := straight_applyTransfer (c := c.noteRun i.address) hoffer
    refine ⟨d, hd, fun p => ?_⟩
    rw [hstep, perform, hact]
    exact congrArg Except.ok (hgive p)
  | effect f =>
    simp only [perform, hact] at ha
    cases hf : I.applyEffect .execute i f (c.noteRun i.address) with
    | error fault => rw [hf] at ha; cases ha
    | ok x =>
      refine ⟨x.goto i.next, (I.sameCourse_applyEffect hf).answered, fun p => ?_⟩
      have heffect : Results (fun c d => d = c.give p)
          (I.applyEffect .execute i f (c.noteRun i.address))
          (I.applyEffect .execute i f ((c.noteRun i.address).give p)) :=
        (Context.congruence_give p).applyEffect rfl fun _ _ => rfl
      rw [hf] at heffect
      obtain ⟨_, hgive, rfl⟩ := heffect.of_ok
      rw [hstep, perform, hact]
      simp only [hgive]
      rfl

/-- Where a branch asks, its next instruction is the prompt. -/
theorem step_offer (hoffer : I.offer? c.pc = some options) :
    ∃ i, ∀ p, I.step .execute (c.give p) =
      .ok (prompt .execute i options ((c.noteRun i.address).give p)) := by
  unfold offer? at hoffer
  split at hoffer
  · next i hi =>
    split at hoffer
    · next t hact =>
      refine ⟨i, fun p => ?_⟩
      unfold step
      rw [show (c.give p).pc = c.pc from rfl, hi]
      simp only [perform, hact, applyTransfer_asking hoffer]
      rfl
    · cases hoffer
    · cases hoffer
  · cases hoffer

/-- What the next instruction does to the answers of an executing branch. -/
inductive Took (I : Interpreter) (c d : Context) : Prop where
  | nothing (asks : I.offer? c.pc = none) (answered : d.answered = c.answered)
    (pending : d.pending = c.pending)
  /-- There was nothing to choose from. -/
  | passed (asks : I.offer? c.pc = some []) (none : c.pending = [])
    (answered : d.answered = c.answered) (pending : d.pending = [])
  | chose {options : List (UInt8 × UInt16)} {option : UInt8 × UInt16}
    (asks : I.offer? c.pc = some options) (none : c.pending = []) (mem : option ∈ options)
    (answered : d.answered = option.1 :: c.answered) (pending : d.pending = [])
  | given {options : List (UInt8 × UInt16)} {answer : UInt8} {later : List UInt8}
    (asks : I.offer? c.pc = some options) (given : c.pending = answer :: later)
    (answered : d.answered = answer :: c.answered) (pending : d.pending = later)

/-- **An executing branch takes an answer only where it asks**, and a pending one first. -/
theorem Next.took (h : I.Next .execute c d) : I.Took c d := by
  obtain ⟨-, a, ha, hd⟩ := h
  cases hoffer : I.offer? c.pc with
  | none =>
    obtain ⟨x, hx, hgive⟩ := step_give hoffer ha
    have hstep := hgive c.pending
    rw [Context.give_of_pending rfl, ha] at hstep
    cases hstep
    obtain rfl := List.mem_singleton.mp hd
    exact .nothing hoffer hx rfl
  | some options =>
    obtain ⟨i, hstep⟩ := step_offer hoffer
    have hprompt := hstep c.pending
    rw [Context.give_of_pending rfl, ha] at hprompt
    obtain rfl := Except.ok.inj hprompt
    cases hp : c.pending with
    | cons answer later =>
      obtain ⟨result, hgiven⟩ := prompt_given i options
        (c := (c.noteRun i.address).give (answer :: later)) rfl
      rw [hp, hgiven] at hd
      obtain rfl := List.mem_singleton.mp hd
      exact .given hoffer hp (answered_reply _) (pending_reply _)
    | nil =>
      rw [hp] at hd
      cases options with
      | nil =>
        rw [prompt_nothing rfl] at hd
        obtain rfl := List.mem_singleton.mp hd
        exact .passed hoffer hp rfl rfl
      | cons first rest =>
        obtain ⟨option, hoption, rfl⟩ := mem_prompt_open rfl (List.cons_ne_nil _ _) hd
        exact .chose hoffer hp hoption (answered_reply _) (pending_reply _)

/-- A branch with no answer to give has none later. -/
theorem Reaches.pending_nil (h : I.Reaches .execute c d) (hc : c.pending = []) :
    d.pending = [] := by
  induction h with
  | refl => exact hc
  | tail _ hde ih =>
    cases hde.took with
    | nothing _ _ hp => exact hp.trans ih
    | passed _ _ _ hp | chose _ _ _ _ hp => exact hp
    | given _ hgiven => rw [ih] at hgiven; cases hgiven

end Interpreter

end Cartridge
