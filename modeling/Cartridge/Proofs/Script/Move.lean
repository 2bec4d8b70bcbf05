import Cartridge.Proofs.Script.Control
import Cartridge.Proofs.Script.Reach

/-!
# Move — all that one instruction can make of a branch

`Moved` lists what a transfer can make of a branch and `Ran` what an instruction can.  Every next
branch is one of these (`Next.ran`), so what runs keep is proved with one case for each of them.  A
relation that each elementary change of a branch keeps is kept by instructions (`Ran.kept`).
-/

namespace Cartridge

/-- The decision that an instruction is for a branch. -/
def Instruction.decision (i : Instruction) (c : Context) : Visit :=
  ⟨i.address, c.stack.length, c.stack⟩

/-- A relation between a branch and what becomes of it that every change by an instruction keeps. -/
structure Context.KeptByMoves (R : Context → Context → Prop) : Prop extends
    KeptByEffects R where
  goto (c : Context) (a : UInt32) : R c (c.goto a)
  calls (c : Context) (stack : List UInt32) : R c { c with stack := stack }
  close (c : Context) (reason : ExitReason) : R c (c.close reason)
  visits (c : Context) (v : List Visit) : R c { c with visited := v }
  noteAnswer (c : Context) (answer : UInt8) : R c (c.noteAnswer answer)
  take (c : Context) {answer : UInt8} {later : List UInt8} (given : c.pending = answer :: later) :
    R c { c with pending := later }

/-- Whether the next instruction can follow a transfer that is no battle. -/
def Transfer.passes : Transfer → Bool
  | .stop | .ret | .kill | .jump _ => false
  | _ => true

/-- Whether a transfer may ask the loop guard before it goes on. -/
def Transfer.isGuarded : Transfer → Bool
  | .stop | .ret | .kill => false
  | _ => true

theorem Transfer.isGuarded_of_passes {t : Transfer} (h : t.passes = true) : t.isGuarded = true := by
  cases t with
  | stop | ret | kill => cases h
  | _ => rfl

namespace Interpreter

section Moves

variable (I : Interpreter) (mode : Mode) (i : Instruction) (c : Context)

/-- What the loop guard lets through: everything when executing, new decisions when exploring. -/
inductive Passed : Context → Prop where
  | unguarded (execute : mode = .execute) : Passed c
  | noted (explore : mode = .explore) (new : i.decision c ∉ c.visited) :
    Passed { c with visited := i.decision c :: c.visited }

/-- Where a transfer leads, and whether as a call. -/
def destination? : Transfer → Option (Bool × UInt32)
  | .jump call => some (call, i.operand 0)
  | .branch call => some (call, i.operand 1)
  | .standard call => (I.game.standardScript? (i.operand 0).toUInt8).map (call, ·)
  | .standardBranch call => (I.game.standardScript? (i.operand 1).toUInt8).map (call, ·)
  | _ => none

/-- What a trainer battle can make of a branch that has noted the flag of the trainer. -/
inductive Fought (flag : UInt16) (kind : BattleKind) : Context → Prop where
  | settled (known : mode = .execute ∨ c.isDetermined (.flag flag) = true) :
    Fought flag kind (I.settle i flag (kind.afterWin?.map i.operand) (kind.tooFew?.map i.operand) c)
  | revisit (explore : mode = .explore) : Fought flag kind (c.close .revisit)
  | passed {e : Context} (he : Passed mode i c e) : Fought flag kind (e.goto i.next)
  | refused {e : Context} {n : Nat} (he : Passed mode i c e) (hn : kind.tooFew? = some n) :
    Fought flag kind (e.goto (i.operand n))
  | won {e : Context} (he : Passed mode i c e) :
    Fought flag kind (win flag (kind.afterWin?.map i.operand) e)

/-- What a transfer can make of a branch. -/
inductive Moved : Transfer → Context → Prop where
  | stop : Moved .stop (c.close .finished)
  | kill : Moved .kill (c.close .killed)
  | underflow (stack : c.stack = []) : Moved .ret (c.close .stackUnderflow)
  | back {a : UInt32} {rest : List UInt32} (stack : c.stack = a :: rest) :
    Moved .ret ({ c with stack := rest }.goto a)
  | onward {t : Transfer} (passes : t.passes = true) : Moved t (c.goto i.next)
  | revisit {t : Transfer} (explore : mode = .explore) (guarded : t.isGuarded = true) :
    Moved t (c.close .revisit)
  | entered {t : Transfer} {call : Bool} {target : UInt32} {e : Context}
    (entry : I.destination? i t = some (call, target)) (he : Passed mode i c e) :
    Moved t (enter call i.next target e)
  | skipped {t : Transfer} {e : Context} (passes : t.passes = true) (he : Passed mode i c e) :
    Moved t (e.goto i.next)
  | chose {t : Transfer} {e : Context} {option : UInt8 × UInt16} (passes : t.passes = true)
    (he : Passed mode i c e) (open? : e.pending = []) : Moved t (reply i e option)
  | answered {t : Transfer} {e : Context} {answer : UInt8} {later : List UInt8} {result : UInt16}
    (passes : t.passes = true) (he : Passed mode i c e) (given : e.pending = answer :: later) :
    Moved t (reply i { e with pending := later } (answer, result))
  | battle {d : Context}
    (hd : Fought I mode i (c.noteInput (.flag (Command.trainerFlags + (i.operand 1).toUInt16)))
      (Command.trainerFlags + (i.operand 1).toUInt16) (.ofByte (i.operand 0).toUInt8) d) :
    Moved .battle d

/-- What an instruction can make of a branch. -/
inductive Ran : Context → Prop where
  | inert (action : i.command.action = .inert) : Ran (c.goto i.next)
  | effect {f : Effect} {e : Context} (action : i.command.action = .effect f)
    (he : I.applyEffect mode i f c = .ok e) : Ran (e.goto i.next)
  | transfer {t : Transfer} {d : Context} (action : i.command.action = .transfer t)
    (hd : Moved I mode i c t d) : Ran d

end Moves

variable {I : Interpreter} {mode : Mode} {i : Instruction} {c d : Context}

/-! ## Every branch is one of these -/

/-- A guarded decision goes on with what the loop guard lets through, or ends as a revisit. -/
theorem mem_guarded {proceed : Context → Advance}
    (h : d ∈ (guarded mode i c proceed).branches) :
    (∃ e, Passed mode i c e ∧ d ∈ (proceed e).branches) ∨
      mode = .explore ∧ d = c.close .revisit := by
  cases mode with
  | execute => exact Or.inl ⟨c, .unguarded rfl, h⟩
  | explore =>
    simp only [guarded, Context.visit?] at h
    split at h
    · next e hv =>
      split at hv
      · cases hv
      · next hmet =>
        cases hv
        exact Or.inl ⟨_, .noted rfl fun hm => hmet (Context.hasMet_iff.mpr hm), h⟩
    · exact Or.inr ⟨rfl, List.mem_singleton.mp h⟩

theorem moved_of_jump {t : Transfer} {call : Bool} {target : UInt32}
    (ht : I.destination? i t = some (call, target))
    (h : d ∈ (guarded mode i c fun c => ⟨enter call i.next target c, []⟩).branches) :
    I.Moved mode i c t d := by
  rcases mem_guarded h with ⟨e, he, hd⟩ | ⟨hm, rfl⟩
  · obtain rfl := List.mem_singleton.mp hd
    exact .entered ht he
  · refine .revisit hm ?_
    cases t with
    | stop | ret | kill => cases ht
    | _ => rfl

theorem moved_of_branch {t : Transfer} {call : Bool} {relation? : Option Relation}
    {target? : Option UInt32} (hp : t.passes = true) (ht : I.destination? i t = target?.map (call, ·))
    (h : d ∈ (branch mode i call relation? target? c).branches) : I.Moved mode i c t d := by
  unfold branch at h
  split at h
  · next relation target =>
    rcases mem_guarded h with ⟨e, he, hd⟩ | ⟨hm, rfl⟩
    · have hentered : I.Moved mode i c t (enter call i.next target e) := .entered ht he
      have hskipped : I.Moved mode i c t (e.goto i.next) := .skipped hp he
      dsimp only at hd
      split at hd
      · obtain rfl := List.mem_singleton.mp hd
        split
        · exact hentered
        · exact hskipped
      · simp only [Advance.branches, List.mem_cons, List.not_mem_nil, or_false] at hd
        rcases hd with rfl | rfl
        · exact hentered
        · exact hskipped
    · exact .revisit hm (Transfer.isGuarded_of_passes hp)
  · obtain rfl := List.mem_singleton.mp h
    exact .onward hp

theorem moved_of_prompt {t : Transfer} {options : List (UInt8 × UInt16)} (hp : t.passes = true)
    (h : d ∈ (prompt mode i options c).branches) : I.Moved mode i c t d := by
  rcases mem_guarded h with ⟨e, he, hd⟩ | ⟨hm, rfl⟩
  · dsimp only at hd
    split at hd
    · next answer later hgiven =>
      obtain rfl := List.mem_singleton.mp hd
      exact .answered hp he hgiven
    · next hopen =>
      split at hd
      · obtain rfl := List.mem_singleton.mp hd
        exact .skipped hp he
      · simp only [Advance.branches, List.mem_cons, List.mem_map] at hd
        rcases hd with rfl | ⟨option, -, rfl⟩
        · exact .chose hp he hopen
        · exact .chose hp he hopen
  · exact .revisit hm (Transfer.isGuarded_of_passes hp)

theorem fought_of_mem (h : d ∈ (I.battle mode i (.ofByte (i.operand 0).toUInt8) c).branches) :
    I.Fought mode i (c.noteInput (.flag (Command.trainerFlags + (i.operand 1).toUInt16)))
      (Command.trainerFlags + (i.operand 1).toUInt16) (.ofByte (i.operand 0).toUInt8) d := by
  simp only [battle] at h
  split at h
  · next hk =>
    obtain rfl := List.mem_singleton.mp h
    exact .settled hk
  · rcases mem_guarded h with ⟨e, he, hd⟩ | ⟨hm, rfl⟩
    · simp only [Advance.branches, List.mem_cons, List.mem_append, Option.mem_toList,
        Option.map_eq_some_iff, List.not_mem_nil, or_false] at hd
      rcases hd with rfl | ⟨a, ⟨n, hn, rfl⟩, rfl⟩ | rfl
      · exact .passed he
      · exact .refused he hn
      · exact .won he
    · exact .revisit hm

/-- **A transfer makes nothing else of a branch.** -/
theorem moved_of_mem {t : Transfer} (h : d ∈ (I.applyTransfer mode i t c).branches) :
    I.Moved mode i c t d := by
  cases t with
  | stop =>
    obtain rfl := List.mem_singleton.mp h
    exact .stop
  | kill =>
    obtain rfl := List.mem_singleton.mp h
    exact .kill
  | ret =>
    simp only [applyTransfer] at h
    split at h
    · next a rest hs =>
      obtain rfl := List.mem_singleton.mp h
      exact .back hs
    · next hs =>
      obtain rfl := List.mem_singleton.mp h
      exact .underflow hs
  | jump call => exact moved_of_jump rfl h
  | branch call => exact moved_of_branch rfl rfl h
  | standard call =>
    simp only [applyTransfer] at h
    split at h
    · next target hs => exact moved_of_jump (by simp only [destination?, hs, Option.map_some]) h
    · obtain rfl := List.mem_singleton.mp h
      exact .onward rfl
  | standardBranch call => exact moved_of_branch rfl rfl h
  | yesNo => exact moved_of_prompt rfl h
  | choice => exact moved_of_prompt rfl h
  | battle => exact .battle (fought_of_mem h)

theorem ran_of_perform {a : Advance} (ha : I.perform mode i c = .ok a) (hd : d ∈ a.branches) :
    I.Ran mode i c d := by
  unfold perform at ha
  split at ha
  · next hact =>
    cases ha
    obtain rfl := List.mem_singleton.mp hd
    exact .inert hact
  · next f hact =>
    split at ha
    · next e he =>
      cases ha
      obtain rfl := List.mem_singleton.mp hd
      exact .effect hact he
    · cases ha
  · next t hact =>
    cases ha
    exact .transfer hact (moved_of_mem hd)

/-- A step decodes an instruction, notes it and carries it out. -/
theorem step_eq_ok_iff {a : Advance} :
    I.step mode c = .ok a ↔ ∃ i, Instruction.decode I.memory c.pc = .ok i ∧
      I.perform mode i (c.noteRun i.address) = .ok a := by
  unfold step
  cases hi : Instruction.decode I.memory c.pc with
  | error e => simp
  | ok i => simp [Context.noteRun]

/-- **Every next branch comes from the instruction that the branch stands at**, once it is noted. -/
theorem Next.ran (h : I.Next mode c d) :
    ∃ i, Instruction.decode I.memory c.pc = .ok i ∧ I.Ran mode i (c.noteRun i.address) d := by
  obtain ⟨-, a, ha, hd⟩ := h
  obtain ⟨i, hi, ha⟩ := step_eq_ok_iff.mp ha
  exact ⟨i, hi, ran_of_perform ha hd⟩

/-! ## Relations that instructions keep -/

section Kept

open Context (KeptByMoves)

variable {R : Context → Context → Prop} (hR : KeptByMoves R)

include hR

theorem Passed.kept {e : Context} (h : Passed mode i c e) : R c e := by
  cases h with
  | unguarded => exact hR.refl c
  | noted => exact hR.visits c _

theorem kept_enter (call : Bool) (next target : UInt32) (c : Context) :
    R c (enter call next target c) := by
  cases call with
  | false => exact hR.goto c target
  | true => exact hR.trans (hR.calls c (next :: c.stack)) (hR.goto _ target)

theorem kept_reply (i : Instruction) (c : Context) (option : UInt8 × UInt16) :
    R c (reply i c option) :=
  hR.trans (hR.trans (hR.noteAnswer c option.1) (hR.storeVar _ resultVar option.2 true))
    (hR.goto _ i.next)

theorem kept_win (flag : UInt16) (afterWin? : Option UInt32) (c : Context) :
    R c (win flag afterWin? c) := by
  have hset : R c (c.setFlag flag true) := hR.setFlag c flag true
  cases afterWin? with
  | some a => exact hR.trans hset (hR.goto _ a)
  | none => exact hR.trans hset (hR.close _ _)

theorem kept_settle (flag : UInt16) (afterWin? tooFew? : Option UInt32) (c : Context) :
    R c (I.settle i flag afterWin? tooFew? c) := by
  unfold settle
  split
  · exact hR.goto _ _
  · split
    · split
      · exact hR.goto _ _
      · exact kept_win hR _ _ _
    · exact kept_win hR _ _ _

theorem Fought.kept {flag : UInt16} {kind : BattleKind} (h : I.Fought mode i c flag kind d) :
    R c d := by
  cases h with
  | settled => exact kept_settle hR _ _ _ _
  | revisit => exact hR.close _ _
  | passed he => exact hR.trans (he.kept hR) (hR.goto _ _)
  | refused he => exact hR.trans (he.kept hR) (hR.goto _ _)
  | won he => exact hR.trans (he.kept hR) (kept_win hR _ _ _)

theorem Moved.kept {t : Transfer} (h : I.Moved mode i c t d) : R c d := by
  cases h with
  | stop | kill | underflow | revisit => exact hR.close _ _
  | back => exact hR.trans (hR.calls c _) (hR.goto _ _)
  | onward => exact hR.goto _ _
  | entered _ he => exact hR.trans (he.kept hR) (kept_enter hR _ _ _ _)
  | skipped _ he => exact hR.trans (he.kept hR) (hR.goto _ _)
  | chose _ he => exact hR.trans (he.kept hR) (kept_reply hR _ _ _)
  | answered _ he given =>
    exact hR.trans (hR.trans (he.kept hR) (hR.take _ given)) (kept_reply hR _ _ _)
  | battle hd => exact hR.trans (hR.noteInput c _) (hd.kept hR)

/-- **Whatever the elementary changes of a branch keep, instructions keep.** -/
theorem Ran.kept (h : I.Ran mode i c d) : R c d := by
  cases h with
  | inert => exact hR.goto _ _
  | effect _ he => exact hR.trans (I.kept_applyEffect hR.toKeptByEffects he) (hR.goto _ _)
  | transfer _ hd => exact hd.kept hR

end Kept

end Interpreter

end Cartridge
