import Cartridge.Proofs.Script.Lockstep
import Cartridge.Proofs.Script.Move

/-!
# Reads — an instruction notes what it reads

`Instruction.reads` lists what an instruction reads in a branch.  Exactly that is added to the
inputs of every next branch (`Next.inputs`), so along a run inputs only grow, and a register that no
outcome lists has been read by no branch of the run (`not_reads_of_run`).
-/

namespace Cartridge

/-- The variable that an operand names, if it names one. -/
def Instruction.named (i : Instruction) (n : Nat) : List Access :=
  if (Location.var? (i.operand n).toUInt16).isSome then [.var (i.operand n).toUInt16] else []

/-- What a side of a comparison reads. -/
def Comparand.reads (i : Instruction) : Comparand → List Access
  | .bank n | .bankByte n => [.bank (i.operand n).toUInt8]
  | .var n => [.var (i.operand n).toUInt16]
  | .literal _ | .farByte _ | .unknown => []

/-- What an instruction reads in a branch, in this order. -/
def Instruction.reads (i : Instruction) (c : Context) : Action → List Access
  | .inert => []
  | .transfer t => i.glances t
  | .effect f =>
    match f with
    | .readBank => [.bank (i.operand 0).toUInt8]
    | .copyBank => [.bank (i.operand 1).toUInt8]
    | .add => [.var (i.operand 0).toUInt16]
    | .subtract => i.named 1 ++ [.var (i.operand 0).toUInt16]
    | .copy => [.var (i.operand 1).toUInt16]
    | .copyResolved => i.named 1
    | .compare l r => l.reads i ++ r.reads i
    | .testFlag base => i.named 0 ++ [.flag (base + (c.resolve (i.operand 0)).toUInt16)]
    | .moveItem => i.named 0 ++ i.named 1
    | .ownsItem => i.named 0 ++ i.named 1 ++ [.item (c.resolve (i.operand 0)).toUInt16]
    | .assignFlag _ _ | .answer _ | .receive | .random | .hidePerson | .hidePersonOn => i.named 0
    | .ownsMoney => [.money]
    | .loadBank | .loadFarByte | .assign | .special | .specialInto | .resetTemporaries | .warp
    | .playerPosition | .countParty | .findMove | .gender | .moveMoney => []

/-- Notes some accesses, one after the other. -/
def AccessLog.noteAll (log : AccessLog) (as : List Access) : AccessLog :=
  as.foldl note log

namespace AccessLog

variable {log : AccessLog}

@[simp] theorem noteAll_nil : noteAll log [] = log := rfl

@[simp] theorem noteAll_singleton {a : Access} : noteAll log [a] = log.note a := rfl

@[simp] theorem noteAll_append {as bs : List Access} :
    noteAll log (as ++ bs) = (log.noteAll as).noteAll bs :=
  List.foldl_append

theorem mem_noteAll {as : List Access} {b : Access} : b ∈ log.noteAll as ↔ b ∈ log ∨ b ∈ as := by
  induction as generalizing log with
  | nil => simp
  | cons a as ih =>
    change b ∈ (log.note a).noteAll as ↔ _
    rw [ih, mem_note, List.mem_cons]
    tauto

end AccessLog

namespace Context

variable (c : Context)

@[simp] theorem inputs_noteInput (a : Access) : (c.noteInput a).inputs = c.inputs.note a := rfl

@[simp] theorem inputs_noteOutput (a : Access) : (c.noteOutput a).inputs = c.inputs := rfl

@[simp] theorem inputs_goto (a : UInt32) : (c.goto a).inputs = c.inputs := rfl

@[simp] theorem inputs_noteOperand (i : Instruction) (n : Nat) :
    (c.noteOperand (i.operand n)).inputs = c.inputs.noteAll (i.named n) := by
  unfold noteOperand Instruction.named
  split <;> rfl

@[simp] theorem inputs_storeVar (id value : UInt16) (known : Bool) :
    (c.storeVar id value known).inputs = c.inputs := by
  unfold storeVar
  split <;> rfl

@[simp] theorem inputs_setVar (id value : UInt16) : (c.setVar id value).inputs = c.inputs :=
  c.inputs_storeVar id value true

@[simp] theorem inputs_guessVar (id value : UInt16) : (c.guessVar id value).inputs = c.inputs :=
  c.inputs_storeVar id value false

@[simp] theorem inputs_setFlag (id : UInt16) (value : Bool) :
    (c.setFlag id value).inputs = c.inputs := by
  unfold setFlag
  split <;> rfl

@[simp] theorem inputs_setBank (id : UInt8) (value : UInt32) :
    (c.setBank id value).inputs = c.inputs := by
  unfold setBank
  split <;> rfl

end Context

namespace Interpreter

variable {I : Interpreter} {mode : Mode} {i : Instruction} {c d : Context}

/-! ## Effects -/

@[simp] theorem inputs_hide (bank map person : UInt8) :
    (I.hide bank map person c).inputs = c.inputs := by
  unfold hide
  split
  · split
    · rfl
    · exact c.inputs_setFlag _ _
  · rfl

theorem inputs_comparand {side : Comparand} {v : UInt32}
    (h : I.comparand i side c = .ok (d, v)) : d.inputs = c.inputs.noteAll (side.reads i) := by
  cases side with
  | farByte n =>
    simp only [comparand] at h
    cases hb : I.farByte (i.operand n) c with
    | error f => rw [hb] at h; cases h
    | ok byte => rw [hb] at h; cases h; rfl
  | literal n | bank n | bankByte n | var n | unknown => cases h; rfl

theorem inputs_compare {l r : Comparand} (h : I.compare i l r c = .ok d) :
    d.inputs = c.inputs.noteAll (l.reads i ++ r.reads i) := by
  simp only [compare] at h
  cases hl : I.comparand i l c with
  | error f => rw [hl] at h; cases h
  | ok p =>
    obtain ⟨c₁, left⟩ := p
    rw [hl] at h
    change (I.comparand i r { c₁ with left := left } >>= _) = _ at h
    cases hr : I.comparand i r { c₁ with left := left } with
    | error f => rw [hr] at h; cases h
    | ok q =>
      obtain ⟨c₂, right⟩ := q
      rw [hr] at h
      cases h
      have hright := inputs_comparand hr
      rw [AccessLog.noteAll_append, ← inputs_comparand hl]
      exact hright

/-- **An effect notes what it reads**, and nothing else. -/
theorem inputs_applyEffect {f : Effect} (h : I.applyEffect mode i f c = .ok d) :
    d.inputs = c.inputs.noteAll (i.reads c (.effect f)) := by
  cases f with
  | loadFarByte =>
    simp only [applyEffect] at h
    cases hb : I.farByte (i.operand 1) c with
    | error f => rw [hb] at h; cases h
    | ok value => rw [hb] at h; cases h; simp [Instruction.reads]
  | compare l r => exact inputs_compare h
  | hidePerson =>
    simp only [applyEffect] at h
    split at h <;> cases h <;> simp [Instruction.reads]
  | copy | copyResolved => cases h; simp [Instruction.reads, copyVar]
  | _ => cases h; simp [Instruction.reads]

/-! ## Transfers -/

theorem Passed.inputs {e : Context} (h : Passed mode i c e) : e.inputs = c.inputs := by
  cases h <;> rfl

theorem inputs_enter (call : Bool) (next target : UInt32) :
    (enter call next target c).inputs = c.inputs := by
  cases call <;> rfl

theorem inputs_reply (option : UInt8 × UInt16) : (reply i c option).inputs = c.inputs := by
  simp [reply]

theorem inputs_win (flag : UInt16) (afterWin? : Option UInt32) :
    (win flag afterWin? c).inputs = c.inputs := by
  cases afterWin? <;> exact c.inputs_setFlag flag true

theorem inputs_settle (flag : UInt16) (afterWin? tooFew? : Option UInt32) :
    (I.settle i flag afterWin? tooFew? c).inputs = c.inputs := by
  unfold settle
  split
  · rfl
  · split
    · split
      · rfl
      · exact inputs_win _ _
    · exact inputs_win _ _

theorem Fought.inputs {flag : UInt16} {kind : BattleKind} (h : I.Fought mode i c flag kind d) :
    d.inputs = c.inputs := by
  cases h with
  | settled => exact inputs_settle _ _ _
  | revisit => rfl
  | passed he | refused he => exact he.inputs
  | won he => exact (inputs_win _ _).trans he.inputs

theorem Moved.inputs {t : Transfer} (h : I.Moved mode i c t d) (ht : t ≠ .battle) :
    d.inputs = c.inputs := by
  cases h with
  | stop | kill | underflow | back | onward | revisit => rfl
  | entered _ he => exact (inputs_enter _ _ _).trans he.inputs
  | skipped _ he => exact he.inputs
  | chose _ he => exact (inputs_reply _).trans he.inputs
  | answered _ he => exact (inputs_reply _).trans he.inputs
  | battle => exact absurd rfl ht

/-- **A transfer notes the flag that it looks at**, and nothing else. -/
theorem inputs_applyTransfer {t : Transfer} (h : d ∈ (I.applyTransfer mode i t c).branches) :
    d.inputs = c.inputs.noteAll (i.glances t) := by
  by_cases ht : t = .battle
  · subst ht
    exact (fought_of_mem h).inputs
  · have hnone : i.glances t = [] := by cases t <;> first | rfl | exact absurd rfl ht
    rw [hnone]
    exact (moved_of_mem h).inputs ht

/-! ## Runs -/

/-- The branch is about to read a register. -/
def Reads (I : Interpreter) (c : Context) (l : Location) : Prop :=
  ∃ i, Instruction.decode I.memory c.pc = .ok i ∧ l.access ∈ i.reads c i.command.action

theorem inputs_perform {a : Advance} (ha : I.perform mode i c = .ok a) (hd : d ∈ a.branches) :
    d.inputs = c.inputs.noteAll (i.reads c i.command.action) := by
  unfold perform at ha
  split at ha
  · next hact =>
    cases ha
    obtain rfl := List.mem_singleton.mp hd
    rw [hact]
    rfl
  · next f hact =>
    split at ha
    · next e he =>
      cases ha
      obtain rfl := List.mem_singleton.mp hd
      rw [hact, Context.inputs_goto]
      exact inputs_applyEffect he
    · cases ha
  · next t hact =>
    cases ha
    rw [hact]
    exact inputs_applyTransfer hd

theorem reads_noteRun (a : UInt32) (action : Action) :
    i.reads (c.noteRun a) action = i.reads c action := by
  cases action <;> rfl

/-- **The next branches have noted what the instruction reads**, and nothing else. -/
theorem Next.inputs (h : I.Next mode c d) :
    ∃ i, Instruction.decode I.memory c.pc = .ok i ∧
      d.inputs = c.inputs.noteAll (i.reads c i.command.action) := by
  obtain ⟨-, a, ha, hd⟩ := h
  obtain ⟨i, hi, ha⟩ := step_eq_ok_iff.mp ha
  exact ⟨i, hi, (inputs_perform ha hd).trans (by rw [reads_noteRun]; rfl)⟩

theorem Next.mem_inputs {l : Location} (h : I.Next mode c d) :
    l.access ∈ d.inputs ↔ l.access ∈ c.inputs ∨ I.Reads c l := by
  obtain ⟨i, hi, hinputs⟩ := h.inputs
  rw [hinputs, AccessLog.mem_noteAll]
  refine or_congr_right ⟨fun ha => ⟨i, hi, ha⟩, ?_⟩
  rintro ⟨j, hj, ha⟩
  obtain rfl : j = i := by rw [hi] at hj; exact (Except.ok.inj hj).symm
  exact ha

/-- Along a run the inputs of a branch only grow. -/
theorem Reaches.inputs_subset {l : Location} (h : I.Reaches mode c d) (hl : l.access ∈ c.inputs) :
    l.access ∈ d.inputs := by
  induction h with
  | refl => exact hl
  | tail _ hde ih => exact hde.mem_inputs.mpr (Or.inl ih)

/-- A register that no outcome of a run lists as read has been read by no branch of the run. -/
theorem not_reads_of_run {L : List Context} {l : Location} (hL : I.run mode c = .ok L)
    (hl : ∀ e ∈ L, l.access ∉ e.inputs) (hd : I.Reaches mode c d) (hn : d.isDone = false) :
    ¬I.Reads d l := by
  intro hreads
  obtain ⟨a, ha⟩ := step_ok_of_run hL hd hn
  have hnext : I.Next mode d a.context := ⟨hn, a, ha, List.mem_cons_self⟩
  obtain ⟨e, he, hde⟩ := exists_end_of_run hL (hd.tail hnext)
  exact hl e he (hde.inputs_subset (hnext.mem_inputs.mpr (Or.inr hreads)))

end Interpreter

end Cartridge
