import Cartridge.Game.View
import Cartridge.Script.Context
import Cartridge.Script.Instruction

/-!
# Step — running one instruction

`Interpreter.step` decodes the instruction at the context's address, notes it and carries it out.
Executing follows the values at hand; exploring leaves open what the branch has not determined and
forks, and closes a branch that meets a decision again with the same calls.  A fault says why the
instruction failed and how far the context had come.
-/

namespace Cartridge

/-- How decisions are taken. -/
inductive Mode where
  /-- By the values at hand; only prompts fork. -/
  | execute
  /-- Both ways, unless the branch itself has determined the outcome. -/
  | explore
deriving DecidableEq

/-- The tables of a map that scripts hang off. -/
inductive ScriptKind where
  | person
  | sign
  /-- Run by stepping on a cell. -/
  | generic
  /-- Run by the map itself. -/
  | map
  /-- Shared by all maps. -/
  | standard
deriving DecidableEq

namespace ScriptKind

/-- The name of the table in reports. -/
def label : ScriptKind → String
  | person => "Person"
  | sign => "Sign"
  | generic => "GenericScript"
  | map => "MapScript"
  | standard => "StdFunction"

end ScriptKind

/-- Why a script could not be run. -/
inductive ScriptError where
  | decode (e : DecodeError)
  | budgetExhausted (steps : Nat)
  | contextCapExceeded (contexts : Nat)
  | noSuchScript (kind : ScriptKind) (index : Nat) (home : MapId)
  | memory (e : MemoryError)
deriving DecidableEq

namespace ScriptError

/-- The wording of the error. -/
def message : ScriptError → String
  | decode e => "decode failed: " ++ e.message
  | budgetExhausted steps => "instruction budget of " ++ toString steps ++ " steps exhausted"
  | contextCapExceeded contexts => "more than " ++ toString contexts ++ " open contexts"
  | noSuchScript kind index home =>
    "no " ++ kind.label ++ " script #" ++ toString index ++ " on map (" ++
      toString home.bank.toNat ++ ", " ++ toString home.map.toNat ++ ")"
  | memory e => e.message

end ScriptError

/-- Bounds on a run. -/
structure RunLimits where
  /-- The instructions that a run may carry out over all its branches. -/
  maxSteps : Nat := 200000
  /-- The branches that may wait while another one runs. -/
  maxContexts : Nat := 4096
deriving DecidableEq

/-- What scripts run on. -/
structure Interpreter where
  memory : Memory
  game : GameView
  limits : RunLimits

/-- A failed instruction: the cause, and the context as far as it came. -/
structure Fault where
  cause : ScriptError
  context : Context

/-- A context after an instruction, and the branches that split off in it. -/
structure Advance where
  context : Context
  forks : List Context := []

/-- The variable that takes the answer of a command. -/
def resultVar : UInt16 := 0x800D

/-- The variable that names the person talked to last. -/
def lastTalkedVar : UInt16 := 0x800F

/-- The answer that backs out of a list. -/
def backOut : UInt8 := 0x7F

namespace Interpreter

variable (I : Interpreter) (mode : Mode)

/-! ### Effects -/

/-- Reads one byte for a context; a failure leaves the context as it is. -/
def farByte (a : UInt32) (c : Context) : Except Fault UInt32 :=
  match I.memory.readU8 a with
  | .ok byte => .ok byte.toUInt32
  | .error e => .error ⟨.memory e, c⟩

/-- One side of a comparison: the context that has read it and its value. -/
def comparand (i : Instruction) (side : Comparand) (c : Context) :
    Except Fault (Context × UInt32) :=
  match side with
  | .literal n => .ok (c, i.operand n)
  | .bank n =>
    let id := (i.operand n).toUInt8
    .ok (c.noteInput (.bank id), c.bank id)
  | .bankByte n =>
    let id := (i.operand n).toUInt8
    .ok (c.noteInput (.bank id), c.bank id &&& 0xFF)
  | .farByte n => do
    let byte ← I.farByte (i.operand n) c
    pure (c, byte)
  | .var n =>
    let id := (i.operand n).toUInt16
    .ok (c.noteInput (.var id), (c.var id).toUInt32)
  | .unknown => .ok (c, 0)

/-- Whether the branch has produced a side of a comparison. -/
def comparandKnown (i : Instruction) (side : Comparand) (c : Context) : Bool :=
  match side with
  | .literal _ => true
  | .bank n | .bankByte n => c.isDetermined (.bank (i.operand n).toUInt8)
  | .var n => c.isDetermined (.var (i.operand n).toUInt16)
  | .farByte _ | .unknown => false

/-- Compares two sides; the left one is in place before the right one is read. -/
def compare (i : Instruction) (l r : Comparand) (c : Context) : Except Fault Context := do
  let (c, left) ← I.comparand i l c
  let c := { c with left := left }
  let (c, right) ← I.comparand i r c
  return { c with
    right := right
    comparisonKnown := comparandKnown i l c && comparandKnown i r c }

/-- Gives a variable a value copied from what `source` names, as well known as that is. -/
def copyVar (target source : UInt16) (value : UInt16) (c : Context) : Context :=
  c.storeVar target value ((Location.var? source).isNone || c.isDetermined (.var source))

/-- The number that a script draws below a bound; exploring does not draw, and below zero there is
only zero. -/
def drawn (bound : UInt16) (c : Context) : UInt16 :=
  if mode = .execute ∧ 0 < bound then I.game.draw c.history c.answered bound else 0

/-- Sets the flag that hides a person, if the person has one. -/
def hide (bank map person : UInt8) (c : Context) : Context :=
  match I.game.personFlag? bank map person with
  | some flag => if flag = 0 then c else c.setFlag flag true
  | none => c

/-- The context after an effect. -/
def applyEffect (i : Instruction) (e : Effect) (c : Context) : Except Fault Context :=
  let word (n : Nat) : UInt16 := (i.operand n).toUInt16
  let byte (n : Nat) : UInt8 := (i.operand n).toUInt8
  match e with
  | .loadBank => .ok (c.setBank (byte 0) (i.operand 1))
  | .loadFarByte => do
    let value ← I.farByte (i.operand 1) c
    return c.setBank (byte 0) value
  | .readBank => .ok (c.noteInput (.bank (byte 0)))
  | .copyBank => .ok ((c.noteInput (.bank (byte 1))).setBank (byte 0) (c.bank (byte 1)))
  | .assign => .ok (c.setVar (word 0) (word 1))
  | .add => .ok ((c.noteInput (.var (word 0))).setVar (word 0) (c.var (word 0) + word 1))
  | .subtract =>
    .ok (((c.noteOperand (i.operand 1)).noteInput (.var (word 0))).setVar (word 0)
      (c.var (word 0) - (c.resolve (i.operand 1)).toUInt16))
  | .copy => .ok (copyVar (word 0) (word 1) (c.var (word 1)) (c.noteInput (.var (word 1))))
  | .copyResolved =>
    .ok (copyVar (word 0) (word 1) (c.resolve (i.operand 1)).toUInt16
      (c.noteOperand (i.operand 1)))
  | .compare l r => I.compare i l r c
  | .special => .ok (c.noteOutput (.special (word 0)))
  | .specialInto => .ok ((c.noteOutput (.special (word 1))).guessVar (word 0) 0)
  | .assignFlag base value =>
    .ok ((c.noteOperand (i.operand 0)).setFlag (base + (c.resolve (i.operand 0)).toUInt16) value)
  | .testFlag base =>
    let flag := base + (c.resolve (i.operand 0)).toUInt16
    let c := (c.noteOperand (i.operand 0)).noteInput (.flag flag)
    .ok { c with
      left := if c.flag flag then 1 else 0
      right := 1
      comparisonKnown := c.isDetermined (.flag flag) }
  | .resetTemporaries =>
    .ok (((c.setVar temporaryBase 0).setVar (temporaryBase + 1) 0).setVar (temporaryBase + 2) 0)
  | .warp => .ok (c.noteOutput (.warp (byte 0) (byte 1)))
  | .playerPosition =>
    let (x, y) := I.game.position?.getD (0, 0)
    .ok ((c.guessVar (word 0) x).guessVar (word 1) y)
  | .countParty => .ok (c.setVar resultVar I.game.partySize.toUInt16)
  | .moveItem =>
    let item := (c.resolve (i.operand 0)).toUInt16
    let c := (c.noteOperand (i.operand 0)).noteOperand (i.operand 1)
    .ok ((c.noteOutput (.item item)).setVar resultVar 1)
  | .ownsItem =>
    let item := (c.resolve (i.operand 0)).toUInt16
    let quantity := (c.resolve (i.operand 1)).toUInt16
    let c := ((c.noteOperand (i.operand 0)).noteOperand (i.operand 1)).noteInput (.item item)
    .ok (c.setVar resultVar (if max quantity 1 ≤ I.game.itemCount item then 1 else 0))
  | .answer value => .ok ((c.noteOperand (i.operand 0)).setVar resultVar value)
  | .receive =>
    let species := (c.resolve (i.operand 0)).toUInt16
    let c := (c.noteOperand (i.operand 0)).noteOutput (.species species)
    .ok (c.setVar resultVar (if 6 ≤ I.game.partySize then 1 else 0))
  | .findMove => .ok (c.setVar resultVar ((I.game.moveSlot? (word 0)).getD 6).toUInt16)
  | .gender => .ok (c.setVar resultVar I.game.gender.toUInt16)
  | .random =>
    let value := I.drawn mode (c.resolve (i.operand 0)).toUInt16 c
    .ok ((c.noteOperand (i.operand 0)).storeVar resultVar value (mode = .execute))
  | .moveMoney => .ok (c.noteOutput .money)
  | .ownsMoney =>
    .ok ((c.noteInput .money).setVar resultVar (if i.operand 0 ≤ I.game.money then 1 else 0))
  | .hidePerson =>
    let person := (c.resolve (i.operand 0)).toUInt8
    let noted := c.noteOperand (i.operand 0)
    match c.location? with
    | some here => .ok (I.hide here.bank here.map person noted)
    | none => .ok noted
  | .hidePersonOn =>
    let person := (c.resolve (i.operand 0)).toUInt8
    .ok (I.hide (byte 1) (byte 2) person (c.noteOperand (i.operand 0)))

/-! ### Transfers -/

/-- Goes to `target`, as a call if `call`. -/
def enter (call : Bool) (next target : UInt32) (c : Context) : Context :=
  (if call then c.push next else c).goto target

/-- Goes on behind a decision, unless exploring has met it before with the same calls. -/
def guarded (i : Instruction) (c : Context) (proceed : Context → Advance) : Advance :=
  match mode with
  | .execute => proceed c
  | .explore =>
    match c.visit? i.address with
    | some c => proceed c
    | none => ⟨c.close .revisit, []⟩

/-- Goes to `target` if the relation holds.  Without a relation or a target it runs on. -/
def branch (i : Instruction) (call : Bool) (relation? : Option Relation) (target? : Option UInt32)
    (c : Context) : Advance :=
  match relation?, target? with
  | some relation, some target =>
    let taken (c : Context) : Context := enter call i.next target c
    let decided (c : Context) : Advance :=
      ⟨if relation.holds c.left c.right then taken c else c.goto i.next, []⟩
    guarded mode i c fun c =>
      if mode = .execute ∨ c.comparisonKnown then decided c
      else ⟨taken c, [c.goto i.next]⟩
  | _, _ => ⟨c.goto i.next, []⟩

/-- Gives an answer to a prompt. -/
def reply (i : Instruction) (c : Context) (option : UInt8 × UInt16) : Context :=
  ({ c with answered := option.1 :: c.answered }.setVar resultVar option.2).goto i.next

/-- Asks for one of some options, each an answer and its result.  A pending answer is taken as it
is, whether offered or not; without one the branch takes the first option and forks for the rest. -/
def prompt (i : Instruction) (options : List (UInt8 × UInt16)) (c : Context) : Advance :=
  guarded mode i c fun c =>
    match c.pending with
    | answer :: later =>
      let result := ((options.find? (·.1 == answer)).map (·.2)).getD answer.toUInt16
      ⟨reply i { c with pending := later } (answer, result), []⟩
    | [] =>
      match options with
      | [] => ⟨c.goto i.next, []⟩
      | first :: rest => ⟨reply i c first, rest.map (reply i c)⟩

/-- The options of a list with `count` entries, and backing out unless that is refused. -/
def listOptions (count : Nat) (refuseBackOut : Bool) : List (UInt8 × UInt16) :=
  (List.range (min count backOut.toNat)).map (fun n => (n.toUInt8, n.toUInt16)) ++
    if refuseBackOut then [] else [(backOut, backOut.toUInt16)]

/-- The battle is won: the trainer counts as beaten and the script goes on there, if anywhere. -/
def win (flag : UInt16) (afterWin? : Option UInt32) (c : Context) : Context :=
  let c := c.setFlag flag true
  match afterWin? with
  | some a => c.goto a
  | none => c.close .finished

/-- A trainer battle at the values at hand: passed over if the trainer is beaten, refused to a party
that is too small, won otherwise. -/
def settle (i : Instruction) (flag : UInt16) (afterWin? tooFew? : Option UInt32) (c : Context) :
    Context :=
  if c.flag flag then c.goto i.next
  else
    match tooFew? with
    | some a => if I.game.partySize < 2 then c.goto a else win flag afterWin? c
    | none => win flag afterWin? c

/-- A trainer battle: exploring tries all three outcomes unless the branch itself has determined the
flag of the trainer. -/
def battle (i : Instruction) (kind : BattleKind) (c : Context) : Advance :=
  let flag := Command.trainerFlags + (i.operand 1).toUInt16
  let c := c.noteInput (.flag flag)
  let afterWin? := kind.afterWin?.map i.operand
  let tooFew? := kind.tooFew?.map i.operand
  if mode = .execute ∨ c.isDetermined (.flag flag) then ⟨I.settle i flag afterWin? tooFew? c, []⟩
  else
    guarded mode i c fun c =>
      ⟨c.goto i.next, (tooFew?.map c.goto).toList ++ [win flag afterWin? c]⟩

/-- Where the script goes on after a transfer. -/
def applyTransfer (i : Instruction) (t : Transfer) (c : Context) : Advance :=
  match t with
  | .stop => ⟨c.close .finished, []⟩
  | .ret =>
    match c.stack with
    | a :: rest => ⟨{ c with stack := rest }.goto a, []⟩
    | [] => ⟨c.close .stackUnderflow, []⟩
  | .kill => ⟨c.close .killed, []⟩
  | .jump call => guarded mode i c fun c => ⟨enter call i.next (i.operand 0) c, []⟩
  | .branch call =>
    branch mode i call (Relation.ofByte? (i.operand 0).toUInt8) (some (i.operand 1)) c
  | .standard call =>
    match I.game.standardScript? (i.operand 0).toUInt8 with
    | some target => guarded mode i c fun c => ⟨enter call i.next target c, []⟩
    | none => ⟨c.goto i.next, []⟩
  | .standardBranch call =>
    branch mode i call (Relation.ofByte? (i.operand 0).toUInt8)
      (I.game.standardScript? (i.operand 1).toUInt8) c
  | .yesNo => prompt mode i [(0, 1), (1, 0)] c
  | .choice =>
    let count := (I.game.optionCount? (i.operand 2).toUInt8).getD 2
    prompt mode i (listOptions count (i.operands.getLast?.getD 0 != 0)) c
  | .battle => I.battle mode i (.ofByte (i.operand 0).toUInt8) c

/-! ### Instructions -/

/-- Carries out an instruction. -/
def perform (i : Instruction) (c : Context) : Except Fault Advance :=
  match i.command.action with
  | .inert => .ok ⟨c.goto i.next, []⟩
  | .effect e =>
    match I.applyEffect mode i e c with
    | .ok c => .ok ⟨c.goto i.next, []⟩
    | .error f => .error f
  | .transfer t => .ok (I.applyTransfer mode i t c)

/-- Decodes, notes and carries out the instruction that a context is about to run. -/
def step (c : Context) : Except Fault Advance :=
  match Instruction.decode I.memory c.pc with
  | .ok i => I.perform mode i { c with history := i.address :: c.history }
  | .error e => .error ⟨.decode e, c⟩

/-- One instruction at the values at hand; a context that is over stays as it is. -/
def stepOnce (c : Context) : Except Fault Advance :=
  if c.isDone then .ok ⟨c, []⟩ else I.step .execute c

end Interpreter

end Cartridge
