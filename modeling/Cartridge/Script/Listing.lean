import Cartridge.Script.Instruction

/-!
# Listing — the blocks of a script and their print

A block is a straight run of instructions up to one that ends or returns, or up to bytes that decode
to nothing.  `Listing.blocks` collects the blocks that jumps and calls lead to, breadth first; a
target inside a known block starts no block of its own.
-/

namespace Cartridge

/-- A straight run of instructions, with the error that ended it if one did. -/
structure Block where
  start : UInt32
  instructions : List Instruction
  error? : Option DecodeError
deriving DecidableEq

namespace Block

/-- The address after the last instruction. -/
def finish (b : Block) : UInt32 :=
  (b.instructions.getLast?.map (·.next)).getD b.start

/-- Whether the address lies between the block's first and last byte. -/
def contains (b : Block) (a : UInt32) : Bool :=
  b.start ≤ a && a < b.finish

/-- Whether an instruction is the last of its block. -/
def isLast (i : Instruction) : Bool :=
  i.command.action = .transfer .stop || i.command.action = .transfer .ret

/-- The instructions from `a` on, behind those decoded so far. -/
def collect (m : Memory) (soFar : List Instruction) :
    (fuel : Nat) → UInt32 → List Instruction × Option DecodeError
  | 0, _ => (soFar.reverse, none)
  | fuel + 1, a =>
    match Instruction.decode m a with
    | .error e => (soFar.reverse, some e)
    | .ok i =>
      if isLast i then ((i :: soFar).reverse, none)
      else collect m (i :: soFar) fuel i.next

/-- The block that starts at an address.  A run decodes each mapped byte at most once as an opcode,
so one step more than there are mapped bytes is enough. -/
def decode (m : Memory) (start : UInt32) : Block :=
  let (instructions, error?) := collect m [] (m.mappedBytes + 1) start
  { start, instructions, error? }

end Block

namespace Listing

/-- Whether a block already answers for the address. -/
def covered (known : List Block) (a : UInt32) : Bool :=
  known.any fun b => b.contains a || b.start == a

/-- The queue after the targets of a block that no block holds and that do not wait yet. -/
def enqueueTargets (known : List Block) (b : Block) (waiting : List UInt32) : List UInt32 :=
  b.instructions.foldl (fun waiting i =>
    match i.target? with
    | none => waiting
    | some a =>
      if known.any (·.contains a) || b.contains a || waiting.contains a then waiting
      else waiting ++ [a]) waiting

/-- Blocks for the waiting addresses, newest first, in front of the known ones. -/
def flood (m : Memory) : (fuel : Nat) → List UInt32 → List Block → List Block
  | 0, _, known => known
  | _, [], known => known
  | fuel + 1, a :: waiting, known =>
    if covered known a then flood m fuel waiting known
    else
      let b := Block.decode m a
      flood m fuel (enqueueTargets known b waiting) (b :: known)

/-- The blocks reachable from `start`, in the order they are found.  A block that decodes anything
starts at a mapped byte of its own and waits for at most one target per instruction, which bounds
the addresses that ever wait. -/
def blocks (m : Memory) (start : UInt32) : List Block :=
  (flood m ((m.mappedBytes + 1) * (m.mappedBytes + 1) + 1) [start] []).reverse

/-- One printed line: a full address opens a block, later lines show its last byte. -/
def line (m : Memory) (moveName? : UInt16 → Option String) (b : Block) (i : Instruction) : String :=
  (if i.address = b.start then addressText i.address ++ ": "
   else "        " ++ hexPadded 2 (i.address &&& 0xFF).toNat ++ ": ") ++
    i.listing m moveName? ++ "\n"

/-- The lines of a block and its error. -/
def printBlock (m : Memory) (moveName? : UInt16 → Option String) (b : Block) : String :=
  String.join (b.instructions.map (line m moveName? b)) ++
    match b.error? with
    | some e => "Error: " ++ e.message ++ "\n"
    | none => ""

/-- The listing of all blocks from `start`, with a blank line between blocks. -/
def print (m : Memory) (moveName? : UInt16 → Option String) (start : UInt32) : String :=
  "\n".intercalate ((blocks m start).map (printBlock m moveName?))

end Listing

end Cartridge
