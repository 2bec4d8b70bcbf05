/-!
# Action — what a script command does when it runs

Most commands only drive the screen and the sound and are `inert` here.  An `Effect` changes the
script's state and runs on into the next command; a `Transfer` decides where the script goes on.
Numbers in a constructor's description count operands from zero.
-/

namespace Cartridge

/-- A side of a comparison; the number says which operand it comes from. -/
inductive Comparand where
  /-- The operand itself. -/
  | literal (operand : Nat)
  /-- All bits of the bank that the operand names. -/
  | bank (operand : Nat)
  /-- The low byte of the bank that the operand names. -/
  | bankByte (operand : Nat)
  /-- The byte at the address in the operand. -/
  | farByte (operand : Nat)
  /-- The variable that the operand names. -/
  | var (operand : Nat)
  /-- A value the script cannot know. -/
  | unknown
deriving DecidableEq

/-- A change of the script's state that runs on into the next command. -/
inductive Effect where
  /-- Bank 0 takes operand 1. -/
  | loadBank
  /-- Bank 0 takes the byte at the address in operand 1. -/
  | loadFarByte
  /-- Looks at bank 0. -/
  | readBank
  /-- Bank 0 takes the value of bank 1. -/
  | copyBank
  /-- Variable 0 takes operand 1. -/
  | assign
  | add
  | subtract
  /-- Variable 0 takes the value of variable 1. -/
  | copy
  /-- Variable 0 takes operand 1, or the value of the variable it names. -/
  | copyResolved
  | compare (left right : Comparand)
  /-- Calls native routine 0. -/
  | special
  /-- Calls native routine 1, whose answer goes to variable 0. -/
  | specialInto
  /-- The flag that operand 0 names, counted from `base`, takes a value. -/
  | assignFlag (base : UInt16) (value : Bool)
  /-- Compares the flag that operand 0 names, counted from `base`, with one. -/
  | testFlag (base : UInt16)
  | resetTemporaries
  /-- Leads to map 1 of bank 0. -/
  | warp
  /-- Variables 0 and 1 take the player's coordinates. -/
  | playerPosition
  | countParty
  /-- Gives or takes item 0. -/
  | moveItem
  /-- Whether the bag holds operand 1 of item 0. -/
  | ownsItem
  /-- Looks at operand 0 and answers a fixed value. -/
  | answer (value : UInt16)
  /-- Hands species 0 to the player. -/
  | receive
  /-- The party slot that knows move 0. -/
  | findMove
  | gender
  /-- A number below operand 0. -/
  | random
  | moveMoney
  /-- Whether the player has as much money as operand 0. -/
  | ownsMoney
  /-- Hides person 0 of the map the script runs on. -/
  | hidePerson
  /-- Hides person 0 of map 2 in bank 1. -/
  | hidePersonOn
deriving DecidableEq

/-- A decision where the script goes on. -/
inductive Transfer where
  /-- Ends the script. -/
  | stop
  /-- Goes on after the call that was taken last. -/
  | ret
  /-- Hands over to code outside the script. -/
  | kill
  /-- Goes to the address in operand 0. -/
  | jump (call : Bool)
  /-- Goes to the address in operand 1 if relation 0 holds. -/
  | branch (call : Bool)
  /-- Goes to standard script 0. -/
  | standard (call : Bool)
  /-- Goes to standard script 1 if relation 0 holds. -/
  | standardBranch (call : Bool)
  | yesNo
  /-- Offers option list 2; the last operand says whether backing out is refused. -/
  | choice
  | battle
deriving DecidableEq

/-- What a command does. -/
inductive Action where
  | inert
  | effect (e : Effect)
  | transfer (t : Transfer)
deriving DecidableEq

end Cartridge
