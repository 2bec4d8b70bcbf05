import Cartridge.Script.Operand

/-!
# Battle — the variants of a trainer battle

The byte after the opcode picks the variant, and the variant picks the operands that follow: the
variant itself, the trainer, the person, and pointers to texts and scripts.
-/

namespace Cartridge

/-- A variant of the trainer battle command. -/
inductive BattleKind where
  | single
  | continueScriptNoMusic
  | continueScript
  | singleNoIntroText
  | double
  | rematch
  | continueScriptDouble
  | rematchDouble
  | continueScriptDoubleNoMusic
  | earlyRival
deriving DecidableEq

namespace BattleKind

/-- The variant a byte picks; bytes without one of their own pick `single`. -/
def ofByte (byte : UInt8) : BattleKind :=
  [single, continueScriptNoMusic, continueScript, singleNoIntroText, double, rematch,
    continueScriptDouble, rematchDouble, continueScriptDoubleNoMusic,
    earlyRival][byte.toNat]?.getD single

/-- The number of pointers after the variant, the trainer and the person. -/
def pointers : BattleKind → Nat
  | singleNoIntroText => 1
  | single | rematch | earlyRival => 2
  | continueScriptNoMusic | continueScript | double | rematchDouble => 3
  | continueScriptDouble | continueScriptDoubleNoMusic => 4

/-- The operands of the variant. -/
def operands (k : BattleKind) : List Operand :=
  [.byte, .word, .word] ++ List.replicate k.pointers .pointer

/-- Which operand points to the script that runs after a win. -/
def afterWin? : BattleKind → Option Nat
  | continueScriptNoMusic | continueScript => some 5
  | continueScriptDouble | continueScriptDoubleNoMusic => some 6
  | _ => none

/-- Which operand points to the script that runs when the party is too small for a double battle. -/
def tooFew? : BattleKind → Option Nat
  | double | rematchDouble | continueScriptDouble | continueScriptDoubleNoMusic => some 5
  | _ => none

end BattleKind

end Cartridge
