import Cartridge.Script.Action
import Cartridge.Script.Operand

/-!
# Command — the table of script commands

One row per opcode that scripts may use: its title, its print template, the formats of its operands,
what it does, and which operand its listing shows in quotes.  `Command.ofOpcode?` is the table seen
from an opcode; opcodes without a row are not part of the instruction set.
-/

namespace Cartridge

/-- Which operand a listing shows resolved, in quotes. -/
inductive Quotation where
  /-- None: the print template says all. -/
  | plain
  /-- The text at the address in operand 0, unless that is zero. -/
  | quoteFirst
  /-- Operand 0 as it stands, then the text at the address in operand 1. -/
  | quoteSecond
  /-- The name of the move in operand 0. -/
  | quoteMove
deriving DecidableEq

/-- A row of the command table. -/
structure Command where
  opcode : UInt8
  title : String
  template : String
  operands : List Operand
  action : Action
  quotation : Quotation
deriving DecidableEq

namespace Command

/-- The flags of beaten trainers start here. -/
def trainerFlags : UInt16 := 0x500

/-- The operands of a warp: bank, map, arrival point and two coordinates. -/
def warpOperands : List Operand :=
  [.byte, .byte, .byte, .byteOrVar, .byteOrVar]

/-- Every command of the instruction set, by opcode. -/
def all : List Command :=
  [⟨0x00, "Nop", "nop", [], .inert, .plain⟩,
   ⟨0x01, "Nop1", "nop1", [], .inert, .plain⟩,
   ⟨0x02, "End", "end", [], (.transfer .stop), .plain⟩,
   ⟨0x03, "Return", "return", [], (.transfer .ret), .plain⟩,
   ⟨0x04, "Call", "call 0x%08x", [.pointer], (.transfer (.jump true)), .plain⟩,
   ⟨0x05, "Goto", "goto 0x%08x", [.pointer], (.transfer (.jump false)), .plain⟩,
   ⟨0x06, "If1", "if1 %#x 0x%08x", [.byte, .pointer], (.transfer (.branch false)), .plain⟩,
   ⟨0x07, "If2", "if2 %#x 0x%08x", [.byte, .pointer], (.transfer (.branch true)), .plain⟩,
   ⟨0x08, "GotoStd", "gotostd %#x", [.byte], (.transfer (.standard false)), .plain⟩,
   ⟨0x09, "CallStd", "callstd %#x", [.byte], (.transfer (.standard true)), .plain⟩,
   ⟨0x0A, "GotoStdIf", "gotostdif %#x %#x", [.byte, .byte],
     (.transfer (.standardBranch false)), .plain⟩,
   ⟨0x0B, "CallStdIf", "callstdif %#x %#x", [.byte, .byte],
     (.transfer (.standardBranch true)), .plain⟩,
   ⟨0x0C, "JumpRam", "jumpram", [], (.transfer .kill), .plain⟩,
   ⟨0x0D, "KillScript", "killscript", [], (.transfer .kill), .plain⟩,
   ⟨0x0E, "SetByte", "setbyte %#x", [.byte], .inert, .plain⟩,
   ⟨0x0F, "LoadPointer", "loadpointer %d %#x", [.bank, .dword],
     (.effect .loadBank), .quoteSecond⟩,
   ⟨0x10, "SetByte2", "setbyte2 %d %#x", [.bank, .byte], (.effect .loadBank), .plain⟩,
   ⟨0x11, "WriteByteToOffset", "writebytetooffset %#x 0x%08x", [.byte, .pointer],
     .inert, .plain⟩,
   ⟨0x12, "LoadByteFromPointer", "loadbytefrompointer %d 0x%08x", [.bank, .pointer],
     (.effect .loadFarByte), .plain⟩,
   ⟨0x13, "SetFarByte", "setfarbyte %d 0x%08x", [.bank, .pointer], (.effect .readBank), .plain⟩,
   ⟨0x14, "CopyScriptBanks", "copyscriptbanks %d %d", [.bank, .bank],
     (.effect .copyBank), .plain⟩,
   ⟨0x15, "CopyByte", "copybyte 0x%08x 0x%08x", [.pointer, .pointer], .inert, .plain⟩,
   ⟨0x16, "SetVar", "setvar %#x %#x", [.var, .word], (.effect .assign), .plain⟩,
   ⟨0x17, "AddVar", "addvar %#x %#x", [.var, .word], (.effect .add), .plain⟩,
   ⟨0x18, "SubVar", "subvar %#x %#x", [.var, .wordOrVar], (.effect .subtract), .plain⟩,
   ⟨0x19, "CopyVar", "copyvar %#x %#x", [.var, .var], (.effect .copy), .plain⟩,
   ⟨0x1A, "CopyVarIfNotZero", "copyvarifnotzero %#x %#x", [.var, .wordOrVar],
     (.effect .copyResolved), .plain⟩,
   ⟨0x1B, "CompareBanks", "comparebanks %d %d", [.bank, .bank],
     (.effect (.compare (.bank 0) (.bank 1))), .plain⟩,
   ⟨0x1C, "CompareBankToByte", "comparebanktobyte %d %#x", [.bank, .byte],
     (.effect (.compare (.bankByte 0) (.literal 1))), .plain⟩,
   ⟨0x1D, "CompareBankToFarByte", "comparebanktofarbyte %d 0x%08x", [.bank, .pointer],
     (.effect (.compare (.bankByte 0) (.farByte 1))), .plain⟩,
   ⟨0x1E, "CompareFarByteToBank", "comparefarbytetobank 0x%08x %d", [.pointer, .bank],
     (.effect (.compare (.farByte 0) (.bankByte 1))), .plain⟩,
   ⟨0x1F, "CompareFarByteToByte", "comparefarbytetobyte 0x%08x %#x", [.pointer, .byte],
     (.effect (.compare (.farByte 0) (.literal 1))), .plain⟩,
   ⟨0x20, "CompareFarBytes", "comparefarbytes 0x%08x 0x%08x", [.pointer, .pointer],
     (.effect (.compare (.farByte 0) (.farByte 1))), .plain⟩,
   ⟨0x21, "Compare", "compare %#x %#x", [.var, .word],
     (.effect (.compare (.var 0) (.literal 1))), .plain⟩,
   ⟨0x22, "CompareVars", "comparevars %#x %#x", [.var, .var],
     (.effect (.compare (.var 0) (.var 1))), .plain⟩,
   ⟨0x23, "CallAsm", "callasm 0x%08x", [.pointer], .inert, .plain⟩,
   ⟨0x24, "Cmd24", "cmd24 0x%08x", [.pointer], .inert, .plain⟩,
   ⟨0x25, "Special", "special %#x", [.word], (.effect .special), .plain⟩,
   ⟨0x26, "Special2", "special2 %#x %#x", [.var, .word], (.effect .specialInto), .plain⟩,
   ⟨0x27, "WaitState", "waitstate", [], .inert, .plain⟩,
   ⟨0x28, "Pause", "pause %#x", [.word], .inert, .plain⟩,
   ⟨0x29, "SetFlag", "setflag %#x", [.flagOrVar], (.effect (.assignFlag 0 true)), .plain⟩,
   ⟨0x2A, "ClearFlag", "clearflag %#x", [.flagOrVar], (.effect (.assignFlag 0 false)), .plain⟩,
   ⟨0x2B, "CheckFlag", "checkflag %#x", [.flagOrVar], (.effect (.testFlag 0)), .plain⟩,
   ⟨0x2C, "Cmd2C", "cmd2c", [], .inert, .plain⟩,
   ⟨0x2D, "CheckDailyFlags", "checkdailyflags", [], .inert, .plain⟩,
   ⟨0x2E, "ResetVars", "resetvars", [], (.effect .resetTemporaries), .plain⟩,
   ⟨0x2F, "Sound", "sound %#x", [.word], .inert, .plain⟩,
   ⟨0x30, "CheckSound", "checksound", [], .inert, .plain⟩,
   ⟨0x31, "Fanfare", "fanfare %#x", [.wordOrVar], .inert, .plain⟩,
   ⟨0x32, "WaitFanfare", "waitfanfare", [], .inert, .plain⟩,
   ⟨0x33, "PlaySong", "playsong %#x %#x", [.word, .byte], .inert, .plain⟩,
   ⟨0x34, "PlaySong2", "playsong2 %#x", [.word], .inert, .plain⟩,
   ⟨0x35, "FadeDefault", "fadedefault", [], .inert, .plain⟩,
   ⟨0x36, "FadeSong", "fadesong %#x", [.word], .inert, .plain⟩,
   ⟨0x37, "FadeOut", "fadeout %#x", [.byte], .inert, .plain⟩,
   ⟨0x38, "FadeIn", "fadein %#x", [.byte], .inert, .plain⟩,
   ⟨0x39, "Warp", "warp (bank=%d,map=%d) warp#%d (x=%d,y=%d)", warpOperands,
     (.effect .warp), .plain⟩,
   ⟨0x3A, "WarpMuted", "warpmuted (bank=%d,map=%d) warp#%d (x=%d,y=%d)", warpOperands,
     (.effect .warp), .plain⟩,
   ⟨0x3B, "WarpWalk", "warpwalk (bank=%d,map=%d) warp#%d (x=%d,y=%d)", warpOperands,
     (.effect .warp), .plain⟩,
   ⟨0x3C, "WarpHole", "warphole %#x %#x", [.byte, .byte], (.effect .warp), .plain⟩,
   ⟨0x3D, "WarpTeleport", "warpteleport (bank=%d,map=%d) warp#%d (x=%d,y=%d)", warpOperands,
     (.effect .warp), .plain⟩,
   ⟨0x3E, "Warp3", "warp3 (bank=%d,map=%d) warp#%d (x=%d,y=%d)", warpOperands,
     (.effect .warp), .plain⟩,
   ⟨0x3F, "SetWarpPlace", "setwarpplace %#x %#x %#x %#x %#x", [.byte, .byte, .byte, .word, .word],
     .inert, .plain⟩,
   ⟨0x40, "Warp4", "warp4 (bank=%d,map=%d) warp#%d (x=%d,y=%d)", warpOperands,
     (.effect .warp), .plain⟩,
   ⟨0x41, "Warp5", "warp5 (bank=%d,map=%d) warp#%d (x=%d,y=%d)", warpOperands,
     (.effect .warp), .plain⟩,
   ⟨0x42, "GetPlayerPos", "getplayerpos %#x %#x", [.var, .var],
     (.effect .playerPosition), .plain⟩,
   ⟨0x43, "CountPokemon", "countpokemon", [], (.effect .countParty), .plain⟩,
   ⟨0x44, "AddItem", "additem %#x %#x", [.wordOrVar, .byteOrVar], (.effect .moveItem), .plain⟩,
   ⟨0x45, "RemoveItem", "removeitem %#x %#x", [.wordOrVar, .byteOrVar],
     (.effect .moveItem), .plain⟩,
   ⟨0x46, "CheckItemRoom", "checkitemroom %#x %#x", [.wordOrVar, .byteOrVar],
     (.effect (.answer 1)), .plain⟩,
   ⟨0x47, "CheckItem", "checkitem %#x %#x", [.wordOrVar, .byteOrVar],
     (.effect .ownsItem), .plain⟩,
   ⟨0x48, "CheckItemType", "checkitemtype %#x", [.wordOrVar], (.effect (.answer 1)), .plain⟩,
   ⟨0x49, "AddPcItem", "addpcitem %#x %#x", [.wordOrVar, .wordOrVar],
     (.effect (.answer 1)), .plain⟩,
   ⟨0x4A, "CheckPcItem", "checkpcitem %#x %#x", [.wordOrVar, .wordOrVar],
     (.effect (.answer 0)), .plain⟩,
   ⟨0x4B, "AddDecoration", "adddecoration %#x", [.wordOrVar], (.effect (.answer 1)), .plain⟩,
   ⟨0x4C, "RemoveDecoration", "removedecoration %#x", [.wordOrVar],
     (.effect (.answer 1)), .plain⟩,
   ⟨0x4D, "TestDecoration", "testdecoration %#x", [.wordOrVar], (.effect (.answer 1)), .plain⟩,
   ⟨0x4E, "CheckDecoration", "checkdecoration %#x", [.wordOrVar],
     (.effect (.answer 0)), .plain⟩,
   ⟨0x4F, "ApplyMovement", "applymovement %#x 0x%08x", [.byteOrVar, .pointer], .inert, .plain⟩,
   ⟨0x50, "ApplyMovementPos", "applymovementpos %#x 0x%08x", [.word, .pointer], .inert, .plain⟩,
   ⟨0x51, "WaitMovement", "waitmovement %#x", [.byteOrVar], .inert, .plain⟩,
   ⟨0x52, "WaitMovementPos", "waitmovementpos %#x %#x %#x", [.byteOrVar, .byte, .byte],
     .inert, .plain⟩,
   ⟨0x53, "HideSprite", "hidesprite %#x", [.byteOrVar], (.effect .hidePerson), .plain⟩,
   ⟨0x54, "HideSpritePos", "hidespritepos %#x %#x %#x", [.byteOrVar, .byte, .byte],
     (.effect .hidePersonOn), .plain⟩,
   ⟨0x55, "ShowSprite", "showsprite %#x", [.byteOrVar], .inert, .plain⟩,
   ⟨0x56, "ShowSpritePos", "showspritepos %#x %#x %#x", [.byteOrVar, .byte, .byte],
     .inert, .plain⟩,
   ⟨0x5A, "FacePlayer", "faceplayer", [], .inert, .plain⟩,
   ⟨0x5C, "TrainerBattle", "trainerbattle", [.byte, .word, .word, .pointer, .pointer],
     (.transfer .battle), .plain⟩,
   ⟨0x5D, "RepeatTrainerBattle", "repeattrainerbattle", [], .inert, .plain⟩,
   ⟨0x60, "CheckTrainerFlag", "checktrainerflag %#x", [.wordOrVar],
     (.effect (.testFlag trainerFlags)), .plain⟩,
   ⟨0x61, "ClearTrainerFlag", "cleartrainerflag %#x", [.wordOrVar],
     (.effect (.assignFlag trainerFlags false)), .plain⟩,
   ⟨0x62, "SetTrainerFlag", "settrainerflag %#x", [.wordOrVar],
     (.effect (.assignFlag trainerFlags true)), .plain⟩,
   ⟨0x63, "MoveSprite2", "movesprite2 %d %d %d", [.word, .word, .word], .inert, .plain⟩,
   ⟨0x64, "MoveOffscreen", "moveoffscreen %#x", [.word], .inert, .plain⟩,
   ⟨0x65, "SpriteBehave", "spritebehave %d %d", [.word, .byte], .inert, .plain⟩,
   ⟨0x66, "WaitMsg", "waitmsg", [], .inert, .plain⟩,
   ⟨0x67, "PrepareMsg", "preparemsg %#x", [.pointerOrFirstBank], .inert, .quoteFirst⟩,
   ⟨0x68, "CloseOnKeypress", "closeonkeypress", [], .inert, .plain⟩,
   ⟨0x69, "LockAll", "lockall", [], .inert, .plain⟩,
   ⟨0x6A, "Lock", "lock", [], .inert, .plain⟩,
   ⟨0x6B, "ReleaseAll", "releaseall", [], .inert, .plain⟩,
   ⟨0x6C, "Release", "release", [], .inert, .plain⟩,
   ⟨0x6D, "WaitKeypress", "waitkeypress", [], .inert, .plain⟩,
   ⟨0x6E, "YesNoBox", "yesnobox %#x %#x", [.byte, .byte], (.transfer .yesNo), .plain⟩,
   ⟨0x6F, "Multichoice", "multichoice %#x %#x %#x %#x", [.byte, .byte, .byte, .byte],
     (.transfer .choice), .plain⟩,
   ⟨0x70, "Multichoice2", "multichoice2 %#x %#x %#x %#x %#x", [.byte, .byte, .byte, .byte, .byte],
     (.transfer .choice), .plain⟩,
   ⟨0x71, "Multichoice3", "multichoice3 %#x %#x %#x %#x %#x", [.byte, .byte, .byte, .byte, .byte],
     (.transfer .choice), .plain⟩,
   ⟨0x75, "ShowPokePic", "showpokepic %#x %#x %#x", [.wordOrVar, .byte, .byte], .inert, .plain⟩,
   ⟨0x76, "HidePokePic", "hidepokepic", [], .inert, .plain⟩,
   ⟨0x77, "ShowContestWinner", "showcontestwinner %#x", [.byte], .inert, .plain⟩,
   ⟨0x78, "Braille", "braille %#x", [.pointerOrFirstBank], .inert, .plain⟩,
   ⟨0x79, "GivePokemon", "givepokemon %#x %#x %#x %#x %#x %#x",
     [.wordOrVar, .byte, .word, .dword, .dword, .byte], (.effect .receive), .plain⟩,
   ⟨0x7C, "CheckAttack", "checkattack %#x", [.word], (.effect .findMove), .quoteMove⟩,
   ⟨0x7D, "BufferPokemon", "bufferpokemon %d %#x", [.buffer, .wordOrVar], .inert, .plain⟩,
   ⟨0x7E, "BufferFirstPokemon", "bufferfirstpokemon %d", [.buffer], .inert, .plain⟩,
   ⟨0x7F, "BufferPartyPokemon", "bufferpartypokemon %d %#x", [.buffer, .wordOrVar],
     .inert, .plain⟩,
   ⟨0x80, "BufferItem", "bufferitem %d %#x", [.buffer, .wordOrVar], .inert, .plain⟩,
   ⟨0x81, "BufferDecoration", "bufferdecoration %#x", [.wordOrVar], .inert, .plain⟩,
   ⟨0x82, "BufferAttack", "bufferattack %d %#x", [.buffer, .wordOrVar], .inert, .plain⟩,
   ⟨0x83, "BufferNumber", "buffernumber %d %#x", [.buffer, .wordOrVar], .inert, .plain⟩,
   ⟨0x84, "BufferStd", "bufferstd %d %#x", [.buffer, .wordOrVar], .inert, .plain⟩,
   ⟨0x85, "BufferString", "bufferstring %d 0x%08x", [.buffer, .pointer], .inert, .quoteSecond⟩,
   ⟨0x86, "PokeMart", "pokemart 0x%08x", [.pointer], .inert, .plain⟩,
   ⟨0x87, "PokeMart2", "pokemart2 0x%08x", [.pointer], .inert, .plain⟩,
   ⟨0x88, "PokeMart3", "pokemart3 0x%08x", [.pointer], .inert, .plain⟩,
   ⟨0x8A, "Cmd8A", "cmd8a", [], .inert, .plain⟩,
   ⟨0x8B, "ChooseContestPkmn", "choosecontestpkmn", [], .inert, .plain⟩,
   ⟨0x8C, "StartContest", "startcontest", [], .inert, .plain⟩,
   ⟨0x8D, "ShowContestResults", "showcontestresults", [], .inert, .plain⟩,
   ⟨0x8E, "ContestLinkTransfer", "contestlinktransfer", [], .inert, .plain⟩,
   ⟨0x8F, "Random", "random %#x", [.wordOrVar], (.effect .random), .plain⟩,
   ⟨0x90, "GiveMoney", "givemoney %#x %#x", [.dword, .byte], (.effect .moveMoney), .plain⟩,
   ⟨0x91, "PayMoney", "paymoney %#x %#x", [.dword, .byte], (.effect .moveMoney), .plain⟩,
   ⟨0x92, "CheckMoney", "checkmoney %#x %#x", [.dword, .byte], (.effect .ownsMoney), .plain⟩,
   ⟨0x93, "ShowMoney", "showmoney %#x %#x", [.byte, .byte], .inert, .plain⟩,
   ⟨0x94, "HideMoney", "hidemoney %#x %#x", [.byte, .byte], .inert, .plain⟩,
   ⟨0x95, "UpdateMoney", "updatemoney %#x %#x", [.byte, .byte], .inert, .plain⟩,
   ⟨0x96, "Cmd96", "cmd96", [], .inert, .plain⟩,
   ⟨0x97, "FadeScreen", "fadescreen %#x", [.byte], .inert, .plain⟩,
   ⟨0x9C, "DoAnimation", "doanimation %#x", [.word], .inert, .plain⟩,
   ⟨0x9D, "SetAnimation", "setanimation %#x %#x", [.byte, .wordOrVar], .inert, .plain⟩,
   ⟨0x9E, "CheckAnimation", "checkanimation %#x", [.word], .inert, .plain⟩,
   ⟨0x9F, "SetHealingPlace", "sethealingplace %#x", [.word], .inert, .plain⟩,
   ⟨0xA0, "CheckGender", "checkgender", [], (.effect .gender), .plain⟩,
   ⟨0xA1, "Cry", "cry %#x %#x", [.wordOrVar, .word], .inert, .plain⟩,
   ⟨0xA2, "SetMapTile", "setmaptile %#x %#x %#x %#x", [.word, .word, .word, .word],
     .inert, .plain⟩,
   ⟨0xA3, "ResetWeather", "resetweather", [], .inert, .plain⟩,
   ⟨0xA4, "SetWeather", "setweather %#x", [.word], .inert, .plain⟩,
   ⟨0xA5, "DoWeather", "doweather", [], .inert, .plain⟩,
   ⟨0xA6, "CmdA6", "cmda6 %#x", [.byte], .inert, .plain⟩,
   ⟨0xAC, "SetDoorOpened", "setdooropened %#x %#x", [.word, .word], .inert, .plain⟩,
   ⟨0xAD, "SetDoorClosed", "setdoorclosed %#x %#x", [.word, .word], .inert, .plain⟩,
   ⟨0xAE, "DoorChange", "doorchange", [], .inert, .plain⟩,
   ⟨0xAF, "SetDoorOpened2", "setdooropened2 %#x %#x", [.word, .word], .inert, .plain⟩,
   ⟨0xB0, "SetDoorClosed2", "setdoorclosed2 %#x %#x", [.word, .word], .inert, .plain⟩,
   ⟨0xB1, "CmdB1", "cmdb1", [], .inert, .plain⟩,
   ⟨0xB2, "CmdB2", "cmdb2", [], .inert, .plain⟩,
   ⟨0xB6, "SetWildBattle", "setwildbattle %#x %#x %#x", [.word, .byte, .word], .inert, .plain⟩,
   ⟨0xB7, "DoWildBattle", "dowildbattle", [], .inert, .plain⟩,
   ⟨0xC0, "ShowCoins", "showcoins %#x %#x", [.byte, .byte], .inert, .plain⟩,
   ⟨0xC1, "HideCoins", "hidecoins", [], .inert, .plain⟩,
   ⟨0xC2, "UpdateCoins", "updatecoins %#x %#x", [.byte, .byte], .inert, .plain⟩,
   ⟨0xC3, "CmdC3", "cmdc3 %d", [.hidden], .inert, .plain⟩,
   ⟨0xC4, "Warp6", "warp6", [], .inert, .plain⟩,
   ⟨0xC5, "WaitCry", "waitcry", [], .inert, .plain⟩,
   ⟨0xC6, "BufferBoxName", "bufferboxname %d %#x", [.buffer, .wordOrVar], .inert, .plain⟩,
   ⟨0xC7, "TextColor", "textcolor %#x", [.byte], .inert, .plain⟩,
   ⟨0xC8, "CmdC8", "cmdc8 %#x", [.pointerOrFirstBank], .inert, .plain⟩,
   ⟨0xC9, "CmdC9", "cmdc9", [], .inert, .plain⟩,
   ⟨0xCA, "SignMsg", "signmsg", [], .inert, .plain⟩,
   ⟨0xCB, "NormalMsg", "normalmsg", [], .inert, .plain⟩,
   ⟨0xCC, "CompareHiddenVar", "comparehiddenvar %d %#x", [.hidden, .dword],
     (.effect (.compare .unknown (.literal 1))), .plain⟩,
   ⟨0xCD, "SetObedience", "setobedience %#x", [.word], .inert, .plain⟩,
   ⟨0xCE, "CheckObedience", "checkobedience %#x", [.wordOrVar], (.effect (.answer 0)), .plain⟩,
   ⟨0xCF, "ExecuteRam", "executeram", [], (.transfer .kill), .plain⟩,
   ⟨0xD0, "SetWorldMapFlag", "setworldmapflag %#x", [.flagOrVar],
     (.effect (.assignFlag 0 true)), .plain⟩,
   ⟨0xD1, "WarpTeleport2", "warpteleport2", [], .inert, .plain⟩,
   ⟨0xD2, "SetCatchLocation", "setcatchlocation %#x %#x", [.wordOrVar, .byte], .inert, .plain⟩,
   ⟨0xD3, "Braille2", "braille2 %#x", [.pointerOrFirstBank], .inert, .plain⟩,
   ⟨0xD4, "BufferItems", "bufferitems %d %#x %#x", [.buffer, .wordOrVar, .wordOrVar],
     .inert, .plain⟩,
   ⟨0xD5, "CmdD5", "cmdd5", [], .inert, .plain⟩
  ]

/-- The row of every opcode. -/
def byOpcode : Vector (Option Command) 256 :=
  Vector.ofFn fun opcode => all.find? (·.opcode.toNat == opcode.val)

/-- The row of an opcode, if the instruction set has one. -/
def ofOpcode? (opcode : UInt8) : Option Command :=
  byOpcode.get ⟨opcode.toNat, UInt8.toNat_lt opcode⟩

/-- The first word of the print template. -/
def mnemonic (c : Command) : String :=
  String.ofList (c.template.toList.takeWhile (· ≠ ' '))

/-- The number of bytes of an instruction with this command and its own operand formats. -/
def size (c : Command) : Nat :=
  c.operands.foldr (fun f total => f.size + total) 1

end Command

end Cartridge
