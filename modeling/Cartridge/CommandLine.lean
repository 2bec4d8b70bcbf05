import Cartridge.Diagnostic
import Cartridge.File.Error
import Cartridge.Game.Live
import Cartridge.Script.Listing
import Cartridge.Script.Run
import Cartridge.Settings.Document

/-!
# CommandLine — listing and exploring a script of a cartridge

The program takes a cartridge and an address, prints the script there and, if asked to, what every
way through it reads and writes.  `CommandLine.run` is the whole program, given a way to read files.
-/

namespace Cartridge

/-- What the program prints and the code it ends with. -/
structure Report where
  stdout : String := ""
  stderr : String := ""
  code : Nat := 0
deriving DecidableEq

namespace CommandLine

/-- How the program is to be used. -/
def usage (program : String) : String :=
  "pokebot - script disassembler and explorer for GBA Pokémon ROMs\n\n" ++
    "Usage: " ++ program ++ " <rom.gba> <address> [--explore] [--config file.toml]\n" ++
    "Examples:\n" ++
    "  " ++ program ++ " firered.gba 0x081A8CED\n" ++
    "  " ++ program ++ " firered.gba 0x081A8CED --explore\n"

/-- Drops a mark as often as it stands in front. -/
def dropMarks (mark : Char) : List Char → List Char
  | '0' :: c :: rest => if c = mark then dropMarks mark rest else '0' :: c :: rest
  | cs => cs

/-- An address in hexadecimal, with or without its mark. -/
def parseAddress? (text : String) : Option UInt32 := do
  let cs := dropMarks 'X' (dropMarks 'x' text.toList)
  let digits := if cs.head? = some '+' then cs.drop 1 else cs
  let value ← digitsValue? 16 digits
  if value < UInt32.size then some value.toUInt32 else none

/-- What the options ask for. -/
structure Options where
  explore : Bool := false
  settings : Settings := {}

/-- An error that ends the program, in structured form. -/
def failed (diagnostic : String) (stdout : String := "") : Report :=
  { stdout, stderr := "Error: " ++ diagnostic ++ "\n", code := 1 }

/-- The settings in a file. -/
def settingsOf (contents : Except FileError ByteArray) : Except Report Settings :=
  match contents with
  | .error e => .error (failed (Diagnostic.nested "Io" e.diagnostic))
  | .ok bytes =>
    match String.fromUTF8? bytes with
    | none =>
      .error (failed (Diagnostic.nested "Io" (Diagnostic.record "Error" [("kind", "InvalidData"),
        ("message", Diagnostic.quoted "stream did not contain valid UTF-8")])))
    | some source =>
      match Settings.ofToml? source with
      | some settings => .ok settings
      | none => .error (failed "Parse")

section Run

variable {m : Type → Type} [Monad m] (read : String → m (Except FileError ByteArray))

/-- The options, read in order; a settings file is loaded when its option comes up. -/
def parseOptions (program : String) (o : Options) : List String → m (Except Report Options)
  | [] => pure (.ok o)
  | "--explore" :: rest => parseOptions program { o with explore := true } rest
  | "--config" :: rest =>
    match rest with
    | [] => pure (.error (failed (Diagnostic.quoted "--config needs a file")))
    | path :: rest => do
      match settingsOf (← read path) with
      | .error report => pure (.error report)
      | .ok settings => parseOptions program { o with settings } rest
  | other :: _ =>
    pure (.error {
      stdout := usage program
      stderr := "Error: unknown option '" ++ other ++ "'\n"
      code := 1 })

/-- One outcome of an exploration. -/
def outcomeText (index : Nat) (c : Context) : String :=
  let number := toString index
  let reason := (c.exit?.getD .finished).label
  let texts (log : AccessLog) : String := ", ".intercalate (log.inOrder.map Access.text)
  "#" ++ number ++ String.ofList (List.replicate (3 - number.length) ' ') ++ " " ++ reason ++
    " choices " ++ Diagnostic.numbers (c.choices.map UInt8.toNat) ++
    "\n     reads  [" ++ texts c.inputs ++ "]\n     writes [" ++ texts c.outputs ++ "]\n"

/-- The outcomes of an exploration. -/
def outcomesText (outcomes : List Context) : String :=
  "\n" ++ toString outcomes.length ++ " outcomes\n" ++
    String.join (outcomes.zipIdx.map fun (c, index) => outcomeText index c)

/-- The report on a script of a cartridge. -/
def inspect (cartridge : ByteArray) (address : UInt32) (o : Options) : Report :=
  let memory := Memory.empty.map Memory.cartridgeBase cartridge.data
  let game := LiveGame.view ⟨memory, o.settings.layout⟩
  let listing := Listing.print memory game.moveName? address
  if o.explore then
    match Interpreter.explore ⟨memory, game, o.settings.explore⟩ (Context.blank address) with
    | .ok outcomes => { stdout := listing ++ outcomesText outcomes }
    | .error e => failed (Diagnostic.ofScript e) listing
  else { stdout := listing }

/-- The program with its arguments. -/
def run (program : String) (args : List String) : m Report :=
  match args with
  | path :: address :: options =>
    match parseAddress? address with
    | none => pure (failed (Diagnostic.quoted ("Invalid address: " ++ address)))
    | some a => do
      match ← parseOptions read program {} options with
      | .error report => pure report
      | .ok o =>
        match ← read path with
        | .ok cartridge => pure (inspect cartridge a o)
        | .error .isDirectory => pure (failed FileError.isDirectory.diagnostic)
        | .error e =>
          pure (failed ("Cannot open ROM '" ++ path ++ "': " ++ e.message ++ " (os error " ++
            toString e.code ++ ")"))
  | _ => pure { stdout := usage program }

end Run

end CommandLine

end Cartridge
