import Cartridge.Numeral

/-!
# Scan — reading characters, strings and keys of a document

A scan takes characters off the front of a text; it gives nothing where the text does not fit.
-/

namespace Cartridge

/-- A reader that takes characters off the front of a text. -/
abbrev Scan := StateT (List Char) Option

namespace Scan

/-- The next character. -/
def next : Scan Char := fun
  | [] => none
  | c :: rest => some (c, rest)

/-- The next character, left in place. -/
def peek? : Scan (Option Char) := do
  return (← get).head?

/-- Takes a text if it comes next, and says whether it did. -/
def accept (s : String) : Scan Bool := do
  let cs ← get
  if s.toList.isPrefixOf cs then
    set (cs.drop s.length)
    return true
  else return false

/-- Takes a text that must come next. -/
def expect (s : String) : Scan Unit := do
  guard (← accept s)

/-- Takes the characters that pass a test. -/
def takeWhile (p : Char → Bool) : Scan (List Char) := do
  let cs ← get
  set (cs.dropWhile p)
  return cs.takeWhile p

/-- Takes some characters, all of which must pass a test. -/
def take (count : Nat) (p : Char → Bool) : Scan (List Char) := do
  let cs ← get
  guard (count ≤ cs.length ∧ (cs.take count).all p)
  set (cs.drop count)
  return cs.take count

/-- Repeats a step until it gives nothing more. -/
def many {α : Type} (step : Scan (Option α)) : (fuel : Nat) → Scan (List α)
  | 0 => failure
  | fuel + 1 => do
    match ← step with
    | none => return []
    | some a => return a :: (← many step fuel)

/-- The number of characters that are left. -/
def remaining : Scan Nat := do
  return (← get).length

/-- Repeats a step that takes at least one character until it gives nothing more. -/
def manyChars {α : Type} (step : Scan (Option α)) : Scan (List α) := do
  many step ((← remaining) + 1)

/-! ### Blanks and line ends -/

/-- Whether a character may stand between two parts of a line. -/
def isBlank (c : Char) : Bool :=
  c == ' ' || c == '\t'

/-- Whether a character may stand in a comment. -/
def isVisible (c : Char) : Bool :=
  c == '\t' || (' ' ≤ c && c != '\x7f')

/-- Takes what blanks there are. -/
def blanks : Scan Unit := do
  let _ ← takeWhile isBlank

/-- Takes a line break, and says whether there was one. -/
def newline : Scan Bool := do
  if ← accept "\n" then return true
  accept "\r\n"

/-- Takes a comment, if there is one. -/
def comment : Scan Unit := do
  if ← accept "#" then
    let _ ← takeWhile isVisible

/-- Takes what may follow on a line: blanks, a comment, and the end of the line or the text. -/
def lineEnd : Scan Unit := do
  blanks
  comment
  if (← get).isEmpty then return
  guard (← newline)

/-- Takes blanks, comments and line breaks. -/
def blankLines : Scan Unit := do
  let _ ← manyChars do
    blanks
    comment
    return if ← newline then some () else none

/-! ### Strings -/

/-- The character behind a backslash. -/
def escape : Scan Char := do
  match ← next with
  | 'b' => return '\x08'
  | 't' => return '\t'
  | 'n' => return '\n'
  | 'f' => return '\x0c'
  | 'r' => return '\r'
  | '"' => return '"'
  | '\\' => return '\\'
  | 'u' => unicode 4
  | 'U' => unicode 8
  | _ => failure
where
  /-- A character by its number. -/
  unicode (digits : Nat) : Scan Char := do
    let ds ← take digits fun c => (hexDigit? c).isSome
    let code := (digitsValue? 16 ds).getD 0
    guard (code < 0xD800 ∨ 0xE000 ≤ code ∧ code < 0x110000)
    return Char.ofNat code

/-- Whether a character may stand in a string on one line. -/
def isLineChar (c : Char) : Bool :=
  isVisible c

/-- The rest of a string in double quotes. -/
def basicTail : Scan String := do
  let cs ← manyChars do
    match ← next with
    | '"' => return none
    | '\\' => return some (← escape)
    | c =>
      guard (isLineChar c)
      return some c
  return String.ofList cs

/-- The rest of a string in single quotes, which knows no escapes. -/
def literalTail : Scan String := do
  let cs ← takeWhile fun c => isLineChar c && c != '\''
  expect "'"
  return String.ofList cs

/-- The quotes at a run of them in a string that ends with three: those that belong to the string,
and whether it ends there. -/
def quoteRun (quote : Char) : Scan (List Char × Bool) := do
  let run ← takeWhile (· == quote)
  let count := run.length
  if count < 3 then return (run, false)
  let kept := min (count - 3) 2
  set (List.replicate (count - 3 - kept) quote ++ (← get))
  return (List.replicate kept quote, true)

/-- One piece of a string over several lines, and whether it is the last one. -/
def blockPiece (quote : Char) (escapes : Bool) : Scan (List Char × Bool) := do
  if (← peek?) == some quote then quoteRun quote
  else if ← newline then return (['\n'], false)
  else
    let c ← next
    if escapes && c == '\\' then
      let cs ← get
      blanks
      if ← newline then
        let _ ← takeWhile isBlank
        let _ ← manyChars do
          blanks
          return if ← newline then some () else none
        return ([], false)
      set cs
      return ([← escape], false)
    guard (isLineChar c)
    return ([c], false)

/-- The pieces of a string over several lines, up to the last one. -/
def blockPieces (quote : Char) (escapes : Bool) : (fuel : Nat) → Scan (List Char)
  | 0 => failure
  | fuel + 1 => do
    let (piece, isLast) ← blockPiece quote escapes
    if isLast then return piece
    return piece ++ (← blockPieces quote escapes fuel)

/-- The rest of a string over several lines; a line break right behind the quotes is dropped. -/
def blockTail (quote : Char) (escapes : Bool) : Scan String := do
  let _ ← newline
  let cs ← blockPieces quote escapes ((← remaining) + 1)
  return String.ofList cs

/-- A string of any of the four kinds. -/
def string : Scan String := do
  if ← accept "\"\"\"" then blockTail '"' true
  else if ← accept "'''" then blockTail '\'' false
  else if ← accept "\"" then basicTail
  else
    expect "'"
    literalTail

/-! ### Keys -/

/-- Whether a character may stand in a key without quotes. -/
def isKeyChar (c : Char) : Bool :=
  c.isAlphanum || c == '_' || c == '-'

/-- One part of a key. -/
def simpleKey : Scan String := do
  if ← accept "\"" then basicTail
  else if ← accept "'" then literalTail
  else
    let cs ← takeWhile isKeyChar
    guard !cs.isEmpty
    return String.ofList cs

/-- Nesting and dotted keys go less deep than this. -/
def depthLimit : Nat := 80

/-- A key: the parts before the last one, and the last one. -/
def key : Scan (List String × String) := do
  let first ← simpleKey
  blanks
  let more ← manyChars do
    if ← accept "." then
      blanks
      let part ← simpleKey
      blanks
      return some part
    else return none
  let parts := first :: more
  guard (parts.length < depthLimit)
  return (parts.dropLast, parts.getLastD first)

end Scan

end Cartridge
