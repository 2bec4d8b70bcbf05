import Cartridge.Toml.Scan
import Cartridge.Toml.Value

/-!
# Numbers and dates of a document
-/

namespace Cartridge.Scan

/-! ### Numbers -/

/-- The digits of a number without the single underscores between them. -/
def ungroup (base : Nat) : List Char → Option (List Char)
  | [] => none
  | [c] => if isDigitOf c then some [c] else none
  | c :: '_' :: rest => if isDigitOf c then (ungroup base rest).map (c :: ·) else none
  | c :: rest => if isDigitOf c then (ungroup base rest).map (c :: ·) else none
where
  /-- Whether a character is a digit in the base. -/
  isDigitOf (c : Char) : Bool :=
    (hexDigit? c).any (· < base)

/-- The value of grouped digits. -/
def groupedValue? (base : Nat) (cs : List Char) : Option Nat := do
  digitsValue? base (← ungroup base cs)

/-- The digits of a whole part, which has no leading zero. -/
def wholeDigits? (cs : List Char) : Option (List Char) := do
  let digits ← ungroup 10 cs
  if digits.length > 1 ∧ digits.head? = some '0' then none else some digits

/-- A sign and what follows it. -/
def splitSign : List Char → Bool × List Char
  | '+' :: rest => (false, rest)
  | '-' :: rest => (true, rest)
  | cs => (false, cs)

/-- An integer of 64 bits. -/
def integerOf (n : Int) : Option Toml :=
  if Int64.minValue.toInt ≤ n ∧ n ≤ Int64.maxValue.toInt then some (.integer n) else none

/-- An integer in decimal digits. -/
def decimalInteger? (cs : List Char) : Option Toml := do
  let (negative, digits) := splitSign cs
  let value ← digitsValue? 10 (← wholeDigits? digits)
  integerOf (if negative then -(value : Int) else value)

/-- The exponent of a number: its sign and its digits. -/
def exponent? (cs : List Char) : Option Int := do
  let (negative, digits) := splitSign cs
  let value ← groupedValue? 10 digits
  return if negative then -(value : Int) else value

/-- A number with a fraction or an exponent or both.  One that only infinity is near to is refused
if it is positive. -/
def float? (cs : List Char) : Option Toml := do
  let (negative, unsigned) := splitSign cs
  let isMark (c : Char) : Bool := c == 'e' || c == 'E'
  let mantissa := unsigned.takeWhile (!isMark ·)
  let power ←
    match unsigned.dropWhile (!isMark ·) with
    | [] => some 0
    | _ :: rest => exponent? rest
  let whole ← wholeDigits? (mantissa.takeWhile (· != '.'))
  let fraction ←
    match mantissa.dropWhile (· != '.') with
    | [] => if mantissa.length = unsigned.length then none else some []
    | _ :: rest => ungroup 10 rest
  let digits ← digitsValue? 10 (whole ++ fraction)
  let power := power - fraction.length
  if Decimal.overflows digits power then
    if negative then some (.decimal (.infinite true)) else none
  else some (.decimal (.finite negative digits power))

/-- The value of a word: a number, a truth value, infinity or no number. -/
def word? (cs : List Char) : Option Toml :=
  match cs with
  | '0' :: 'x' :: rest => (groupedValue? 16 rest).bind fun n => integerOf n
  | '0' :: 'o' :: rest => (groupedValue? 8 rest).bind fun n => integerOf n
  | '0' :: 'b' :: rest => (groupedValue? 2 rest).bind fun n => integerOf n
  | ['t', 'r', 'u', 'e'] => some (.boolean true)
  | ['f', 'a', 'l', 's', 'e'] => some (.boolean false)
  | _ =>
    match splitSign cs with
    | (negative, ['i', 'n', 'f']) => some (.decimal (.infinite negative))
    | (negative, ['n', 'a', 'n']) => some (.decimal (.notANumber negative))
    | _ => (decimalInteger? cs).or (float? cs)

/-- Whether a character can stand in a word. -/
def isWordChar (c : Char) : Bool :=
  isKeyChar c || c == '+' || c == '.'

/-- A word and its value. -/
def word : Scan Toml := do
  let cs ← takeWhile isWordChar
  word? cs

/-! ### Dates and times -/

/-- A number of a fixed count of digits within bounds. -/
def boundedNumber (digits least most : Nat) : Scan Nat := do
  let ds ← take digits Char.isDigit
  let n := (digitsValue? 10 ds).getD 0
  guard (least ≤ n ∧ n ≤ most)
  return n

/-- The number of days of a month. -/
def daysOf (year month : Nat) : Nat :=
  if month = 2 then
    if year % 4 = 0 ∧ (year % 100 ≠ 0 ∨ year % 400 = 0) then 29 else 28
  else if month = 4 ∨ month = 6 ∨ month = 9 ∨ month = 11 then 30
  else 31

/-- A day: year, month and day of the month. -/
def date : Scan Unit := do
  let year ← boundedNumber 4 0 9999
  expect "-"
  let month ← boundedNumber 2 1 12
  expect "-"
  let _ ← boundedNumber 2 1 (daysOf year month)

/-- A time of day: hours, minutes and seconds, with a fraction or without. -/
def time : Scan Unit := do
  let _ ← boundedNumber 2 0 23
  expect ":"
  let _ ← boundedNumber 2 0 59
  expect ":"
  let _ ← boundedNumber 2 0 60
  if ← accept "." then
    let ds ← takeWhile Char.isDigit
    guard !ds.isEmpty

/-- A shift against universal time, if there is one. -/
def timeShift : Scan Unit := do
  if (← accept "Z") || (← accept "z") then return
  if (← accept "+") || (← accept "-") then
    let _ ← boundedNumber 2 0 23
    expect ":"
    let _ ← boundedNumber 2 0 59

/-- Whether the text starts with some digits and then a character. -/
def startsWithDigits (count : Nat) (c : Char) (cs : List Char) : Bool :=
  (cs.take count).length == count && (cs.take count).all Char.isDigit && cs[count]? == some c

/-- The time that may follow a date. -/
def timeOfDate : Scan Unit := do
  if let c :: rest ← get then
    if (c == 'T' || c == 't' || c == ' ') && startsWithDigits 2 ':' rest then
      set rest
      time
      timeShift

/-- A date, a time, or both. -/
def moment : Scan Toml := do
  if startsWithDigits 2 ':' (← get) then time
  else
    date
    timeOfDate
  return .moment

/-- A number, a truth value, a date or a time. -/
def bareValue : Scan Toml := do
  let cs ← get
  if startsWithDigits 4 '-' cs || startsWithDigits 2 ':' cs then moment else word

end Cartridge.Scan
