/-!
# Toml — the values of a settings document

Tables remember how they came to be, because that decides whether a later line may add to them.
-/

namespace Cartridge

/-- A decimal number as it is written. -/
inductive Decimal where
  /-- `digits * 10 ^ exponent`, negated or not. -/
  | finite (negative : Bool) (digits : Nat) (exponent : Int)
  | infinite (negative : Bool)
  | notANumber (negative : Bool)
deriving DecidableEq

namespace Decimal

/-- The number of decimal digits of a number; zero has one. -/
def digitCount (n : Nat) : Nat :=
  (Nat.toDigits 10 n).length

/-- Whether a number is nearer to infinity than to the largest double-precision number. -/
def overflows (digits : Nat) (exponent : Int) : Bool :=
  let magnitude := digitCount digits + exponent
  if digits = 0 then false
  else if magnitude > 400 then true
  else if magnitude < 300 then false
  else
    let bound := 0x3FFFFFFFFFFFFF <<< 970
    bound * Nat.pow 10 (-exponent).toNat ≤ digits * Nat.pow 10 exponent.toNat

/-- The nearest double-precision number without its sign. -/
def magnitude (digits : Nat) (exponent : Int) : Float :=
  if digits = 0 ∨ digitCount digits + exponent < -400 then 0
  else if overflows digits exponent then 1 / 0
  else if exponent < 0 then Float.ofScientific digits true (-exponent).toNat
  else Float.ofScientific digits false exponent.toNat

end Decimal

/-- How a table came to be. -/
inductive TableOrigin where
  /-- By a header of its own. -/
  | header
  /-- As a part of a longer header. -/
  | implied
  /-- As a part of a dotted key. -/
  | dotted
  /-- Between braces. -/
  | inline
deriving DecidableEq

/-- A value of a document. -/
inductive Toml where
  | text (s : String)
  | integer (n : Int)
  | decimal (d : Decimal)
  | boolean (b : Bool)
  /-- A date, a time or both. -/
  | moment
  | array (items : List Toml)
  | table (origin : TableOrigin) (entries : List (String × Toml))
  /-- Tables under repeated headers, last one first. -/
  | tables (items : List (List (String × Toml)))

/-- A table under construction. -/
structure TomlTable where
  origin : TableOrigin
  entries : List (String × Toml)

namespace TomlTable

/-- The value of a key. -/
def find? (t : TomlTable) (key : String) : Option Toml :=
  (t.entries.find? (·.1 == key)).map (·.2)

/-- The table with the value of a key replaced or added. -/
def put (t : TomlTable) (key : String) (value : Toml) : TomlTable :=
  { t with entries := (key, value) :: t.entries.filter (·.1 != key) }

/-- Changes the table at the end of a path.  Tables that are missing on the way are made, repeated
headers lead to their last table, and a dotted path stops at a table with a header of its own. -/
def update (dotted : Bool) (change : TomlTable → Option TomlTable) :
    List String → TomlTable → Option TomlTable
  | [], t => change t
  | key :: path, t =>
    match t.find? key with
    | none => do
      let made ← update dotted change path ⟨if dotted then .dotted else .implied, []⟩
      return t.put key (.table made.origin made.entries)
    | some (.table origin entries) =>
      if origin = .inline ∨ dotted ∧ origin = .header then none
      else do
        let changed ← update dotted change path ⟨origin, entries⟩
        return t.put key (.table changed.origin changed.entries)
    | some (.tables (last :: others)) => do
      let changed ← update dotted change path ⟨.header, last⟩
      return t.put key (.tables (changed.entries :: others))
    | some _ => none

/-- Gives a new key a value.  A table made by dotted keys takes only dotted keys, any other table
only plain ones. -/
def define (isDotted : Bool) (key : String) (value : Toml) (t : TomlTable) : Option TomlTable :=
  if decide (t.origin = .dotted) ≠ isDotted ∨ (t.find? key).isSome then none
  else some (t.put key value)

/-- Gives the key at the end of a dotted path a value. -/
def assign (path : List String) (key : String) (value : Toml) (t : TomlTable) :
    Option TomlTable :=
  update true (define (!path.isEmpty) key value) path t

/-- Starts the table of a header; a table that longer headers have made may be started once. -/
def openTable (key : String) (t : TomlTable) : Option TomlTable :=
  match t.find? key with
  | none => some (t.put key (.table .header []))
  | some (.table .implied entries) => some (t.put key (.table .header entries))
  | some _ => none

/-- Starts the next table of a repeated header. -/
def openNext (key : String) (t : TomlTable) : Option TomlTable :=
  match t.find? key with
  | none => some (t.put key (.tables [[]]))
  | some (.tables items) => some (t.put key (.tables ([] :: items)))
  | some _ => none

end TomlTable

end Cartridge
