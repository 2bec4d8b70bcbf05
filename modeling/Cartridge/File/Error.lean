import Cartridge.Diagnostic
import Cartridge.File.Tree

/-!
# File.Error — how a file that could not be read is reported
-/

namespace Cartridge.FileError

/-- The number of the error. -/
def code : FileError → Nat
  | notFound => 2
  | permissionDenied => 13
  | notADirectory => 20
  | isDirectory => 21
  | nameTooLong => 36

/-- The error with a number. -/
def ofCode? (number : Nat) : Option FileError :=
  [notFound, permissionDenied, notADirectory, isDirectory, nameTooLong].find? (·.code == number)

/-- The name of the error. -/
def label : FileError → String
  | notFound => "NotFound"
  | permissionDenied => "PermissionDenied"
  | notADirectory => "NotADirectory"
  | isDirectory => "IsADirectory"
  | nameTooLong => "InvalidFilename"

/-- The wording of the error. -/
def message : FileError → String
  | notFound => "No such file or directory"
  | permissionDenied => "Permission denied"
  | notADirectory => "Not a directory"
  | isDirectory => "Is a directory"
  | nameTooLong => "File name too long"

/-- The error in structured form. -/
def diagnostic (e : FileError) : String :=
  Diagnostic.record "Os" [("code", toString e.code), ("kind", e.label),
    ("message", Diagnostic.quoted e.message)]

theorem ofCode?_code (e : FileError) : ofCode? e.code = some e := by
  cases e <;> rfl

end Cartridge.FileError
