import Cartridge.CommandLine

/-!
# The program on the files of the running system
-/

namespace Cartridge.CommandLine

/-- Reads a file. -/
def readFile (path : String) : IO (Except FileError ByteArray) := do
  match ← (IO.FS.readBinFile path).toBaseIO with
  | .ok bytes => return .ok bytes
  | .error (.inappropriateType _ code _) | .error (.permissionDenied _ code _)
  | .error (.invalidArgument _ code _) =>
    return .error ((FileError.ofCode? code.toNat).getD .notFound)
  | .error _ => return .error .notFound

/-- Runs the program and prints its report. -/
def main (args : List String) : IO UInt32 := do
  let report ← run readFile "pokebot" args
  (← IO.getStdout).putStr report.stdout
  (← IO.getStderr).putStr report.stderr
  return report.code.toUInt32

end Cartridge.CommandLine

/-- The program. -/
def main (args : List String) : IO UInt32 :=
  Cartridge.CommandLine.main args
