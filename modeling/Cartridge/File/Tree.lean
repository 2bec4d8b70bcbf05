/-!
# File.Tree — files and directories by name

A path is walked part by part.  `Place.walk` says where it leads, `Place.read` what the file there
holds, and both say why if there is nothing to read.
-/

namespace Cartridge

/-- Why a file could not be read. -/
inductive FileError where
  | notFound
  | isDirectory
  | notADirectory
  | permissionDenied
  | nameTooLong
deriving DecidableEq

/-- Files and directories by name. -/
inductive FileTree where
  | file (contents : ByteArray)
  | directory (entries : List (String × FileTree))

namespace FileTree

/-- The most bytes in a name. -/
def longestName : Nat := 255

/-- The most bytes in a path. -/
def longestPath : Nat := 4095

/-- What stands under a name. -/
def enter (tree : FileTree) (name : String) : Except FileError FileTree :=
  match tree with
  | file _ => .error .notADirectory
  | directory entries =>
    if longestName < name.utf8ByteSize then .error .nameTooLong
    else
      match entries.find? (·.1 == name) with
      | none => .error .notFound
      | some (_, there) => .ok there

/-- A file or directory together with the directories around it. -/
structure Place where
  here : FileTree
  /-- The directories around it, innermost first. -/
  around : List FileTree := []

namespace Place

/-- The outermost directory; it is the one around itself. -/
def top (p : Place) : Place :=
  { here := p.around.getLast?.getD p.here }

/-- One part of a path: nothing or a dot stays in a directory, two dots leave it, and any other
name enters what stands under it. -/
def step (p : Place) (part : String) : Except FileError Place :=
  match p.here, part with
  | file _, _ => .error .notADirectory
  | directory _, "" => .ok p
  | directory _, "." => .ok p
  | directory _, ".." =>
    match p.around with
    | [] => .ok p
    | here :: around => .ok { here, around }
  | here, name => return { here := ← here.enter name, around := here :: p.around }

/-- Where a path leads. -/
def walk (p : Place) (path : String) : Except FileError Place :=
  if path.isEmpty then .error .notFound
  else if longestPath < path.utf8ByteSize then .error .nameTooLong
  else (path.splitOn "/").foldlM step (if path.startsWith "/" then p.top else p)

/-- The contents of the file to which a path leads. -/
def read (p : Place) (path : String) : Except FileError ByteArray := do
  match (← p.walk path).here with
  | file contents => return contents
  | directory _ => throw .isDirectory

end Place

end FileTree

end Cartridge
