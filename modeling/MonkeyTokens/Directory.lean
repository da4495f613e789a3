import MonkeyTokens.Reader.Basic

/-!
# Directories

A directory for trying the program in. It holds files and empty directories under their names. A
path is followed name by name from the directory itself; nothing outside of it is known but the
directories above.
-/

namespace MonkeyTokens

/-- What a name stands for. -/
inductive Entry where
  | file (bytes : List UInt8)
  | directory
  deriving DecidableEq, Repr

/-- The entries of a directory under their names. -/
structure Directory where
  entries : List (String × Entry)
  deriving DecidableEq, Repr

/-- How far a path leads. -/
inductive Place where
  | above
  | top
  | below
  | file (bytes : List UInt8)
  deriving DecidableEq, Repr

namespace Directory

/-- The number of bytes that a name may have. -/
def nameLimit : Nat := 255

/-- The number of bytes that a path may have. -/
def pathLimit : Nat := 4095

/-- The place that a name leads to from the directory itself. -/
def enter (d : Directory) (name : String) : Except Fault Place :=
  match d.entries.lookup name with
  | some (.file bytes) => .ok (.file bytes)
  | some .directory => .ok .below
  | none => .error .noSuchFile

/-- Follow one part of a path. -/
def follow (d : Directory) (place : Place) (part : String) : Except Fault Place :=
  match place with
  | .file _ => .error .notADirectory
  | _ =>
    if part = "" ∨ part = "." then .ok place
    else if part = ".." then
      match place with
      | .below => .ok .top
      | _ => .ok .above
    else if nameLimit < part.utf8ByteSize then .error .nameTooLong
    else
      match place with
      | .top => d.enter part
      | _ => .error .noSuchFile

/-- The place that a path leads to. -/
def resolve (d : Directory) (path : String) : Except Fault Place :=
  if path = "" then .error .noSuchFile
  else if pathLimit < path.utf8ByteSize then .error .nameTooLong
  else
    let start := if path.toList.head? = some '/' then .above else .top
    ((path.toList.splitOn '/').map String.ofList).foldlM d.follow start

/-- A reader of what a path leads to; a directory can be opened but not read. -/
def openFile (d : Directory) (path : String) : Except Fault Reader := do
  match ← d.resolve path with
  | .file bytes => return .ofBytes bytes
  | _ => return ⟨[.fault .isADirectory]⟩

end Directory
end MonkeyTokens
