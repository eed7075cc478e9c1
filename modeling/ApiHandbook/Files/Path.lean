import ApiHandbook.Text.Quoted
import ApiHandbook.Text.Split

/-!
# Paths

A path is a root, empty for relative paths, and its components. Empty components and single dots
say nothing and are dropped; double dots are kept.
-/
namespace ApiHandbook.Files

open Text

structure Path where
  root : String
  parts : List String
  deriving DecidableEq, Repr

namespace Path

/-- Two slashes are a root of their own; three or more count as one. -/
def rootOf : List Char → String
  | '/' :: '/' :: '/' :: _ => "/"
  | '/' :: '/' :: _ => "//"
  | '/' :: _ => "/"
  | _ => ""

def ofString (text : String) : Path where
  root := rootOf text.toList
  parts := ((splitOn '/' text.toList).map String.ofList).filter fun part =>
    part ≠ "" && part ≠ "."

/-- The path as text; the current directory is a dot. -/
def text (path : Path) : String :=
  if path.root.isEmpty && path.parts.isEmpty then "."
  else path.root ++ "/".intercalate path.parts

def parent (path : Path) : Path := { path with parts := path.parts.dropLast }

/-- Whether a path holds a zero character. No file has such a name. -/
def hasZero (path : Path) : Bool := path.parts.any (·.toList.contains '\x00')

end Path

/-- Why a file cannot be read or written. -/
inductive FileFault where
  | notFound | occupied | notDirectory | isDirectory | nameTooLong
  | other (code : Nat) (text : String)
  deriving DecidableEq, Repr

namespace FileFault

def code : FileFault → Nat
  | .notFound => 2
  | .occupied => 17
  | .notDirectory => 20
  | .isDirectory => 21
  | .nameTooLong => 36
  | .other code _ => code

def text : FileFault → String
  | .notFound => "No such file or directory"
  | .occupied => "File exists"
  | .notDirectory => "Not a directory"
  | .isDirectory => "Is a directory"
  | .nameTooLong => "File name too long"
  | .other _ text => text

def message (fault : FileFault) (path : Path) : String :=
  s!"[Errno {fault.code}] {fault.text}: " ++ String.ofList (quoted path.text.toList)

end FileFault

end ApiHandbook.Files
