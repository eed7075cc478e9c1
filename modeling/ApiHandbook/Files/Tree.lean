import ApiHandbook.Files.Path

/-!
# File trees

Files and directories below a root, with a working directory. A path is followed component by
component, as an operating system does: from the root if it has one, and otherwise from the working
directory. Nothing is above the root.
-/
namespace ApiHandbook.Files

/-- Files and directories by their components below the root. The working directory and what is
above it are directories as well. -/
structure FileTree where
  files : List (List String × List UInt8) := []
  directories : List (List String) := []
  workingDirectory : List String := []
  deriving DecidableEq, Repr

/-- Where a path leads. -/
inductive Target where
  | file (content : List UInt8) (parts : List String)
  | directory (parts : List String)
  /-- There is nothing, but the directory it would be in is there. -/
  | missing (parts : List String)
  deriving DecidableEq, Repr

/-- A write that is given up, and the tree as it is then. -/
structure Refusal where
  fault : FileFault
  tree : FileTree
  deriving DecidableEq, Repr

namespace FileTree

/-- The directories above a file. -/
def above (parts : List String) : List (List String) :=
  (List.range parts.length).map fun n => parts.take n

/-- A tree with files below the working directory. -/
def ofFiles (workingDirectory : List String) (files : List (List String × List UInt8)) :
    FileTree where
  files := files.map fun (parts, content) => (workingDirectory ++ parts, content)
  directories := files.flatMap fun (parts, _) => (above parts).map (workingDirectory ++ ·)
  workingDirectory

def hasDirectory (tree : FileTree) (parts : List String) : Bool :=
  parts.isPrefixOf tree.workingDirectory || tree.directories.contains parts

/-- A component has at most so many bytes. -/
def maxName : Nat := 255

/-- A path has at most so many bytes. -/
def maxPath : Nat := 4095

/-- What a name stands for in a directory. -/
def child (tree : FileTree) (directory : List String) (name : String) :
    Except FileFault Target :=
  if name.utf8ByteSize > maxName then .error .nameTooLong
  else if name = ".." then .ok (.directory directory.dropLast)
  else
    let parts := directory ++ [name]
    match tree.files.lookup parts with
    | some content => .ok (.file content parts)
    | none => .ok (if tree.hasDirectory parts then .directory parts else .missing parts)

/-- Follows components from a directory. -/
def follow (tree : FileTree) (directory : List String) : List String → Except FileFault Target
  | [] => .ok (.directory directory)
  | name :: rest =>
    match tree.child directory name with
    | .error fault => .error fault
    | .ok (.directory next) => tree.follow next rest
    | .ok target =>
      match rest, target with
      | [], target => .ok target
      | _, .file _ _ => .error .notDirectory
      | _, _ => .error .notFound

def find (tree : FileTree) (path : Path) : Except FileFault Target :=
  if path.text.utf8ByteSize > maxPath then .error .nameTooLong
  else tree.follow (if path.root.isEmpty then tree.workingDirectory else []) path.parts

def read (tree : FileTree) (path : Path) : Except FileFault (List UInt8) := do
  match ← tree.find path with
  | .file content _ => return content
  | .directory _ => throw .isDirectory
  | .missing _ => throw .notFound

/-- Makes a directory, if it is not there, in one that is. -/
def makeDirectory (tree : FileTree) (path : Path) : Except FileFault FileTree := do
  match ← tree.find path with
  | .directory _ => return tree
  | .file _ _ => throw .occupied
  | .missing parts => return { tree with directories := tree.directories ++ [parts] }

/-- Makes a directory and those above it that are missing. `parts` are the components in reverse
order. -/
def makeDirectories (tree : FileTree) (root : String) : (parts : List String) →
    Except Refusal FileTree
  | [] => .ok tree
  | name :: outer =>
    let path : Path := ⟨root, (name :: outer).reverse⟩
    match tree.makeDirectory path with
    | .ok after => .ok after
    | .error .notFound => do
      let tree ← tree.makeDirectories root outer
      (tree.makeDirectory path).mapError (⟨·, tree⟩)
    | .error fault => .error ⟨fault, tree⟩

def putFile (tree : FileTree) (parts : List String) (content : List UInt8) : FileTree :=
  { tree with files := tree.files.filter (·.1 ≠ parts) ++ [(parts, content)] }

/-- Writes a file whose directory exists. -/
def write (tree : FileTree) (path : Path) (content : List UInt8) : Except FileFault FileTree := do
  match ← tree.find path with
  | .file _ parts | .missing parts => return tree.putFile parts content
  | .directory _ => throw .isDirectory

/-- Writes a file after making the directories above it. Those stay if it cannot be written. -/
def save (tree : FileTree) (path : Path) (content : List UInt8) : Except Refusal FileTree := do
  let tree ← tree.makeDirectories path.root path.parent.parts.reverse
  (tree.write path content).mapError (⟨·, tree⟩)

end FileTree

end ApiHandbook.Files
