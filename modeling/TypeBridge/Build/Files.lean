import TypeBridge.Build.Path
import TypeBridge.Text.Utf8

/-!
# File trees

`FileTree` holds the directories and files that a build works with, by their names from the root
on. A path is followed step by step, so that a step through a missing place or through a file fails
with the fault that the system gives. `FileTree.write`, `remove` and `createDirectories` are the
changes; the rest only looks.
-/

namespace TypeBridge

/-- Why the system refuses to touch a place. -/
inductive FileFault where
  | notFound
  | exists
  | notDirectory
  | isDirectory
  | nameTooLong
  /-- A name holds the character that ends names. -/
  | nulByte
deriving Repr, DecidableEq

/-- The system's wording. -/
def FileFault.message : FileFault → String
  | .notFound => "No such file or directory (os error 2)"
  | .exists => "File exists (os error 17)"
  | .notDirectory => "Not a directory (os error 20)"
  | .isDirectory => "Is a directory (os error 21)"
  | .nameTooLong => "File name too long (os error 36)"
  | .nulByte => "file name contained an unexpected NUL byte"

/-- What stands at a place of a tree whose files hold values of type `α`. -/
inductive Node (α : Type) where
  | directory
  | file (content : α)
deriving Repr

/-- Directories and files by their names from the root on, the latest first. -/
structure FileTree (α : Type) where
  nodes : List (List String × Node α)

namespace FileTree

variable {α : Type}

/-- The tree that holds the root alone. -/
def empty : FileTree α := ⟨[]⟩

/-- What stands at a place; the root is a directory. -/
def node? (tree : FileTree α) (place : List String) : Option (Node α) :=
  if place.isEmpty then some .directory else tree.nodes.lookup place

/-- Put a node at a place. -/
def put (tree : FileTree α) (place : List String) (node : Node α) : FileTree α :=
  ⟨(place, node) :: tree.nodes.filter (fun entry => entry.1 != place)⟩

/-- Take away what stands at a place. -/
def drop (tree : FileTree α) (place : List String) : FileTree α :=
  ⟨tree.nodes.filter (fun entry => entry.1 != place)⟩

/-- Names of more octets are refused. -/
def longestName : Nat := 255

/-- Paths of this many octets are refused, as are longer ones. -/
def pathLimit : Nat := 0x1000

/-- Look at a place in a directory; a name that is too long is refused even if nothing is there. -/
def look (tree : FileTree α) (place : List String) : Except FileFault (Option (Node α)) :=
  if place.getLast?.any (fun name => name.utf8ByteSize > longestName) then .error .nameTooLong
  else .ok (tree.node? place)

/-- Follow steps from a directory to the place that they lead to. All steps but the last must lead
to directories, even where the next one stays in place or leads back; nothing needs to stand at the
place itself. -/
def follow (tree : FileTree α) (place : List String) : List String → Except FileFault (List String)
  | [] => .ok place
  | step :: rest =>
    if step = "." then follow tree place rest
    else if step = ".." then follow tree place.dropLast rest
    else if rest.isEmpty then .ok (place ++ [step])
    else
      match tree.look (place ++ [step]) with
      | .ok (some .directory) => follow tree (place ++ [step]) rest
      | .ok (some (.file _)) => .error .notDirectory
      | .ok none => .error .notFound
      | .error fault => .error fault

/-- Refuse a text that cannot be a path. -/
def checkPath (path : String) : Except FileFault Unit :=
  if path.toList.contains (Char.ofNat 0) then .error .nulByte
  else if path.utf8ByteSize ≥ pathLimit then .error .nameTooLong
  else .ok ()

/-- The place that a path leads to. -/
def locate (tree : FileTree α) (path : String) : Except FileFault (List String) := do
  checkPath path
  tree.follow [] (Path.steps path)

/-- What a path leads to, if anything; with a slash at its end it leads to directories only. -/
def find? (tree : FileTree α) (path : String) : Option (Node α) :=
  match (do tree.look (← tree.locate path) : Except FileFault (Option (Node α))) with
  | .ok (some .directory) => some .directory
  | .ok (some (.file content)) => if Path.endsWithSlash path then none else some (.file content)
  | _ => none

/-- The content of the file that a path leads to. -/
def content? (tree : FileTree α) (path : String) : Option α :=
  match tree.find? path with
  | some (.file content) => some content
  | _ => none

/-- Whether a path leads to anything. -/
def contains (tree : FileTree α) (path : String) : Bool := (tree.find? path).isSome

/-- Put a file at a path, in place of a file that may stand there. A slash at the end of the path
asks for a directory, which no file is. -/
def write (tree : FileTree α) (path : String) (content : α) : Except FileFault (FileTree α) := do
  let place ← tree.locate path
  if Path.endsWithSlash path then .error .isDirectory
  else
    match ← tree.look place with
    | some .directory => .error .isDirectory
    | _ => .ok (tree.put place (.file content))

/-- Take away the file at a path. -/
def remove (tree : FileTree α) (path : String) : Except FileFault (FileTree α) := do
  let place ← tree.locate path
  match ← tree.look place with
  | some .directory => .error .isDirectory
  | some (.file _) =>
    if Path.endsWithSlash path then .error .notDirectory else .ok (tree.drop place)
  | none => .error .notFound

/-- Make a directory where some steps lead and nothing stands. -/
def makeDirectory (tree : FileTree α) (steps : List String) : Except FileFault (FileTree α) := do
  let place ← tree.follow [] steps
  match ← tree.look place with
  | some _ => .error .exists
  | none => .ok (tree.put place .directory)

/-- Whether some steps lead to a directory. -/
def isDirectory (tree : FileTree α) (steps : List String) : Bool :=
  match (do tree.look (← tree.follow [] steps) : Except FileFault (Option (Node α))) with
  | .ok (some .directory) => true
  | _ => false

/-- Make a directory where some steps lead, unless there is one. -/
def ensureDirectory (tree : FileTree α) (steps : List String) : Except FileFault (FileTree α) :=
  match tree.makeDirectory steps with
  | .ok tree => .ok tree
  | .error fault => if tree.isDirectory steps then .ok tree else .error fault

/-- Make a directory and, where it cannot be reached, first the one that its last step is taken
from. Each is made by the steps that lead to it: a last step that stays in place makes nothing. -/
def makeWay (tree : FileTree α) (steps : List String) : Except FileFault (FileTree α) :=
  match tree.ensureDirectory steps with
  | .ok tree => .ok tree
  | .error fault =>
    if _ : fault = .notFound ∧ steps ≠ [] then
      match makeWay tree (Path.parent steps) with
      | .ok tree => tree.ensureDirectory steps
      | .error fault => .error fault
    else .error fault
termination_by steps.length
decreasing_by exact Path.length_parent_lt (And.right ‹_›)

/-- Make the directory at a path and all that lead to it. -/
def createDirectories (tree : FileTree α) (path : String) : Except FileFault (FileTree α) := do
  checkPath path
  tree.makeWay (Path.steps path)

end FileTree

end TypeBridge
