import TypeBridge.Text.Blank

/-!
# Paths

A path is a text whose parts are divided by slashes. `join` appends a name to a directory, unless
the name is absolute; `steps` lead from the root to the place named. A step `.` stays in place and a
step `..` leads back, but both can only be taken where there is a directory; so they are kept.
-/

namespace TypeBridge.Path

/-- The character between the parts of a path. -/
def isSlash (c : Char) : Bool := c = '/'

/-- An absolute path starts at the root. -/
def isAbsolute (path : String) : Bool := path.toList.head? = some '/'

/-- A text that ends with a slash. -/
def endsWithSlash (path : String) : Bool := path.toList.getLast? = some '/'

/-- The place called `name` in a directory; an absolute name stands for itself. -/
def join (directory name : String) : String :=
  if isAbsolute name then name
  else if directory.isEmpty ∨ endsWithSlash directory then directory ++ name
  else directory ++ "/" ++ name

/-- The steps of a path; several slashes count as one. -/
def steps (path : String) : List String :=
  ((Text.pieces isSlash path.toList).map String.ofList).filter (fun step => step != "")

/-- The steps up to the last one that does not stay in place. -/
def settle (steps : List String) : List String := Text.dropTail (fun step => step = ".") steps

/-- The steps to the place that a path leads to by one more step. -/
def parent (steps : List String) : List String := settle (settle steps).dropLast

/-- Settling takes steps away only. -/
theorem length_settle_le (steps : List String) : (settle steps).length ≤ steps.length := by
  have parts := Text.dropTail_append_takeTail (fun step => decide (step = ".")) steps
  have lengths := congrArg List.length parts
  rw [List.length_append] at lengths
  exact Nat.le.intro lengths

/-- There are fewer steps to the parent. -/
theorem length_parent_lt {steps : List String} (nonempty : steps ≠ []) :
    (parent steps).length < steps.length := by
  have outer := length_settle_le (settle steps).dropLast
  have inner := length_settle_le steps
  have positive := List.length_pos_iff.mpr nonempty
  rw [List.length_dropLast] at outer
  unfold parent
  omega

/-- The text after the last character that satisfies `p`, with the text up to that character. -/
def cutAtLast (p : Char → Bool) (text : List Char) : List Char × List Char :=
  (Text.dropTail (fun c => !p c) text, Text.takeTail (fun c => !p c) text)

/-- A file name without its extension: a dot at the front starts no extension. -/
def stemOf (name : List Char) : List Char :=
  let (before, _) := cutAtLast (fun c => c = '.') name
  if before.length ≤ 1 then name else before.dropLast

/-- Give the last part of a path an extension in place of its own. A path without a last part stays
as it is. -/
def withExtension (path extension : String) : String :=
  let (directory, name) := cutAtLast isSlash (Text.dropTail isSlash path.toList)
  if name = [] ∨ name = ['.', '.'] then path
  else String.ofList (directory ++ stemOf name) ++ "." ++ extension

end TypeBridge.Path
