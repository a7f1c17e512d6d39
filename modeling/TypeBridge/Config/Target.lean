import TypeBridge.Text.Pieces

/-!
# Target triples

A triple names the machine that code is built for: architecture, vendor, operating system and,
after a third dash, the environment. `Target.parse` normalises the spelling; the other functions say
how a target names its artifacts and which flags make a shared library.
-/

namespace TypeBridge

/-- A target machine in normalised spelling. -/
structure Target where
  arch : String
  vendor : String
  os : String
  env : Option String
deriving Repr, DecidableEq

/-- Why a text is no target triple. -/
inductive TargetFault where
  /-- The text has fewer than three parts. -/
  | malformed (text : String)
deriving Repr, DecidableEq

/-- The wording of a fault. -/
def TargetFault.message : TargetFault → String
  | .malformed text => "Invalid target triple format: " ++ text

namespace Target

/-- The machine that is assumed where none is named. -/
def linux : Target := ⟨"x86_64", "unknown", "linux", some "gnu"⟩

/-- One architecture goes by two names. -/
def normalArch (arch : String) : String := if arch = "arm64" then "aarch64" else arch

/-- A character that starts the version of an operating system. -/
def startsVersion (c : Char) : Bool := c.isDigit || c = '.'

/-- An operating system without its version; a name that starts like a version is kept whole. -/
def withoutVersion (os : List Char) : List Char :=
  let name := os.takeWhile (fun c => !startsVersion c)
  if name.isEmpty then os else name

/-- The environment that the parts after the third dash spell; an empty one is none. -/
def joinEnv (parts : List (List Char)) : Option String :=
  let text := List.intercalate ['-'] parts
  if text.isEmpty then none else some (String.ofList text)

/-- Read a triple: at least three parts between dashes; all parts from the fourth on are the
environment. -/
def parse (text : String) : Except TargetFault Target :=
  match Text.pieces (fun c => c = '-') text.toList with
  | arch :: vendor :: os :: env =>
    .ok {
      arch := normalArch (String.ofList arch)
      vendor := String.ofList vendor
      os := String.ofList (withoutVersion os)
      env := joinEnv env }
  | _ => .error (.malformed text)

/-- The triple as a text. -/
def render (target : Target) : String :=
  let base := target.arch ++ "-" ++ target.vendor ++ "-" ++ target.os
  match target.env with
  | some env => base ++ "-" ++ env
  | none => base

/-- Whether programs are those of Windows. -/
def isWindows (target : Target) : Bool := target.os = "windows"

/-- Whether programs are those of Darwin. -/
def isDarwin (target : Target) : Bool := target.os = "darwin"

/-- The systems that count as Unix. -/
def isUnix (target : Target) : Bool :=
  ["linux", "darwin", "freebsd", "openbsd", "netbsd"].contains target.os

/-- The systems whose shared libraries hold position-independent code. -/
def needsPic (target : Target) : Bool :=
  ["linux", "freebsd", "openbsd", "netbsd"].contains target.os

/-- The compiler driver of a target that names none: one that takes the same flags everywhere. -/
def defaultCompiler (target : Target) : String :=
  if target.isWindows then "clang++" else "c++"

/-- The extension of a shared library. -/
def libraryExtension (target : Target) : String :=
  if target.isWindows then "dll" else if target.isDarwin then "dylib" else "so"

/-- The extension of an executable, empty where executables have none. -/
def executableExtension (target : Target) : String := if target.isWindows then "exe" else ""

/-- The file name of the shared library called `stem`. -/
def libraryName (target : Target) (stem : String) : String :=
  if target.isWindows then stem ++ ".dll" else "lib" ++ stem ++ "." ++ target.libraryExtension

/-- The flags that make a shared library. -/
def libraryFlags (target : Target) : List String :=
  ["-shared"] ++ (if target.needsPic then ["-fPIC"] else []) ++
    (if target.isDarwin then ["-undefined", "dynamic_lookup"] else [])

/-- The flags that export one symbol of a shared library. -/
def exportFlags (target : Target) (symbol : String) : List String :=
  if target.isWindows then ["-Wl,/EXPORT:" ++ symbol] else []

end Target

end TypeBridge
