import TypeBridge.Build.Machine
import TypeBridge.Text.Lines

/-!
# Source sets

A `SourceSet` lists the sources that one artifact is built from, and the directory it is built in.
`SourceSet.writeSource` and `writeHeader` put files there; `listing` shows every source with its
lines numbered.
-/

namespace TypeBridge

/-- Why a build failed. -/
inductive BuildFault where
  /-- The compiler did not start, refused the sources, took too long or left no artifact. -/
  | compile (module command status diagnostics listing : String)
  /-- An artifact cannot be loaded. -/
  | load (path reason : String)
  /-- A file cannot be touched. -/
  | file (path : String) (fault : FileFault)
deriving Repr, DecidableEq

/-- The wording of a fault. -/
def BuildFault.message : BuildFault → String
  | .compile module command status diagnostics listing =>
    "compilation of `" ++ module ++ "` failed (" ++ status ++ ")\ncommand: " ++ command ++
      "\n--- toolchain output ---\n" ++ diagnostics ++ "\n--- sources ---\n" ++ listing
  | .load path reason => "failed to load " ++ path ++ ": " ++ reason
  | .file path fault => "I/O error at " ++ path ++ ": " ++ fault.message

/-- The sources of one artifact. -/
structure SourceSet where
  /-- The name of the module, perhaps with dots. -/
  module : String
  directory : String
  sources : List String
deriving Repr, DecidableEq

namespace SourceSet

/-- A set without sources. -/
def empty (module directory : String) : SourceSet := ⟨module, directory, []⟩

/-- One more source, whether it exists or not. -/
def add (set : SourceSet) (path : String) : SourceSet :=
  { set with sources := set.sources ++ [path] }

/-- The part of a module's name after its last dot. -/
def lastSegment (module : String) : String :=
  String.ofList (((Text.pieces (fun c => c = '.') module.toList).getLast?).getD [])

/-- What the artifact is called: the last segment of the module's name, unless that is empty. -/
def artifactStem (set : SourceSet) : String :=
  let segment := lastSegment set.module
  if segment.isEmpty then "module" else segment

/-- Put a text into the set's directory, which is made if it is missing: the path of the file. -/
def writeHeader (set : SourceSet) (name text : String) : Step Workbench BuildFault String :=
  fun bench =>
    match bench.files.createDirectories set.directory with
    | .error fault => (.error (.file set.directory fault), bench)
    | .ok files =>
      let path := Path.join set.directory name
      match files.write path (.octets (Text.Utf8.encode text)) with
      | .error fault => (.error (.file path fault), { bench with files := files })
      | .ok files => (.ok path, { bench with files := files })

/-- Put a source into the set's directory and add it to the set. -/
def writeSource (set : SourceSet) (name text : String) : Step Workbench BuildFault SourceSet := do
  let path ← set.writeHeader name text
  return set.add path

/-- A number set right in four places. -/
def lineNumber (n : Nat) : String :=
  let digits := toString n
  String.ofList (List.replicate (4 - digits.length) ' ') ++ digits

/-- The text of a source, if it can be read as one. -/
def text? (files : FileTree Content) (path : String) : Option String :=
  match files.content? path with
  | some (.octets octets) => Text.Utf8.decode? octets
  | _ => none

/-- A source under its path, with its lines numbered from one. -/
def listSource (files : FileTree Content) (path : String) : String :=
  let body := match text? files path with
    | some text =>
      String.join ((Text.lineList text).zipIdx.map fun (line, i) =>
        lineNumber (i + 1) ++ " | " ++ line ++ "\n")
    | none => "     | <unreadable>\n"
  "// " ++ path ++ "\n" ++ body

/-- All sources with their lines numbered. -/
def listing (set : SourceSet) (files : FileTree Content) : String :=
  String.join (set.sources.map (listSource files))

end SourceSet

end TypeBridge
