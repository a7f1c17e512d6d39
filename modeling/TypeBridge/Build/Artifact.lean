import TypeBridge.Build.Sources
import TypeBridge.Config.Build

/-!
# Artifacts

`compileLibrary` and `compileExecutable` turn a source set into an artifact inside the set's
directory. What stands at the artifact's place is taken away before the compiler runs, so an
artifact that is returned was made by that very run. `load` opens a shared library.
-/

namespace TypeBridge

/-- What a build is asked for beyond its configuration. -/
structure BuildRequest where
  exportSymbols : List String
  includeDirs : List String
  libraryDirs : List String
  libraries : List String
  /-- Macros to define, with their values if they have any. -/
  macros : List (String × Option String)
  compileFlags : List String
  linkFlags : List String
deriving Repr, DecidableEq

/-- Nothing beyond the configuration. -/
def BuildRequest.plain : BuildRequest := ⟨[], [], [], [], [], [], []⟩

/-- The two kinds of artifact. -/
inductive ArtifactKind where
  | sharedLibrary
  | executable
deriving Repr, DecidableEq

/-- An artifact that was linked and not yet loaded. -/
structure Artifact where
  module : String
  path : String
  kind : ArtifactKind
  /-- The symbols that it was asked to export. -/
  exports : List String
deriving Repr, DecidableEq

/-- How a macro is defined. -/
def macroFlag : String × Option String → String
  | (name, some value) => "-D" ++ name ++ "=" ++ value
  | (name, none) => "-D" ++ name

/-- The arguments of the compiler driver; sources stand before libraries, since the linker takes
them in order. -/
def commandArguments (config : BuildConfig) (sources : SourceSet) (request : BuildRequest)
    (output : String) (kindFlags : List String) : List String :=
  ["-std=" ++ config.standard, config.optimization.flag] ++ kindFlags ++
    request.macros.map macroFlag ++ request.includeDirs.map ("-I" ++ ·) ++
    request.compileFlags ++ config.compileFlags ++
    sources.sources ++ ["-o", output] ++
    request.libraryDirs.map ("-L" ++ ·) ++ request.libraries.map ("-l" ++ ·) ++
    request.linkFlags ++ config.linkFlags

/-- Make the set's directory and clear the place of the artifact. -/
def clearPlace (directory output : String) : Step Workbench BuildFault Unit := fun bench =>
  match bench.files.createDirectories directory with
  | .error fault => (.error (.file directory fault), bench)
  | .ok files =>
    let bench := { bench with files := files }
    if files.contains output then
      match files.remove output with
      | .error fault => (.error (.file output fault), bench)
      | .ok files => (.ok (), { bench with files := files })
    else (.ok (), bench)

/-- Run the compiler and take the artifact it leaves at `output`. -/
def produce (machine : Machine) (config : BuildConfig) (sources : SourceSet)
    (request : BuildRequest) (output : String) (kindFlags : List String) (kind : ArtifactKind) :
    Step Workbench BuildFault Artifact := do
  clearPlace sources.directory output
  let args := commandArguments config sources request output kindFlags
  let job : Job := ⟨config.driver, args, sources.directory, config.limitMillis⟩
  let result ← (runProgram machine job).attempt
  let bench ← Step.get
  match result with
  | .error fault =>
    Step.fail (.compile sources.module (String.intercalate " " (config.driver :: args))
      "not started" ("failed to spawn `" ++ config.driver ++ "`: " ++ fault.message)
      (sources.listing bench.files))
  | .ok report =>
    if report.success ∧ bench.files.contains output then
      return ⟨sources.module, output, kind, request.exportSymbols⟩
    else
      Step.fail (.compile sources.module report.command report.status report.diagnostics
        (sources.listing bench.files))

/-- Where the shared library of a source set is put. -/
def libraryPath (target : Target) (sources : SourceSet) : String :=
  Path.join sources.directory (target.libraryName sources.artifactStem)

/-- Where the executable of a source set is put. -/
def executablePath (target : Target) (sources : SourceSet) : String :=
  let path := Path.join sources.directory sources.artifactStem
  if target.executableExtension.isEmpty then path
  else Path.withExtension path target.executableExtension

/-- Build a shared library. -/
def compileLibrary (machine : Machine) (config : BuildConfig) (sources : SourceSet)
    (request : BuildRequest) : Step Workbench BuildFault Artifact :=
  let flags := config.target.libraryFlags ++ request.exportSymbols.flatMap config.target.exportFlags
  produce machine config sources request (libraryPath config.target sources) flags .sharedLibrary

/-- Build an executable. -/
def compileExecutable (machine : Machine) (config : BuildConfig) (sources : SourceSet)
    (request : BuildRequest) : Step Workbench BuildFault Artifact :=
  produce machine config sources request (executablePath config.target sources) [] .executable

/-- The reason given for a file that is no shared library. -/
def notLibraryReason : String := "file is not a shared library"

/-- Open the shared library at a path. -/
def loadPath (path : String) (exports : List String) : Step Workbench BuildFault LoadedLibrary :=
  fun bench =>
    if !bench.files.contains path then (.error (.load path "no such file"), bench)
    else
      match bench.files.content? path with
      | some (.library image) =>
        let (handle, handles) := bench.handles.opened
        (.ok ⟨handle, path, exports, image⟩, { bench with handles := handles })
      | _ => (.error (.load path notLibraryReason), bench)

/-- Open the shared library that was built. -/
def Artifact.load (artifact : Artifact) : Step Workbench BuildFault LoadedLibrary :=
  match artifact.kind with
  | .executable =>
    Step.fail (.load artifact.path "artifact is an executable, not a loadable library")
  | .sharedLibrary => loadPath artifact.path artifact.exports

/-- A further owner of a loaded library. -/
def LoadedLibrary.clone (library : LoadedLibrary) : Step Workbench BuildFault LoadedLibrary :=
  fun bench => (.ok library, { bench with handles := bench.handles.acquire library.handle })

/-- Give up a loaded library without asking what becomes of it. -/
def LoadedLibrary.drop (library : LoadedLibrary) (bench : Workbench) : Workbench :=
  { bench with handles := bench.handles.release library.handle 1 }

/-- Give up a loaded library. -/
def LoadedLibrary.unload (library : LoadedLibrary) : Step Workbench BuildFault UnloadOutcome :=
  fun bench =>
    let (outcome, handles) := bench.handles.unload library.handle
    (.ok outcome, { bench with handles := handles })

end TypeBridge
