import TypeBridge.Generated.Binding

/-!
# Built modules

`NativeModule.build` writes a module and its header into a scratch directory of their own, compiles
them and loads the library. Unless other symbols are asked for, every interface is exported.
`buildAndBind` binds the interfaces too.
-/

namespace TypeBridge

/-- Why a module was not built, bound or called. -/
inductive BridgeFault where
  | config (fault : ConfigFault)
  | type (fault : TypeFault)
  | build (fault : BuildFault)
  | generate (fault : GenerateFault)
  | marshal (fault : MarshalFault)
  /-- There is no scratch directory to build in. -/
  | scratch (fault : FileFault)
deriving Repr, DecidableEq

/-- The wording of a fault. -/
def BridgeFault.message : BridgeFault → String
  | .config fault => fault.message
  | .type fault => fault.message
  | .build fault => fault.message
  | .generate fault => fault.message
  | .marshal fault => fault.message
  | .scratch fault => "failed to create a build directory: " ++ fault.message

/-- A module that was compiled and loaded, with the files it was compiled from. -/
structure BuiltModule where
  library : LoadedLibrary
  artifact : Artifact
  source : String
  header : String
  directory : String

/-- A step of a module on a workbench. -/
abbrev BuildStep := Step (NativeModule × Workbench) BridgeFault

namespace NativeModule

/-- What scratch directories of modules are called. -/
def scratchLabel : String := "phillip-module-"

/-- The file that holds the header of a module. -/
def headerFile (module : NativeModule) (sources : SourceSet) : String :=
  module.headerName.getD (sources.artifactStem ++ ".hpp")

/-- The file that holds the source of a module. -/
def sourceFile (sources : SourceSet) : String := sources.artifactStem ++ ".cpp"

/-- What is asked of the build: the interfaces are exported if no symbols are named, and headers are
looked for in the scratch directory last. -/
def completeRequest (module : NativeModule) (request : BuildRequest) (directory : String) :
    BuildRequest :=
  { request with
    exportSymbols :=
      if request.exportSymbols.isEmpty then module.interfaceNames else request.exportSymbols
    includeDirs := request.includeDirs ++ [directory] }

/-- Compile the sources of a module and load the library. -/
def compileAndLoad (machine : Machine) (config : BuildConfig) (sources : SourceSet)
    (request : BuildRequest) : Step Workbench BuildFault (Artifact × LoadedLibrary) := do
  let artifact ← compileLibrary machine config sources request
  let library ← artifact.load
  return (artifact, library)

/-- Write, compile and load a module. -/
def build (machine : Machine) (config : BuildConfig) (request : BuildRequest) :
    BuildStep BuiltModule := do
  let directory ← Step.onSecond ((makeScratch scratchLabel).widen BridgeFault.scratch)
  let (module, _) ← Step.get
  let sources := SourceSet.empty module.name directory
  let headerText ← Step.onFirst (renderHeader.widen BridgeFault.generate)
  let header ← Step.onSecond
    ((sources.writeHeader (module.headerFile sources) headerText).widen BridgeFault.build)
  let sourceText ← Step.onFirst (renderModule.widen BridgeFault.generate)
  let sources ← Step.onSecond
    ((sources.writeSource (sourceFile sources) sourceText).widen BridgeFault.build)
  let (artifact, library) ← Step.onSecond
    ((compileAndLoad machine config sources (module.completeRequest request directory)).widen
      BridgeFault.build)
  return ⟨library, artifact, Path.join directory (sourceFile sources), header, directory⟩

/-- Build a module and bind its interfaces. A module that cannot be bound gives its library up. -/
def buildAndBind (machine : Machine) (config : BuildConfig) (request : BuildRequest) :
    BuildStep (BuiltModule × BoundModule) := do
  let built ← build machine config request
  let (module, _) ← Step.get
  let result ← Step.onSecond (BoundModule.bind module built.library).attempt
  match result with
  | .ok bound => return (built, bound)
  | .error fault =>
    Step.onSecond (Step.modify built.library.drop)
    Step.fail (.generate fault)

end NativeModule

end TypeBridge
