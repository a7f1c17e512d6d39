import TypeBridge.Build.Artifact
import TypeBridge.Probe.Program
import TypeBridge.Probe.Report
import TypeBridge.Types.Fault

/-!
# Probing

`probe` asks about native types: it builds the probe program in a scratch directory, runs it and
reads its report. Nothing is built when nothing is asked.
-/

namespace TypeBridge.Probe

/-- The name of the module that a probe is built as. -/
def moduleName : String := "phillip_probe"

/-- The file that holds the program. -/
def sourceName : String := "probe.cpp"

/-- What scratch directories of probes are called. -/
def scratchLabel : String := "phillip-probe-"

/-- The fault of a probe whose build failed: a refused program is shown. -/
def buildFault (text : String) : BuildFault → TypeFault
  | .compile _ _ _ diagnostics _ => .probeCompilation diagnostics text
  | fault => .build fault

/-- The facts that a run of the program states. -/
def facts (text : String) (types : List String) (report : RunReport) :
    Except TypeFault (List (TypeName × TypeInfo)) :=
  if report.success then
    match parse report.output types with
    | .ok facts => .ok facts
    | .error fault => .error (.probeExecution fault.message text)
  else
    .error (.probeExecution
      ("probe exited with " ++ report.status ++ ": " ++ report.errors) text)

/-- Build the program of some types, run it and read what it prints. -/
def runProgram (machine : Machine) (config : BuildConfig) (text : String) (types : List String) :
    Step Workbench TypeFault (List (TypeName × TypeInfo)) := do
  let directory ← (makeScratch scratchLabel).widen fun fault =>
    .probeExecution ("failed to create probe directory: " ++ fault.message) text
  let sources ← ((SourceSet.empty moduleName directory).writeSource sourceName text).widen
    TypeFault.build
  let artifact ← (compileExecutable machine config sources .plain).widen (buildFault text)
  let job : Job := ⟨artifact.path, [], directory, config.limitMillis⟩
  let report ← (TypeBridge.runProgram machine job).widen fun fault =>
    .probeExecution ("failed to run " ++ artifact.path ++ ": " ++ fault.message) text
  Step.ofExcept (facts text types report)

/-- The facts about some native types, in their order. -/
def probe (machine : Machine) (config : BuildConfig) (headers types : List String) :
    Step Workbench TypeFault (List (TypeName × TypeInfo)) :=
  if types.isEmpty then pure [] else runProgram machine config (program headers types) types

end TypeBridge.Probe
