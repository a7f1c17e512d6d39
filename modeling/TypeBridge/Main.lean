import TypeBridge.Command.Answer
import TypeBridge.Scripted.Compiler

/-!
# The program

The program reads its arguments and the environment, answers on the standard streams and exits. Its
compiler is the scripted one of a 64-bit system.
-/

namespace TypeBridge

/-- The directories that the program starts with. -/
def startingFiles : FileTree Content := FileTree.empty.put ["tmp"] .directory

/-- The variables that a configuration depends on. -/
def variableNames : List String :=
  [BuildConfig.compilerVariable, BuildConfig.commonCompilerVariable,
   BuildConfig.compileFlagsVariable, BuildConfig.linkFlagsVariable,
   BuildConfig.optimizationVariable, BuildConfig.keepScratchVariable,
   BuildConfig.timeLimitVariable]

/-- The environment of the program; the scripted compiler is the one that is used if none is
named. -/
def readEnvironment : IO Environment := do
  let values ← variableNames.mapM fun name => do return (name, ← IO.getEnv name)
  return fun name =>
    match (values.lookup name).join with
    | some value => some value
    | none => if name = BuildConfig.commonCompilerVariable then some Scripted.driverName else none

end TypeBridge

/-- Answer the arguments. -/
def main (args : List String) : IO UInt32 := do
  let env ← TypeBridge.readEnvironment
  let bench := TypeBridge.Workbench.fresh "/tmp" TypeBridge.startingFiles
  let machine := TypeBridge.Scripted.Script.words.machine
  let outcome := TypeBridge.Command.answer machine env .linux bench args
  IO.print outcome.output
  IO.eprint outcome.errors
  return UInt32.ofNat outcome.exitCode
