import TypeBridge.Build.Files
import TypeBridge.Native.Library
import TypeBridge.Step
import TypeBridge.Words

/-!
# Running programs

A `Machine` says what happens when a `Job` is started: it is given the job and the files, and
answers with what the program printed and how it ended, or with the reason why it did not start. It
also says what the program that starts jobs there was built to do where a result is no word. A
`Workbench` is what builds act on: the files, a record of the jobs started, the libraries opened and
native memory. `runProgram` starts a job on a workbench and reports on it.
-/

namespace TypeBridge

/-- Why a program did not start. -/
inductive StartFault where
  | notFound
  | permissionDenied
  /-- An argument holds the character that ends arguments. -/
  | nulByte
deriving Repr, DecidableEq

/-- The system's wording. -/
def StartFault.message : StartFault → String
  | .notFound => "No such file or directory (os error 2)"
  | .permissionDenied => "Permission denied (os error 13)"
  | .nulByte => "nul byte found in provided data"

/-- Signals that end a program. -/
inductive Signal where
  | kill
  | terminate
deriving Repr, DecidableEq

/-- How a program ended by itself. -/
inductive Ending where
  | exited (code : Nat)
  | signalled (signal : Signal)
deriving Repr, DecidableEq

namespace Ending

/-- Only the exit code zero is a success. -/
def success : Ending → Bool
  | .exited code => code = 0
  | .signalled _ => false

/-- The wording of an ending. -/
def status : Ending → String
  | .exited code => "exit status: " ++ toString code
  | .signalled .kill => "signal: 9 (SIGKILL)"
  | .signalled .terminate => "signal: 15 (SIGTERM)"

end Ending

/-- What a program that ended by itself printed, and how it ended. -/
structure Transcript where
  ending : Ending
  output : List UInt8
  errors : List UInt8
deriving Repr, DecidableEq

/-- What became of a program that started. -/
inductive Launch where
  | ended (transcript : Transcript)
  /-- The time limit passed, and the program was stopped. -/
  | expired
deriving Repr, DecidableEq

/-- What a file holds. -/
inductive Content where
  | octets (octets : List UInt8)
  /-- A shared library that can be loaded. -/
  | library (image : LibraryImage)
  /-- A program that does the same whenever it is started. -/
  | program (reply : Except StartFault Transcript)

/-- A program to be started. -/
structure Job where
  program : String
  args : List String
  /-- The directory to run in, where paths that are not absolute start. -/
  directory : String
  /-- The time limit in milliseconds. -/
  limit : Option Nat
deriving Repr, DecidableEq

/-- What happens when a program is started among some files, which may change, and what arithmetic
does where a result is no word. -/
structure Machine where
  start : Job → FileTree Content → Except StartFault Launch × FileTree Content
  overflow : Overflow

/-- A program that was started, and what became of it. -/
structure LaunchRecord where
  job : Job
  result : Except StartFault Launch

/-- Whether a program that was started ended by itself. -/
def LaunchRecord.ended (launch : LaunchRecord) : Bool :=
  match launch.result with
  | .ok (.ended _) => true
  | _ => false

/-- The arguments of the last run of a program that ended by itself. -/
def lastArguments (program : String) (launches : List LaunchRecord) : Option (List String) :=
  let runs := launches.filter fun launch => launch.job.program = program && launch.ended
  runs.getLast?.map (·.job.args)

/-- What builds act on. -/
structure Workbench where
  files : FileTree Content
  /-- The programs started so far, the first one first. -/
  launches : List LaunchRecord
  handles : Handles
  memory : Memory
  /-- The directory in which scratch directories are made. -/
  scratchRoot : String

/-- A workbench on which nothing has happened. -/
def Workbench.fresh (scratchRoot : String) (files : FileTree Content) : Workbench :=
  ⟨files, [], .empty, .empty, scratchRoot⟩

/-- What is known of a program that was run. -/
structure RunReport where
  command : String
  success : Bool
  status : String
  output : String
  errors : String
deriving Repr, DecidableEq

/-- What a program printed: its errors, then its output on a line of its own. -/
def RunReport.diagnostics (report : RunReport) : String :=
  if report.output.isEmpty then report.errors
  else if report.errors.isEmpty ∨ report.errors.toList.getLast? = some '\n' then
    report.errors ++ report.output
  else report.errors ++ "\n" ++ report.output

/-- An argument as it is shown: in quotes if it is empty or holds a blank. -/
def showArgument (arg : String) : String :=
  if arg.isEmpty ∨ arg.toList.any Text.isBlank then "'" ++ arg ++ "'" else arg

/-- A command line as it is shown. -/
def showCommand (program : String) (args : List String) : String :=
  String.intercalate " " ((program :: args).map showArgument)

/-- The report on a program that started. -/
def Launch.report (command : String) (limit : Option Nat) : Launch → RunReport
  | .ended transcript =>
    { command := command
      success := transcript.ending.success
      status := transcript.ending.status
      output := Text.Utf8.decodeLossy transcript.output
      errors := Text.Utf8.decodeLossy transcript.errors }
  | .expired =>
    { command := command
      success := false
      status := "timed out after " ++ toString ((limit.getD 0) / 1000) ++ "s"
      output := ""
      errors := "" }

/-- Run a program, within a time limit if one is given. It fails only if the program does not
start. -/
def runProgram (machine : Machine) (job : Job) : Step Workbench StartFault RunReport :=
  fun bench =>
    let (result, files) := machine.start job bench.files
    let after := { bench with files := files, launches := bench.launches ++ [⟨job, result⟩] }
    (result.map (Launch.report (showCommand job.program job.args) job.limit), after)

/-- Whether a compiler driver starts and tells its version. -/
def driverAvailable (machine : Machine) (driver : String) (limit : Option Nat) :
    Step Workbench StartFault Bool := fun bench =>
  match runProgram machine ⟨driver, ["--version"], ".", limit⟩ bench with
  | (.ok report, after) => (.ok report.success, after)
  | (.error _, after) => (.ok false, after)

/-- The number that makes six places of a scratch directory's name. -/
def sixDigits (n : Nat) : String :=
  String.ofList ((List.range 6).map fun i => Char.ofNat (0x30 + n / Nat.pow 10 (5 - i) % 10))

/-- Make a directory that nothing stands at yet, under the scratch root; its name is `label` and a
number. -/
def makeScratch (label : String) : Step Workbench FileFault String := fun bench =>
  let path (n : Nat) : String := Path.join bench.scratchRoot (label ++ sixDigits n)
  let candidates := (List.range (bench.files.nodes.length + 1)).map path
  match candidates.find? (fun path => !bench.files.contains path) with
  | none => (.error .exists, bench)
  | some path =>
    match bench.files.createDirectories path with
    | .ok files => (.ok path, { bench with files := files })
    | .error fault => (.error fault, bench)

end TypeBridge
