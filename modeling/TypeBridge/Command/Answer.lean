import TypeBridge.Command.Invocation
import TypeBridge.Types.Session

/-!
# Answering requests

`answer` carries out what the command line asks for and says what the program prints and how it
exits: with 0 and a JSON text on success, with 1 if the request fails, with 2 if the arguments make
no request.
-/

namespace TypeBridge.Command

/-- What the program prints, and its exit code. -/
structure Outcome where
  exitCode : Nat
  output : String
  errors : String
deriving Repr, DecidableEq

/-- Why a request fails: what was being done, if that is said, and the cause. -/
structure Failure where
  activity : Option String
  cause : String
deriving Repr, DecidableEq

/-- A failure as it is printed. -/
def Failure.render (failure : Failure) : String :=
  match failure.activity with
  | some activity => "Error: " ++ activity ++ "\n\nCaused by:\n    " ++ failure.cause ++ "\n"
  | none => "Error: " ++ failure.cause ++ "\n"

/-- Run a step of a session while doing something. -/
def during {α : Type} (activity : Option String) (step : SessionStep α) :
    Step (Session × Workbench) Failure α :=
  step.widen fun fault => ⟨activity, fault.message⟩

/-- A type name as JSON. -/
def nameJson (name : TypeName) : Text.Json :=
  .object [("is_pointer", .bool name.isPointer), ("name", .text name.text),
    ("system", .text name.system.render)]

/-- A map as JSON. -/
def mapJson (map : TypeMap) : Text.Json :=
  .object [
    ("entries", .array (map.entries.map fun (name, counterpart) =>
      .array [nameJson name, nameJson counterpart])),
    ("pointer", (map.pointer.map nameJson).getD .null),
    ("target", .text map.target.render)]

/-- What is known of a type as JSON, under the name that it was asked for by. -/
def infoJson (name : String) (info : TypeInfo) : Text.Json :=
  .object [("name", .text name), ("numeric_kind", .text info.kind.render),
    ("signage", .text info.signage.render),
    ("size_bytes", (info.size.map Text.Json.number).getD .null)]

/-- What is known of some native types, in order. -/
def describeTypes (machine : Machine) :
    List String → Step (Session × Workbench) Failure (List Text.Json)
  | [] => pure []
  | name :: rest => do
    let info ← during none (Session.nativeInfo machine name)
    let others ← describeTypes machine rest
    return infoJson name info :: others

/-- The native types of a session, in the order of registration. -/
def nativeNames (session : Session) : List String :=
  (session.registry.ofSystem .native).map fun (name, _) => name.text

/-- Carry out a request in a session. -/
def carryOut (machine : Machine) : Request → Step (Session × Workbench) Failure Text.Json
  | .probe types => do
    during (some "probing native types") (Session.ensureNative machine types)
    let (session, _) ← Step.get
    let names := if types.isEmpty then nativeNames session else types
    return .array (← describeTypes machine names)
  | .typeMap target => do
    let map ← during (some ("building the " ++ target.render ++ " type map"))
      (Session.typeMap machine target)
    return mapJson map

/-- The configuration of an invocation: that of its file, else that of the environment. -/
def configuration (env : Environment) (target : Target) (invocation : Invocation) :
    Except Failure BuildConfig :=
  match invocation.configFile with
  | some path =>
    match BuildConfig.fromFile path with
    | .ok config => .ok (config.override env)
    | .error fault => .error ⟨some ("loading " ++ path), fault.message⟩
  | none => .ok (.fromEnvironment env target)

/-- A session for an invocation. -/
def session (config : BuildConfig) (invocation : Invocation) : Session :=
  invocation.headers.foldl Session.addProbeHeader (Session.start config)

/-- Carry out an invocation. -/
def run (machine : Machine) (env : Environment) (target : Target) (bench : Workbench)
    (invocation : Invocation) : Except Failure Text.Json :=
  match configuration env target invocation with
  | .error failure => .error failure
  | .ok config => ((carryOut machine invocation.request).run (session config invocation, bench)).1

/-- What the program prints for some arguments, and how it exits. -/
def answer (machine : Machine) (env : Environment) (target : Target) (bench : Workbench)
    (args : List String) : Outcome :=
  match Invocation.parse args with
  | .error fault => ⟨2, "", "error: " ++ fault.message ++ "\n"⟩
  | .ok invocation =>
    match run machine env target bench invocation with
    | .ok json => ⟨0, json.pretty ++ "\n", ""⟩
    | .error failure => ⟨1, "", failure.render⟩

end TypeBridge.Command
