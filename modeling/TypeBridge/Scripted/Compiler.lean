import TypeBridge.Build.Machine
import TypeBridge.Scripted.Library
import TypeBridge.Text.Json
import TypeBridge.Types.Info

/-!
# A scripted compiler

A `Script` says how a compiler driver behaves: what it prints, how it ends, what it leaves behind,
and what it knows of types. `Script.machine` is the machine on which that driver, and what it
builds, are the only programs. The programs it builds are probes: they print what the script knows
of the types that their source reports.
-/

namespace TypeBridge.Scripted

/-- What the compiler knows of a type, in the words in which a probe prints it. -/
structure KnownType where
  name : String
  signage : String
  kind : String
  size : String
deriving Repr, DecidableEq

/-- What a compilation that succeeds leaves at the place of its output. -/
inductive Product where
  | nothing
  /-- A file that is neither a library nor a program. -/
  | garbage
  /-- A library or a program, as the arguments ask. -/
  | usual
  /-- A library, or a program that the system refuses to run. -/
  | unrunnable
deriving Repr, DecidableEq

/-- How the compiler behaves. -/
structure CompileScript where
  /-- How long it waits before it does anything, in milliseconds. -/
  delay : Nat
  output : List UInt8
  errors : List UInt8
  ending : Ending
  product : Product
deriving Repr, DecidableEq

/-- How the programs that it builds behave. -/
structure RunScript where
  /-- What they print instead of the records of their types. -/
  output : Option (List UInt8)
  errors : List UInt8
  ending : Ending
deriving Repr, DecidableEq

/-- The behaviour of a compiler. -/
structure Script where
  types : List KnownType
  compile : CompileScript
  run : RunScript
deriving Repr, DecidableEq

/-- A compiler without faults that knows some types. -/
def Script.plain (types : List KnownType) : Script :=
  ⟨types, ⟨0, [], [], .exited 0, .usual⟩, ⟨none, [], .exited 0⟩⟩

/-- The name of the compiler driver. -/
def driverName : String := "fakecc"

/-- The text behind `opening`, if a text starts with it. -/
def behind : List Char → List Char → Option (List Char)
  | [], text => some text
  | _ :: _, [] => none
  | c :: opening, d :: text => if c = d then behind opening text else none

/-- The text up to the first place where `mark` stands, if there is one. -/
def upTo (mark : List Char) : List Char → Option (List Char)
  | [] => if mark.isEmpty then some [] else none
  | c :: text =>
    if (behind mark (c :: text)).isSome then some [] else (upTo mark text).map (c :: ·)

/-- The type that a line of a probe reports: the line holds it as a type and as a text. -/
def reportedType? (line : String) : Option String := do
  let body ← behind "    report<".toList line.toList
  let name ← upTo ">(\"".toList body
  let _ ← behind (">(\"".toList ++ name ++ "\", ".toList) (body.drop name.length)
  return String.ofList name

/-- The types that a source reports, in order. -/
def reportedTypes (source : String) : List String :=
  ((Text.pieces (fun c => c = '\n') source.toList).map String.ofList).filterMap reportedType?

namespace Script

/-- What the compiler knows of a type. -/
def known? (script : Script) (name : String) : Option KnownType :=
  script.types.find? fun type => type.name = name

/-- The record that a probe prints for a type. -/
def recordLine (type : KnownType) : String :=
  "  [\"native\", " ++ Text.Json.quote type.name ++ ", " ++ Text.Json.quote type.signage ++ ", " ++
    Text.Json.quote type.kind ++ ", " ++ type.size ++ "]"

/-- What a probe prints for some types. -/
def report (types : List KnownType) : String :=
  "[\n" ++ String.intercalate ",\n" (types.map recordLine) ++ "\n]\n"

/-- What a probe prints about the types that it reports, all of them known. -/
def probeOutput (script : Script) (names : List String) : List UInt8 :=
  script.run.output.getD (Text.Utf8.encode (report (names.filterMap script.known?)))

/-- The program that reports some types. -/
def probeProgram (script : Script) (names : List String) : Content :=
  .program (
    if script.compile.product = .unrunnable then .error .permissionDenied
    else .ok ⟨script.run.ending, script.probeOutput names, script.run.errors⟩)

/-- What the compiler says about a type that it does not know. -/
def unknownType (name : String) : String :=
  "error: unknown type " ++ String.ofList [Char.ofNat 0x60] ++ name ++
    String.ofList [Char.ofNat 0x60] ++ "\n"

/-- The argument before a place of the arguments. -/
def before? (args : List String) (place : Nat) : Option String :=
  if place = 0 then none else args[place - 1]?

/-- The text of a source; a source that is not there is empty. -/
def sourceText (files : FileTree Content) (path : Option String) : String :=
  match path.bind files.content? with
  | some (.octets octets) => Text.Utf8.decodeLossy octets
  | _ => ""

/-- What the compiler prints and leaves behind when it gets as far as making its output. Sources
and output are looked for in the directory that it runs in. -/
def produce (script : Script) (job : Job) (place : Nat) (output : String)
    (files : FileTree Content) : Transcript × FileTree Content :=
  let done : Transcript := ⟨.exited 0, script.compile.output, script.compile.errors⟩
  let leave (content : Content) : Transcript × FileTree Content :=
    match files.write (Path.join job.directory output) content with
    | .ok files => (done, files)
    | .error _ => ({ done with ending := .exited 1 }, files)
  if script.compile.product = .nothing then (done, files)
  else if script.compile.product = .garbage then leave (.octets (Text.Utf8.encode "garbage"))
  else if job.args.contains "-shared" then leave (.library library)
  else
    let source := (before? job.args place).map (Path.join job.directory)
    let names := reportedTypes (sourceText files source)
    let unknown := names.filter fun name => (script.known? name).isNone
    if unknown.isEmpty then leave (script.probeProgram names)
    else
      let errors := Text.Utf8.encode (String.join (unknown.map unknownType))
      (⟨.exited 1, done.output, done.errors ++ errors⟩, files)

/-- What the compiler does when it is started. -/
def compileOnce (script : Script) (job : Job) (files : FileTree Content) :
    Transcript × FileTree Content :=
  let transcript : Transcript :=
    ⟨script.compile.ending, script.compile.output, script.compile.errors⟩
  let place := job.args.idxOf "-o"
  match job.args[place + 1]? with
  | some output =>
    if script.compile.ending.success then script.produce job place output files
    else (transcript, files)
  | none => (transcript, files)

/-- Whether a time limit passes before the compiler does anything. -/
def isLate (script : Script) (limit : Option Nat) : Bool :=
  match limit with
  | some limit => limit = 0 || script.compile.delay ≥ limit
  | none => false

/-- What happens when a program is started. -/
def start (script : Script) (job : Job) (files : FileTree Content) :
    Except StartFault Launch × FileTree Content :=
  if (job.program :: job.args).any fun text => text.toList.contains (Char.ofNat 0) then
    (.error .nulByte, files)
  else if job.program = driverName then
    if script.isLate job.limit then (.ok .expired, files)
    else
      let (transcript, files) := script.compileOnce job files
      (.ok (.ended transcript), files)
  else
    match files.content? job.program with
    | some (.program reply) => (reply.map Launch.ended, files)
    | some _ => (.error .permissionDenied, files)
    | none => (.error .notFound, files)

/-- The machine on which a scripted compiler runs. -/
def machine (script : Script) : Machine := ⟨script.start, .caught⟩

end Script

/-- The machine words of a 64-bit system: what the compiler of such a system knows of the built-in
types. -/
def wordTypes : List (String × TypeInfo) :=
  [("char", .signed 1), ("float", .float 4), ("double", .float 8), ("int", .signed 4),
   ("long double", .float 16), ("short", .signed 2), ("long long", .signed 8), ("long", .signed 8),
   ("unsigned char", .unsigned 1), ("unsigned int", .unsigned 4),
   ("unsigned long long", .unsigned 8), ("unsigned long", .unsigned 8),
   ("unsigned short", .unsigned 2), ("signed char", .signed 1), ("bool", .unsigned 1)]

/-- Facts in the words in which a probe prints them. -/
def KnownType.ofInfo (name : String) (info : TypeInfo) : KnownType :=
  ⟨name, info.signage.render, info.kind.render, toString (info.size.getD 0)⟩

/-- A compiler of a 64-bit system that knows the built-in types. -/
def Script.words : Script := .plain (wordTypes.map fun (name, info) => .ofInfo name info)

end TypeBridge.Scripted
