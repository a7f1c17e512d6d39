import TypeBridge.Text.Json
import TypeBridge.Types.Info
import TypeBridge.Types.Name

/-!
# Probe reports

What a probe prints is one JSON array of records, in the order in which the types were asked about.
`Record.readAll` takes such a text apart and refuses anything else; `parse` checks the records
against the request; `print` is the text that a working probe prints.
-/

namespace TypeBridge.Probe

/-- What a probe says of one type. -/
structure Record where
  system : TypeSystem
  name : String
  signage : Signage
  kind : NumericKind
  size : Nat
deriving Repr, DecidableEq

/-- Why a probe's output is of no use. -/
inductive ReportFault where
  /-- The text is not an array of records. -/
  | unparseable
  | wrongCount (reported expected : Nat)
  /-- A record is about another type than the one asked about. -/
  | wrongType (record : Record) (requested : String)
deriving Repr, DecidableEq

/-- The wording of a fault. -/
def ReportFault.message : ReportFault → String
  | .unparseable => "unparseable probe output"
  | .wrongCount reported expected =>
    "probe reported " ++ toString reported ++ " types, expected " ++ toString expected
  | .wrongType record requested =>
    "probe reported " ++ record.system.render ++ ":" ++ record.name ++ " where native:" ++
      requested ++ " was expected"

open Text.Json.Reader in
/-- Read the name of a type system, in its one spelling. -/
def readSystem (text : List Char) : Option (TypeSystem × List Char) := do
  let (word, rest) ← choiceLiteral text
  match word with
  | "native" => return (.native, rest)
  | "arraylib" => return (.arrayLib, rest)
  | "ffi" => return (.ffi, rest)
  | _ => none

namespace Record

open Text.Json.Reader

/-- Read one record: an array of exactly five items. -/
def read (text : List Char) : Option (Record × List Char) := do
  let text ← expect '[' text
  let (system, text) ← readSystem text
  let text ← expect ',' text
  let (name, text) ← stringLiteral text
  let text ← expect ',' text
  let (word, text) ← choiceLiteral text
  let signage ← Signage.parse? word
  let text ← expect ',' text
  let (word, text) ← choiceLiteral text
  let kind ← NumericKind.parse? word
  let text ← expect ',' text
  let (size, text) ← naturalLiteral text
  if size < 0x10000000000000000 then
    let text ← expect ']' text
    return (⟨system, name, signage, kind, size⟩, text)
  else none

/-- Read the records up to the bracket that closes the array, at most `fuel` of them. -/
def readRest : Nat → List Char → Option (List Record × List Char)
  | 0, _ => none
  | fuel + 1, text => do
    let (record, text) ← read text
    match expect ',' text with
    | some text =>
      let (records, text) ← readRest fuel text
      return (record :: records, text)
    | none =>
      let text ← expect ']' text
      return ([record], text)

/-- Read a text that is one array of records and nothing else. -/
def readAll (text : List Char) : Option (List Record) := do
  let body ← expect '[' text
  match expect ']' body with
  | some rest => if (skipGap rest).isEmpty then some [] else none
  | none =>
    let (records, rest) ← readRest text.length body
    if (skipGap rest).isEmpty then some records else none

/-- The fact that a record states, if it is about the type asked about. -/
def answer (record : Record) (requested : String) : Except ReportFault (TypeName × TypeInfo) :=
  if record.system = .native ∧ record.name = requested then
    .ok (.native record.name, ⟨record.signage, record.kind, some record.size⟩)
  else .error (.wrongType record requested)

end Record

/-- Pair every record with the type asked about at its place. -/
def answers : List Record → List String → Except ReportFault (List (TypeName × TypeInfo))
  | record :: records, requested :: others => do
    let answer ← record.answer requested
    let rest ← answers records others
    return answer :: rest
  | _, _ => .ok []

/-- The facts that a probe's output states about the types asked about, in their order. -/
def parse (output : String) (requested : List String) :
    Except ReportFault (List (TypeName × TypeInfo)) :=
  match Record.readAll output.toList with
  | none => .error .unparseable
  | some records =>
    if records.length = requested.length then answers records requested
    else .error (.wrongCount records.length requested.length)

/-- The line that a probe prints for a type; texts are put between quotes as they are. -/
def printRecord (name signage kind size : String) (last : Bool) : String :=
  "  [\"native\", \"" ++ name ++ "\", \"" ++ signage ++ "\", \"" ++ kind ++ "\", " ++ size ++ "]" ++
    (if last then "" else ",") ++ "\n"

/-- The lines that a probe prints for some types. -/
def printRecords : List (String × Signage × NumericKind × Nat) → String
  | [] => ""
  | [(name, signage, kind, size)] =>
    printRecord name signage.render kind.render (toString size) true
  | (name, signage, kind, size) :: rest =>
    printRecord name signage.render kind.render (toString size) false ++ printRecords rest

/-- What a working probe prints for some types. -/
def print (types : List (String × Signage × NumericKind × Nat)) : String :=
  "[\n" ++ printRecords types ++ "]\n"

end TypeBridge.Probe
