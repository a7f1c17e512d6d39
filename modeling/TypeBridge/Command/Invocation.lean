import TypeBridge.Types.Name

/-!
# The command line

An `Invocation` is what the program is asked to do. `Invocation.parse` reads it from the arguments:
options, then a command, then the options and words of that command. The options `--config` and
`--header` are accepted on both sides of the command; what stands behind it wins.
-/

namespace TypeBridge.Command

/-- What the program is asked to do. -/
inductive Request where
  /-- Print what is known of some native types; of all if none is named. -/
  | probe (types : List String)
  /-- Print the map into a system. -/
  | typeMap (target : TypeSystem)
deriving Repr, DecidableEq

/-- A request with the options that apply to all requests. -/
structure Invocation where
  configFile : Option String
  /-- Headers for the probe programs. -/
  headers : List String
  request : Request
deriving Repr, DecidableEq

/-- Why the arguments are refused. -/
inductive UsageFault where
  | noCommand
  | unknownCommand (word : String)
  | unknownOption (name : String)
  | missingValue (name : String)
  | repeated (name : String)
  | badValue (name value : String)
  | unexpected (word : String)
  | missingTarget
deriving Repr, DecidableEq

/-- The wording of a fault. -/
def UsageFault.message : UsageFault → String
  | .noCommand => "a command is required: probe or typemap"
  | .unknownCommand word => "unknown command `" ++ word ++ "`"
  | .unknownOption name => "unknown option `" ++ name ++ "`"
  | .missingValue name => "option `" ++ name ++ "` needs a value"
  | .repeated name => "option `" ++ name ++ "` is given twice"
  | .badValue name value => "option `" ++ name ++ "` cannot be `" ++ value ++ "`"
  | .unexpected word => "unexpected word `" ++ word ++ "`"
  | .missingTarget => "option `--target` is required"

/-- The options that are known. -/
inductive OptionName where
  | config
  | header
  | target
deriving Repr, DecidableEq

/-- An option as it is shown. -/
def OptionName.render : OptionName → String
  | .config => "--config"
  | .header => "--header"
  | .target => "--target"

/-- The option that a word between dashes and value names. -/
def OptionName.ofLong? (name : String) : Option OptionName :=
  match name with
  | "config" => some .config
  | "header" => some .header
  | "target" => some .target
  | _ => none

/-- The option that a single letter names. -/
def OptionName.ofLetter? : Char → Option OptionName
  | 'c' => some .config
  | 't' => some .target
  | _ => none

/-- What an argument is by its form. -/
inductive Item where
  /-- A word that is no option; a single dash is one. -/
  | word (text : String)
  /-- After two dashes all arguments are words. -/
  | onlyWords
  /-- An option, perhaps with a value attached. -/
  | option (name : OptionName) (value : Option String)
  | unknown (text : String)
deriving Repr, DecidableEq

/-- A value that may have an equals sign in front. -/
def attachedValue (value : List Char) : Option String :=
  match value with
  | [] => none
  | '=' :: rest => some (String.ofList rest)
  | chars => some (String.ofList chars)

/-- What an argument is by its form. -/
def Item.ofArgument (argument : String) : Item :=
  match argument.toList with
  | ['-', '-'] => .onlyWords
  | '-' :: '-' :: rest =>
    let name := rest.takeWhile (· != '=')
    let value := match rest.dropWhile (· != '=') with
      | [] => none
      | _ :: value => some (String.ofList value)
    match OptionName.ofLong? (String.ofList name) with
    | some known => .option known value
    | none => .unknown argument
  | '-' :: letter :: rest =>
    match OptionName.ofLetter? letter with
    | some known => .option known (attachedValue rest)
    | none => .unknown argument
  | _ => .word argument

/-- The options and words read so far on one side of the command. -/
structure Level where
  configFile : Option String
  headers : List String
  target : Option TypeSystem
  words : List String
deriving Repr, DecidableEq

namespace Level

/-- Nothing read. -/
def empty : Level := ⟨none, [], none, []⟩

/-- Take an option with its value. Headers add up; other options stand once. -/
def set (level : Level) (option : OptionName) (value : String) : Except UsageFault Level :=
  match option with
  | .header => .ok { level with headers := level.headers ++ [value] }
  | .config =>
    if level.configFile.isSome then .error (.repeated option.render)
    else if value.isEmpty then .error (.missingValue option.render)
    else .ok { level with configFile := some value }
  | .target =>
    if level.target.isSome then .error (.repeated option.render)
    else
      match TypeSystem.parse value with
      | .ok system => .ok { level with target := some system }
      | .error _ => .error (.badValue option.render value)

/-- One more word. -/
def addWord (level : Level) (word : String) : Level :=
  { level with words := level.words ++ [word] }

end Level

/-- The value of an option, with the arguments behind it: the one attached, else the next argument,
which must not have the form of an option. -/
def takeValue (option : OptionName) (attached : Option String) (rest : List String) :
    Except UsageFault (String × { others : List String // others.length ≤ rest.length }) :=
  match attached, rest with
  | some value, rest => .ok (value, ⟨rest, Nat.le_refl _⟩)
  | none, next :: others =>
    match Item.ofArgument next with
    | .word value => .ok (value, ⟨others, Nat.le_succ _⟩)
    | _ => .error (.missingValue option.render)
  | none, [] => .error (.missingValue option.render)

/-- Read the arguments in front of the command: what was read, and the command with the arguments
behind it. -/
def readFront (level : Level) (args : List String) :
    Except UsageFault (Level × String × List String) :=
  match args with
  | [] => .error .noCommand
  | argument :: rest =>
    match Item.ofArgument argument with
    | .word word => .ok (level, word, rest)
    | .onlyWords =>
      match rest with
      | [] => .error .noCommand
      | word :: _ => .error (.unexpected word)
    | .unknown text => .error (.unknownOption text)
    | .option .target _ => .error (.unknownOption argument)
    | .option option attached =>
      match takeValue option attached rest with
      | .error fault => .error fault
      | .ok (value, others) =>
        match level.set option value with
        | .error fault => .error fault
        | .ok level => readFront level others.val
termination_by args.length
decreasing_by have := others.property; simp; omega

/-- Read the arguments behind a command, which may take a target or not. -/
def readBehind (takesTarget : Bool) (level : Level) (args : List String) :
    Except UsageFault Level :=
  match args with
  | [] => .ok level
  | argument :: rest =>
    match Item.ofArgument argument with
    | .word word => readBehind takesTarget (level.addWord word) rest
    | .onlyWords => .ok { level with words := level.words ++ rest }
    | .unknown text => .error (.unknownOption text)
    | .option option attached =>
      if option = .target ∧ !takesTarget then .error (.unknownOption argument)
      else
        match takeValue option attached rest with
        | .error fault => .error fault
        | .ok (value, others) =>
          match level.set option value with
          | .error fault => .error fault
          | .ok level => readBehind takesTarget level others.val
termination_by args.length
decreasing_by
  · simp
  · have := others.property; simp; omega

namespace Invocation

/-- A request with the options of both sides; those behind the command win. -/
def ofLevels (front behind : Level) (request : Request) : Invocation where
  configFile := behind.configFile.or front.configFile
  headers := if behind.headers.isEmpty then front.headers else behind.headers
  request := request

/-- Read the arguments. -/
def parse (args : List String) : Except UsageFault Invocation := do
  let (front, command, rest) ← readFront .empty args
  match command with
  | "probe" =>
    let behind ← readBehind false .empty rest
    return ofLevels front behind (.probe behind.words)
  | "typemap" =>
    let behind ← readBehind true .empty rest
    match behind.words, behind.target with
    | word :: _, _ => .error (.unexpected word)
    | [], none => .error .missingTarget
    | [], some target => return ofLevels front behind (.typeMap target)
  | word => .error (.unknownCommand word)

end Invocation

end TypeBridge.Command
