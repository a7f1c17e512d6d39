import TypeBridge.Config.Target
import TypeBridge.Text.Blank

/-!
# Build configuration

`BuildConfig` says how sources become artifacts. `BuildConfig.override` lets environment variables
take precedence, field by field: a variable that is unset or blank leaves its field alone.
-/

namespace TypeBridge

/-- How hard the compiler tries. -/
inductive Optimization where
  | none
  | default
  | aggressive
deriving Repr, DecidableEq

namespace Optimization

/-- The compiler flag of a level. -/
def flag : Optimization → String
  | .none => "-O0"
  | .default => "-O2"
  | .aggressive => "-O3"

/-- A level is written as a digit or as a word. -/
def parse? : String → Option Optimization
  | "0" => some .none
  | "none" => some .none
  | "2" => some .default
  | "default" => some .default
  | "3" => some .aggressive
  | "aggressive" => some .aggressive
  | _ => .none

end Optimization

/-- How sources become artifacts. -/
structure BuildConfig where
  /-- The compiler driver; the target's own where none is given. -/
  compiler : Option String
  /-- The language standard. -/
  standard : String
  optimization : Optimization
  /-- Flags for every compilation. -/
  compileFlags : List String
  /-- Flags for every link. -/
  linkFlags : List String
  /-- Whether scratch directories outlive the session. -/
  keepScratch : Bool
  /-- The longest time that a single run of the compiler may take, in seconds. -/
  timeLimit : Option Nat
  target : Target
deriving Repr, DecidableEq

/-- Why no configuration was loaded. -/
inductive ConfigFault where
  /-- Configuration files are not read. -/
  | filesDisabled
deriving Repr, DecidableEq

/-- The wording of a fault. -/
def ConfigFault.message : ConfigFault → String
  | .filesDisabled => "TOML support not enabled. Enable the 'toml-config' feature."

/-- The values of environment variables; a variable without a value is unset. -/
abbrev Environment := String → Option String

/-- The value of a variable that is set and not blank. -/
def Environment.value? (env : Environment) (name : String) : Option String :=
  (env name).filter (fun value => !Text.isBlankString value)

namespace BuildConfig

/-- The configuration that applies where nothing is said. -/
def standardFor (target : Target) : BuildConfig where
  compiler := none
  standard := "c++17"
  optimization := .default
  compileFlags := []
  linkFlags := []
  keepScratch := false
  timeLimit := none
  target := target

/-- The driver that runs. -/
def driver (config : BuildConfig) : String :=
  config.compiler.getD config.target.defaultCompiler

/-- The time limit in milliseconds. -/
def limitMillis (config : BuildConfig) : Option Nat := config.timeLimit.map (· * 1000)

/-- Configuration files are refused, whatever they hold. -/
def fromFile (_path : String) : Except ConfigFault BuildConfig := .error .filesDisabled

/-- Read a number of 64 bits: decimal digits with an optional plus sign in front. -/
def parseSeconds? (text : String) : Option Nat :=
  let digits := match text.toList with
    | '+' :: rest => rest
    | chars => chars
  if digits.isEmpty then none
  else if digits.all Char.isDigit then
    let value := digits.foldl (fun value digit => value * 10 + (digit.toNat - 0x30)) 0
    if value < 0x10000000000000000 then some value else none
  else none

/-- A switch is off only when its variable says so. -/
def parseSwitch (text : String) : Bool := text != "false"

/-- The variable for the compiler. -/
def compilerVariable : String := "PHILLIP_CXX"

/-- The variable for the compiler that other tools honour too. -/
def commonCompilerVariable : String := "CXX"

/-- The variable for more compile flags. -/
def compileFlagsVariable : String := "PHILLIP_CXXFLAGS"

/-- The variable for more link flags. -/
def linkFlagsVariable : String := "PHILLIP_LDFLAGS"

/-- The variable for the optimization level. -/
def optimizationVariable : String := "PHILLIP_OPT_LEVEL"

/-- The variable that keeps scratch directories. -/
def keepScratchVariable : String := "PHILLIP_KEEP_TEMPS"

/-- The variable for the time limit in seconds. -/
def timeLimitVariable : String := "PHILLIP_COMPILE_TIMEOUT_SECS"

/-- The words of a variable; none if it is unset. -/
def flagWords (env : Environment) (name : String) : List String :=
  ((env.value? name).map Text.wordList).getD []

/-- Let environment variables override a configuration. Flags are added to those of the
configuration; a level that is not understood is ignored; a time limit that is not understood
removes the limit. -/
def override (env : Environment) (config : BuildConfig) : BuildConfig where
  compiler :=
    ((env.value? compilerVariable).or (env.value? commonCompilerVariable)).or config.compiler
  standard := config.standard
  optimization :=
    ((env.value? optimizationVariable).bind Optimization.parse?).getD config.optimization
  compileFlags := config.compileFlags ++ flagWords env compileFlagsVariable
  linkFlags := config.linkFlags ++ flagWords env linkFlagsVariable
  keepScratch := ((env.value? keepScratchVariable).map parseSwitch).getD config.keepScratch
  timeLimit :=
    match env.value? timeLimitVariable with
    | some text => parseSeconds? text
    | none => config.timeLimit
  target := config.target

/-- The configuration of an environment alone. -/
def fromEnvironment (env : Environment) (target : Target) : BuildConfig :=
  (standardFor target).override env

end BuildConfig

end TypeBridge
