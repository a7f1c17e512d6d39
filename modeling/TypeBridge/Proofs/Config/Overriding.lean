import Mathlib.Data.List.Basic
import TypeBridge.Config.Build
import TypeBridge.Proofs.Text.Cutting

/-!
# Environments that override configurations

A variable says something (`Environment.Says`) if it is set and not blank. `Part.variables` lists
what each part of a configuration listens to. A part listens to nothing else (`override_congr`) and
stays as it was while its variables are silent (`override_silent`); `Overrides` tells what it
becomes if they speak. A level that no one understands is ignored, but a time limit that no one
understands removes the limit (`override_timeLimit_of_unreadable`).
-/

namespace TypeBridge

/-! ## What variables say -/

namespace Environment

variable {env env' : Environment} {name text : String}

/-- A variable is set, and not blank. -/
def Says (env : Environment) (name text : String) : Prop :=
  env name = some text ∧ ∃ c ∈ text.toList, Text.isBlank c = false

/-- A variable is unset or blank. -/
def Silent (env : Environment) (name : String) : Prop := ∀ text, ¬ env.Says name text

theorem value?_eq_some_iff : env.value? name = some text ↔ env.Says name text := by
  rw [value?, Option.filter_eq_some_iff, Says, Text.isBlankString, Text.allBlank,
    Bool.not_eq_true', List.all_eq_false]
  simp only [Bool.not_eq_true]

theorem value?_eq_none_iff : env.value? name = none ↔ env.Silent name := by
  rw [Option.eq_none_iff_forall_ne_some]
  exact forall_congr' fun text => not_congr value?_eq_some_iff

/-- Variables that say the same have the same value. -/
theorem value?_congr (same : ∀ text, env.Says name text ↔ env'.Says name text) :
    env.value? name = env'.value? name :=
  Option.ext fun text => by rw [value?_eq_some_iff, value?_eq_some_iff, same text]

end Environment

/-! ## How values are spelled -/

/-- The spellings of a level. -/
def Optimization.spellings : Optimization → List String
  | .none => ["0", "none"]
  | .default => ["2", "default"]
  | .aggressive => ["3", "aggressive"]

/-- A level is read from its spellings and from no other text. -/
theorem Optimization.parse?_eq_some_iff {text : String} {level : Optimization} :
    parse? text = some level ↔ text ∈ level.spellings := by
  constructor
  · intro read
    unfold parse? at read
    split at read
    all_goals cases read
    all_goals decide
  · intro member
    cases level <;> simp only [spellings, List.mem_cons, List.not_mem_nil, or_false] at member <;>
      rcases member with rfl | rfl <;> rfl

namespace BuildConfig

/-- A number of seconds is spelled by its decimal digits, perhaps behind a plus sign, and fits a
word. -/
def SpellsSeconds (text : String) (seconds : Nat) : Prop :=
  ∃ digits : List Char, (text.toList = digits ∨ text.toList = '+' :: digits) ∧ digits ≠ [] ∧
    (∀ c ∈ digits, c.isDigit = true) ∧ Nat.ofDigitChars 10 digits 0 = seconds ∧
    seconds < 0x10000000000000000

/-- Digits are read as the number that they write. -/
theorem foldl_digits (digits : List Char) :
    digits.foldl (fun value digit => value * 10 + (digit.toNat - 0x30)) 0 =
      Nat.ofDigitChars 10 digits 0 := by
  rw [Nat.ofDigitChars_eq_foldl]
  congr 1
  funext value digit
  rw [Nat.mul_comm]
  rfl

/-- A number without a plus sign in front. -/
def unsigned : List Char → List Char
  | '+' :: rest => rest
  | chars => chars

/-- Digits are what is left of themselves and of themselves behind a plus sign. -/
theorem unsigned_eq_iff {chars digits : List Char} (all : ∀ c ∈ digits, c.isDigit = true) :
    unsigned chars = digits ↔ chars = digits ∨ chars = '+' :: digits := by
  unfold unsigned
  split
  · rename_i rest
    refine ⟨fun same => .inr (by rw [same]), ?_⟩
    rintro (rfl | same)
    · exact absurd (all '+' List.mem_cons_self) (by decide)
    · exact (List.cons.inj same).2
  · rename_i other
    refine ⟨.inl, ?_⟩
    rintro (same | same)
    · exact same
    · exact absurd same (other digits)

theorem parseSeconds?_eq (text : String) :
    parseSeconds? text =
      if (unsigned text.toList).isEmpty then none
      else if (unsigned text.toList).all Char.isDigit then
        if Nat.ofDigitChars 10 (unsigned text.toList) 0 < 0x10000000000000000 then
          some (Nat.ofDigitChars 10 (unsigned text.toList) 0)
        else none
      else none := by
  rw [← foldl_digits]
  rfl

/-- A time limit is read from its spellings and from no other text. -/
theorem parseSeconds?_eq_some_iff {text : String} {seconds : Nat} :
    parseSeconds? text = some seconds ↔ SpellsSeconds text seconds := by
  rw [parseSeconds?_eq]
  constructor
  · intro read
    split at read
    · cases read
    · rename_i filled
      split at read
      · rename_i digits
        split at read
        · rename_i small
          cases read
          have all := List.all_eq_true.mp digits
          exact ⟨_, (unsigned_eq_iff all).mp rfl, by simpa using filled, all, rfl, small⟩
        · cases read
      · cases read
  · rintro ⟨digits, shape, some, all, rfl, small⟩
    rw [(unsigned_eq_iff all).mpr shape, if_neg (by simpa using some),
      if_pos (List.all_eq_true.mpr all), if_pos small]

/-! ## The parts of a configuration -/

/-- The parts of a configuration. -/
inductive Part where
  | compiler
  | standard
  | optimization
  | compileFlags
  | linkFlags
  | keepScratch
  | timeLimit
  | target
deriving Repr, DecidableEq

/-- The variables that a part listens to. -/
def Part.variables : Part → List String
  | .compiler => [compilerVariable, commonCompilerVariable]
  | .standard => []
  | .optimization => [optimizationVariable]
  | .compileFlags => [compileFlagsVariable]
  | .linkFlags => [linkFlagsVariable]
  | .keepScratch => [keepScratchVariable]
  | .timeLimit => [timeLimitVariable]
  | .target => []

/-- Two configurations have a part in common. -/
def Part.Agrees : Part → BuildConfig → BuildConfig → Prop
  | .compiler, one, other => one.compiler = other.compiler
  | .standard, one, other => one.standard = other.standard
  | .optimization, one, other => one.optimization = other.optimization
  | .compileFlags, one, other => one.compileFlags = other.compileFlags
  | .linkFlags, one, other => one.linkFlags = other.linkFlags
  | .keepScratch, one, other => one.keepScratch = other.keepScratch
  | .timeLimit, one, other => one.timeLimit = other.timeLimit
  | .target, one, other => one.target = other.target

variable {env env' : Environment} {config config' result : BuildConfig} {text : String}

/-- A configuration is all of its parts. -/
theorem eq_of_agrees (all : ∀ part : Part, part.Agrees config config') : config = config' := by
  obtain ⟨compiler, standard, optimization, compileFlags, linkFlags, keepScratch, limit, target⟩ :=
    config
  congr
  · exact all .compiler
  · exact all .standard
  · exact all .optimization
  · exact all .compileFlags
  · exact all .linkFlags
  · exact all .keepScratch
  · exact all .timeLimit
  · exact all .target

/-- A part is made from that part of the configuration and from its own variables. -/
theorem override_congr (part : Part) (base : part.Agrees config config')
    (same : ∀ name ∈ part.variables, ∀ text, env.Says name text ↔ env'.Says name text) :
    part.Agrees (config.override env) (config'.override env') := by
  have values : ∀ name ∈ part.variables, env.value? name = env'.value? name :=
    fun name member => Environment.value?_congr (same name member)
  cases part <;> simp_all [Part.variables, Part.Agrees, override, flagWords]

/-- A part whose variables are silent stays as it was. -/
theorem override_silent (part : Part) (silent : ∀ name ∈ part.variables, env.Silent name) :
    part.Agrees (config.override env) config := by
  have values : ∀ name ∈ part.variables, env.value? name = none :=
    fun name member => Environment.value?_eq_none_iff.mpr (silent name member)
  cases part <;> simp_all [Part.variables, Part.Agrees, override, flagWords]

/-- A configuration stays as it was under an environment that says nothing. -/
theorem override_eq_self (silent : ∀ name, env.Silent name) : config.override env = config :=
  eq_of_agrees fun part => override_silent part fun name _ => silent name

/-! ## Variables that speak -/

/-- What a configuration becomes under an environment: parts whose variables are silent stay, flags
are added, and the other parts are what their variables spell. Of two variables for the compiler the
own one goes first. A level that is not one leaves that of the configuration. -/
structure Overrides (env : Environment) (config result : BuildConfig) : Prop where
  silent : ∀ part : Part, (∀ name ∈ part.variables, env.Silent name) → part.Agrees result config
  compiler : ∀ text, env.Says compilerVariable text → result.compiler = some text
  commonCompiler : env.Silent compilerVariable →
    ∀ text, env.Says commonCompilerVariable text → result.compiler = some text
  compileFlags : ∀ text words, env.Says compileFlagsVariable text →
    Text.Separated text.toList words →
      result.compileFlags = config.compileFlags ++ words.map String.ofList
  linkFlags : ∀ text words, env.Says linkFlagsVariable text → Text.Separated text.toList words →
    result.linkFlags = config.linkFlags ++ words.map String.ofList
  optimization : ∀ text level, env.Says optimizationVariable text →
    text ∈ Optimization.spellings level → result.optimization = level
  unreadableOptimization : ∀ text, env.Says optimizationVariable text →
    (∀ level, text ∉ Optimization.spellings level) → result.optimization = config.optimization
  keepScratch : ∀ text, env.Says keepScratchVariable text →
    (result.keepScratch = false ↔ text = "false")
  timeLimit : ∀ text seconds, env.Says timeLimitVariable text → SpellsSeconds text seconds →
    result.timeLimit = some seconds

/-- The words of a variable that speaks are the flags that are added. -/
theorem flagWords_of_spoken {name : String} {words : List (List Char)} (spoken : env.Says name text)
    (separated : Text.Separated text.toList words) :
    flagWords env name = words.map String.ofList := by
  rw [flagWords, Environment.value?_eq_some_iff.mpr spoken, Option.map_some, Option.getD_some,
    Text.wordList, Text.separated_iff.mp separated]

theorem override_overrides (env : Environment) (config : BuildConfig) :
    Overrides env config (config.override env) where
  silent := override_silent
  compiler text spoken := by
    rw [override, Environment.value?_eq_some_iff.mpr spoken]
    rfl
  commonCompiler silent text spoken := by
    rw [override, Environment.value?_eq_none_iff.mpr silent,
      Environment.value?_eq_some_iff.mpr spoken]
    rfl
  compileFlags text words spoken separated := by
    rw [override, flagWords_of_spoken spoken separated]
  linkFlags text words spoken separated := by
    rw [override, flagWords_of_spoken spoken separated]
  optimization text level spoken spelled := by
    rw [override, Environment.value?_eq_some_iff.mpr spoken, Option.bind_some,
      Optimization.parse?_eq_some_iff.mpr spelled, Option.getD_some]
  unreadableOptimization text spoken unreadable := by
    have none : Optimization.parse? text = none :=
      Option.eq_none_iff_forall_ne_some.mpr fun level read =>
        unreadable level (Optimization.parse?_eq_some_iff.mp read)
    rw [override, Environment.value?_eq_some_iff.mpr spoken, Option.bind_some, none,
      Option.getD_none]
  keepScratch text spoken := by
    rw [override, Environment.value?_eq_some_iff.mpr spoken, Option.map_some, Option.getD_some,
      parseSwitch, bne_eq_false_iff_eq]
  timeLimit text seconds spoken spelled := by
    rw [override, Environment.value?_eq_some_iff.mpr spoken]
    exact parseSeconds?_eq_some_iff.mpr spelled

/-- A time limit that no one understands removes the limit. -/
theorem override_timeLimit_of_unreadable (config : BuildConfig)
    (spoken : env.Says timeLimitVariable text)
    (unreadable : ∀ seconds, ¬ SpellsSeconds text seconds) :
    (config.override env).timeLimit = none := by
  rw [override, Environment.value?_eq_some_iff.mpr spoken]
  exact Option.eq_none_iff_forall_ne_some.mpr fun seconds read =>
    unreadable seconds (parseSeconds?_eq_some_iff.mp read)

/-- Environments override configurations part by part, each part by its own variables. What no one
understands is ignored as a level always, and as a time limit exactly if there was no limit before
or the limit is understood after all. -/
theorem override_exact (env : Environment) (config : BuildConfig) :
    Overrides env config (config.override env) ∧
    (∀ (part : Part) (env' : Environment) (config' : BuildConfig), part.Agrees config config' →
      (∀ name ∈ part.variables, ∀ text, env.Says name text ↔ env'.Says name text) →
        part.Agrees (config.override env) (config'.override env')) ∧
    ((∀ text, env.Says timeLimitVariable text → (∀ seconds, ¬ SpellsSeconds text seconds) →
        (config.override env).timeLimit = config.timeLimit) ↔
      config.timeLimit = none ∨
        ∀ text, env.Says timeLimitVariable text → ∃ seconds, SpellsSeconds text seconds) := by
  refine ⟨override_overrides env config, fun part _ _ => override_congr part, ?_, ?_⟩
  · intro ignored
    by_cases limited : config.timeLimit = none
    · exact .inl limited
    · refine .inr fun text spoken => ?_
      by_contra none
      have unreadable := not_exists.mp none
      rw [← ignored text spoken unreadable] at limited
      exact limited (override_timeLimit_of_unreadable config spoken unreadable)
  · rintro (unlimited | readable) text spoken unreadable
    · rw [unlimited, override_timeLimit_of_unreadable config spoken unreadable]
    · obtain ⟨seconds, spelled⟩ := readable text spoken
      exact absurd spelled (unreadable seconds)

/-- A configuration with a limit of half a minute. -/
def limited : BuildConfig := { standardFor .linux with timeLimit := some 30 }

/-- An environment in which one variable is set. -/
def setting (name text : String) : Environment := fun other =>
  if other = name then some text else none

theorem setting_spoken (name text : String) (solid : Text.isBlankString text = false) :
    (setting name text).Says name text := by
  rw [← Environment.value?_eq_some_iff, Environment.value?, setting, if_pos rfl, Option.filter_some,
    if_pos (by rw [solid]; rfl)]

/-- Minutes are not understood. -/
theorem not_spellsSeconds_minutes (seconds : Nat) : ¬ SpellsSeconds "5m" seconds := by
  rw [← parseSeconds?_eq_some_iff, show parseSeconds? "5m" = none by decide +kernel]
  nofun

/-- A readable limit is taken over with its sign; minutes are not read, so that this environment
does not ignore what is unreadable. -/
theorem override_exact_limited :
    (setting timeLimitVariable "+45").Says timeLimitVariable "+45" ∧ SpellsSeconds "+45" 45 ∧
    (limited.override (setting timeLimitVariable "+45")).timeLimit = some 45 ∧
    ¬ ∀ text, (setting timeLimitVariable "5m").Says timeLimitVariable text →
      (∀ seconds, ¬ SpellsSeconds text seconds) →
        (limited.override (setting timeLimitVariable "5m")).timeLimit = limited.timeLimit := by
  have spoken := setting_spoken timeLimitVariable "+45" (by decide +kernel)
  have spelled : SpellsSeconds "+45" 45 := parseSeconds?_eq_some_iff.mp (by decide +kernel)
  have taken := (override_exact _ limited).1.timeLimit _ _ spoken spelled
  refine ⟨spoken, spelled, taken, fun ignored => ?_⟩
  rcases (override_exact _ limited).2.2.mp ignored with unlimited | readable
  · cases unlimited
  · obtain ⟨seconds, spelled⟩ := readable "5m" (setting_spoken _ _ (by decide +kernel))
    exact not_spellsSeconds_minutes seconds spelled

/-- The limit of half a minute is gone when the environment asks for five minutes in words that are
not understood. -/
theorem limit_lost_to_minutes : ¬ ∀ (env : Environment) (config : BuildConfig) (text : String),
    env.Says timeLimitVariable text → (∀ seconds, ¬ SpellsSeconds text seconds) →
      (config.override env).timeLimit = config.timeLimit := by
  intro claim
  have spoken := setting_spoken timeLimitVariable "5m" (by decide +kernel)
  have kept := claim _ limited "5m" spoken not_spellsSeconds_minutes
  rw [override_timeLimit_of_unreadable limited spoken not_spellsSeconds_minutes] at kept
  cases kept

end BuildConfig

end TypeBridge
