import TypeBridge.Probe.Run
import TypeBridge.Proofs.Build.Joining
import TypeBridge.Proofs.Build.Producing
import TypeBridge.Proofs.Probe.Reporting

/-!
# The course of a probe

`Course` lists all that a probe can come to, with the programs that it starts: at most one compiler
run, on the program of just the types asked about, and at most one run of what that made. A probe
that answers has read one record for each type from the output of that run. `probe_course` says
that every probe takes such a course, on every machine.
-/

namespace TypeBridge.Probe

variable {machine : Machine} {config : BuildConfig} {headers types : List String}
  {bench after : Workbench} {directory : String}

/-- The sources of a probe in its scratch directory. -/
def sourcesIn (directory : String) : SourceSet :=
  (SourceSet.empty moduleName directory).add (Path.join directory sourceName)

/-- Where the program of a probe is put. -/
def programPath (config : BuildConfig) (directory : String) : String :=
  executablePath config.target (sourcesIn directory)

/-- The compiler run of a probe. -/
def compileJob (config : BuildConfig) (directory : String) : Job where
  program := config.driver
  args := commandArguments config (sourcesIn directory) .plain (programPath config directory) []
  directory := directory
  limit := config.limitMillis

/-- The run of the program that was made. -/
def programJob (config : BuildConfig) (directory : String) : Job :=
  ⟨programPath config directory, [], directory, config.limitMillis⟩

/-- Files among which the source of a probe holds the program of some types. -/
def Holds (headers types : List String) (directory : String) (files : FileTree Content) : Prop :=
  files.content? (Path.join directory sourceName) =
    some (.octets (Text.Utf8.encode (program headers types)))

/-- What becomes of the compiler run among some files. -/
def compilation (machine : Machine) (config : BuildConfig) (directory : String)
    (files : FileTree Content) : Except StartFault Launch × FileTree Content :=
  machine.start (compileJob config directory) files

/-- What becomes of the program that the compiler run among some files left. -/
def execution (machine : Machine) (config : BuildConfig) (directory : String)
    (files : FileTree Content) : Except StartFault Launch × FileTree Content :=
  machine.start (programJob config directory) (compilation machine config directory files).2

/-- The compiler ended well and left a program. -/
def Made (machine : Machine) (config : BuildConfig) (directory : String)
    (files : FileTree Content) : Prop :=
  (∃ transcript, (compilation machine config directory files).1 = .ok (.ended transcript) ∧
      transcript.ending.success = true) ∧
    (compilation machine config directory files).2.contains (programPath config directory) = true

/-- A program ended well and printed records about some types. -/
def Informs (types : List String) (result : Except StartFault Launch) (records : List Record) :
    Prop :=
  ∃ transcript, result = .ok (.ended transcript) ∧ transcript.ending.success = true ∧
    Record.readAll (Text.Utf8.decodeLossy transcript.output).toList = some records ∧
    About types records

/-- What a probe of some types comes to, and the programs that it starts. -/
inductive Course (machine : Machine) (config : BuildConfig) (headers types : List String) :
    List LaunchRecord → Except TypeFault (List (TypeName × TypeInfo)) → Prop
  /-- The files of the probe could not be prepared. -/
  | unprepared (fault : TypeFault) : Course machine config headers types [] (.error fault)
  /-- The compiler left no program. -/
  | uncompiled {directory : String} {files : FileTree Content}
      (holds : Holds headers types directory files)
      (unmade : ¬Made machine config directory files) (fault : TypeFault) :
      Course machine config headers types
        [⟨compileJob config directory, (compilation machine config directory files).1⟩]
        (.error fault)
  /-- The program did not run well, or what it printed is of no use. -/
  | unusable {directory : String} {files : FileTree Content}
      (holds : Holds headers types directory files) (made : Made machine config directory files)
      (useless : ∀ records, ¬Informs types (execution machine config directory files).1 records)
      (fault : TypeFault) :
      Course machine config headers types
        [⟨compileJob config directory, (compilation machine config directory files).1⟩,
          ⟨programJob config directory, (execution machine config directory files).1⟩]
        (.error fault)
  /-- The program ran well and printed records about the types. -/
  | reported {directory : String} {files : FileTree Content}
      (holds : Holds headers types directory files) (made : Made machine config directory files)
      (records : List Record)
      (informs : Informs types (execution machine config directory files).1 records) :
      Course machine config headers types
        [⟨compileJob config directory, (compilation machine config directory files).1⟩,
          ⟨programJob config directory, (execution machine config directory files).1⟩]
        (.ok (records.map Record.fact))

/-- No program was started between two workbenches. -/
def Unstarted (bench after : Workbench) : Prop := after.launches = bench.launches

/-! ## Preparing the sources -/

/-- Making a scratch directory starts no program. -/
theorem makeScratch_ensures (label : String) (bench : Workbench) :
    (makeScratch label).Ensures bench (fun _ after => Unstarted bench after)
      fun _ after => Unstarted bench after := by
  constructor
  all_goals
    intro _ _
    simp only [Step.run, makeScratch]
    split
    · rfl
    · split
      · rfl
      · rfl

/-- A file that was written can be read. -/
theorem writeHeader_ensures (set : SourceSet) (name text : String) (bench : Workbench) :
    (set.writeHeader name text).Ensures bench
      (fun path after => path = Path.join set.directory name ∧ Unstarted bench after ∧
        after.files.content? path = some (.octets (Text.Utf8.encode text)))
      fun _ after => Unstarted bench after := by
  rcases set.writeHeader_ends name text bench with
    ⟨path, fault, files, -, ran⟩ | ⟨ready, files, -, written, ran⟩
  · exact .of_run_error ran rfl
  · exact .of_run_ok ran ⟨rfl, rfl, FileTree.content?_of_write written⟩

/-- Writing the probe leaves it in the directory and starts no program. -/
theorem writeSource_ensures (headers types : List String) (directory : String)
    (bench : Workbench) :
    ((SourceSet.empty moduleName directory).writeSource sourceName
        (program headers types)).Ensures bench
      (fun sources after => sources = sourcesIn directory ∧ Unstarted bench after ∧
        Holds headers types directory after.files)
      fun _ after => Unstarted bench after :=
  .bind _ (writeHeader_ensures _ _ _ bench) fun path after ⟨same, unstarted, read⟩ =>
    .pure ⟨by rw [same]; rfl, unstarted, by rw [same] at read; exact read⟩

/-! ## The place of the program -/

/-- The name of the probe's source is one part of a path. -/
theorem isPart_sourceName : Path.IsPart sourceName := ⟨by decide, by decide⟩

/-- The name of the probe's module is one part of a path. -/
theorem isPart_moduleName : Path.IsPart moduleName := ⟨by decide, by decide⟩

/-- The name of a program where programs have an extension. -/
def programName : String := moduleName ++ "." ++ "exe"

/-- The name of the probe's program is one part of a path. -/
theorem isPart_programName : Path.IsPart programName := ⟨by decide, by decide⟩

/-- The program is called after the module, with or without an extension. -/
theorem programPath_eq (config : BuildConfig) (directory : String) :
    programPath config directory = Path.join directory moduleName ∨
      programPath config directory = Path.join directory programName := by
  have dotless : '.' ∉ moduleName.toList := by decide
  have segment : SourceSet.lastSegment moduleName = moduleName := by decide +kernel
  have stem : (sourcesIn directory).artifactStem = moduleName := by
    show (if (SourceSet.lastSegment moduleName).isEmpty then "module"
      else SourceSet.lastSegment moduleName) = moduleName
    rw [segment]
    decide
  have place : (sourcesIn directory).directory = directory := rfl
  have extended : Path.withExtension (Path.join directory moduleName) "exe" =
      Path.join directory programName :=
    Path.withExtension_join isPart_moduleName dotless directory "exe" isPart_programName
  cases windows : config.target.isWindows with
  | false =>
      left
      simp [programPath, executablePath, Target.executableExtension, windows, stem, place]
  | true =>
      right
      simp [programPath, executablePath, Target.executableExtension, windows, stem, place, extended]

/-- The program does not take the place of its source. -/
theorem locate_programPath_ne {tree : FileTree Content} {place : List String}
    (located : tree.locate (Path.join directory sourceName) = .ok place) :
    tree.locate (programPath config directory) ≠ .ok place := by
  intro same
  have source := FileTree.getLast?_of_locate isPart_sourceName (by decide) (by decide) located
  rcases programPath_eq config directory with named | named
  · rw [named] at same
    have program := FileTree.getLast?_of_locate isPart_moduleName (by decide) (by decide) same
    exact absurd (source.symm.trans program) (by decide)
  · rw [named] at same
    have program := FileTree.getLast?_of_locate isPart_programName (by decide) (by decide) same
    exact absurd (source.symm.trans program) (by decide)

/-- Clearing the place of the program leaves its source alone. -/
theorem holds_of_cleared {files ready : FileTree Content}
    (cleared : Cleared directory (programPath config directory) files ready)
    (holds : Holds headers types directory files) : Holds headers types directory ready :=
  cleared.content? holds fun _ _ => locate_programPath_ne

/-! ## The two runs -/

/-- The compiler was started once, among files that hold the program of some types. -/
structure Compiled (machine : Machine) (config : BuildConfig) (headers types : List String)
    (directory : String) (bench after : Workbench) (files : FileTree Content) : Prop where
  holds : Holds headers types directory files
  launches : after.launches = bench.launches ++
    [⟨compileJob config directory, (compilation machine config directory files).1⟩]
  left : after.files = (compilation machine config directory files).2

/-- Compiling the probe leaves a program at its path, or fails without one having been started. -/
theorem compileExecutable_ensures (holds : Holds headers types directory bench.files) :
    (compileExecutable machine config (sourcesIn directory) .plain).Ensures bench
      (fun artifact after => artifact.path = programPath config directory ∧
        ∃ files, Compiled machine config headers types directory bench after files ∧
          Made machine config directory files)
      fun _ after => Unstarted bench after ∨
        ∃ files, Compiled machine config headers types directory bench after files ∧
          ¬Made machine config directory files := by
  refine (produce_ensures machine config (sourcesIn directory) .plain
    (programPath config directory) [] .executable bench).mono ?_ ?_
  · rintro artifact after production
    cases production with
    | made cleared makes => exact ⟨rfl, _, ⟨holds_of_cleared cleared holds, rfl, rfl⟩, makes⟩
  · rintro fault after production
    cases production with
    | unprepared => exact .inl rfl
    | rejected cleared unmade =>
        exact .inr ⟨_, ⟨holds_of_cleared cleared holds, rfl, rfl⟩, unmade⟩

/-- A report is of use exactly if the program ended well and printed records about the types. -/
theorem facts_eq_ok_iff {text : String} {launch : Launch} {command : String} {limit : Option Nat}
    {learned : List (TypeName × TypeInfo)} :
    facts text types (launch.report command limit) = .ok learned ↔
      ∃ records, Informs types (.ok launch) records ∧ learned = records.map Record.fact := by
  unfold facts
  by_cases success : (launch.report command limit).success = true
  · obtain ⟨transcript, ⟨⟩, ended⟩ := success_report.mp success
    rw [if_pos success]
    constructor
    · intro stated
      split at stated
      · rename_i parsed
        obtain ⟨records, read, about, same⟩ := parse_eq_ok_iff.mp parsed
        exact ⟨records, ⟨transcript, rfl, ended, read, about⟩, Except.ok.inj stated ▸ same⟩
      · cases stated
    · rintro ⟨records, ⟨_, ⟨⟩, -, read, about⟩, rfl⟩
      have parsed := parse_eq_ok_iff.mpr ⟨records, read, about, rfl⟩
      simp [Launch.report, parsed]
  · rw [if_neg success]
    constructor
    · intro stated
      cases stated
    · rintro ⟨records, ⟨transcript, same, ended, -⟩, -⟩
      exact absurd (success_report.mpr ⟨transcript, same, ended⟩) success

/-- A probe between two workbenches took a course: what it started is recorded behind what was
started before. -/
def Took (machine : Machine) (config : BuildConfig) (headers types : List String)
    (bench after : Workbench) (result : Except TypeFault (List (TypeName × TypeInfo))) : Prop :=
  ∃ started, after.launches = bench.launches ++ started ∧
    Course machine config headers types started result

/-- A probe that answers states the size of each type asked about, in their order. -/
theorem Took.named {facts : List (TypeName × TypeInfo)}
    (took : Took machine config headers types bench after (.ok facts)) :
    facts.map (·.1) = types.map TypeName.native ∧ ∀ fact ∈ facts, fact.2.size.isSome := by
  obtain ⟨_, -, course⟩ := took
  cases course with
  | reported holds made records informs =>
      obtain ⟨_, -, -, -, about⟩ := informs
      constructor
      · rw [← about.names, List.map_map, List.map_map]
        rfl
      · intro fact member
        obtain ⟨record, -, rfl⟩ := List.mem_map.mp member
        rfl

/-- A probe that did not get as far as its program took nothing. -/
theorem Took.unprepared (unstarted : Unstarted bench after) (fault : TypeFault) :
    Took machine config headers types bench after (.error fault) :=
  ⟨[], unstarted.trans (List.append_nil _).symm, .unprepared fault⟩

/-- What comes of the program that was made. -/
theorem reported_ensures {files : FileTree Content}
    (compiled : Compiled machine config headers types directory bench after files)
    (made : Made machine config directory files) (text : String)
    (widening : StartFault → TypeFault) :
    (do
      let report ← (TypeBridge.runProgram machine (programJob config directory)).widen widening
      Step.ofExcept (facts text types report) :
        Step Workbench TypeFault (List (TypeName × TypeInfo))).Ensures after
      (fun learned last => Took machine config headers types bench last (.ok learned))
      fun fault last => Took machine config headers types bench last (.error fault) := by
  let job := programJob config directory
  have run : machine.start job after.files = execution machine config directory files := by
    rw [compiled.left]
    rfl
  have started : ((TypeBridge.runProgram machine job).run after).2.launches = bench.launches ++
      [⟨compileJob config directory, (compilation machine config directory files).1⟩,
        ⟨job, (execution machine config directory files).1⟩] := by
    rw [run_runProgram, ranAmong, compiled.launches, List.append_assoc, run]
    rfl
  have ran : ((TypeBridge.runProgram machine job).widen widening).run after =
      ((((execution machine config directory files).1.map
          (Launch.report (showCommand job.program job.args) job.limit)).mapError widening),
        ((TypeBridge.runProgram machine job).run after).2) := by
    rw [Step.run_widen, run_runProgram, run]
  cases result : (execution machine config directory files).1 with
  | error fault =>
      rw [result] at ran
      refine .bind_of_error ran ⟨_, started, .unusable compiled.holds made ?_ _⟩
      rintro records ⟨transcript, ended, -⟩
      cases result.symm.trans ended
  | ok launch =>
      rw [result] at ran
      refine .bind_of_ok ran (.ofExcept ?_ ?_)
      · intro learned stated
        obtain ⟨records, informs, rfl⟩ := facts_eq_ok_iff.mp stated
        exact ⟨_, started, .reported compiled.holds made records (result ▸ informs)⟩
      · intro fault refused
        refine ⟨_, started, .unusable compiled.holds made ?_ _⟩
        intro records informs
        rw [result] at informs
        cases refused.symm.trans (facts_eq_ok_iff.mpr ⟨records, informs, rfl⟩)

/-- A run of the probe's program takes what the program reported, or fails as it reports. -/
theorem runProgram_ensures (machine : Machine) (config : BuildConfig) (headers types : List String)
    (bench : Workbench) :
    (runProgram machine config (program headers types) types).Ensures bench
      (fun learned after => Took machine config headers types bench after (.ok learned))
      fun fault after => Took machine config headers types bench after (.error fault) := by
  refine .bind (fun _ after => Unstarted bench after) (.widen
    ((makeScratch_ensures _ bench).mono_failed fun _ _ unstarted => .unprepared unstarted _)) ?_
  intro directory made unstarted
  refine .bind (fun sources after => sources = sourcesIn directory ∧ Unstarted bench after ∧
    Holds headers types directory after.files) (.widen
      ((writeSource_ensures headers types directory made).mono ?_ ?_)) ?_
  · exact fun sources after ⟨same, still, holds⟩ => ⟨same, still.trans unstarted, holds⟩
  · exact fun fault after still => .unprepared (still.trans unstarted) _
  rintro sources ready ⟨rfl, unstarted, holds⟩
  have compiled : ∀ {after files},
      Compiled machine config headers types directory ready after files →
      Compiled machine config headers types directory bench after files :=
    fun compiled => ⟨compiled.holds, unstarted ▸ compiled.launches, compiled.left⟩
  refine .bind (fun artifact after => artifact.path = programPath config directory ∧
    ∃ files, Compiled machine config headers types directory bench after files ∧
      Made machine config directory files) (.widen
      ((compileExecutable_ensures holds).mono ?_ ?_)) ?_
  · exact fun artifact after ⟨path, files, built, made⟩ => ⟨path, files, compiled built, made⟩
  · rintro fault after (still | ⟨files, built, unmade⟩)
    · exact .unprepared (still.trans unstarted) _
    · exact ⟨_, (compiled built).launches, .uncompiled built.holds unmade _⟩
  · rintro artifact after ⟨path, files, built, made⟩
    rw [path]
    exact reported_ensures built made _ _

/-- A probe of some types takes a course. -/
theorem probe_course (machine : Machine) (config : BuildConfig) (headers : List String)
    (some : types ≠ []) (bench : Workbench) :
    Took machine config headers types bench ((probe machine config headers types).run bench).2
      ((probe machine config headers types).run bench).1 := by
  have asked : probe machine config headers types =
      runProgram machine config (program headers types) types := by
    simp [probe, some]
  have ensures := runProgram_ensures machine config headers types bench
  rw [asked]
  cases ran : (runProgram machine config (program headers types) types).run bench with
  | mk result after =>
      cases result with
      | ok learned => exact ensures.of_ok ran
      | error fault => exact ensures.of_error ran

end TypeBridge.Probe
