import TypeBridge.Build.Artifact
import TypeBridge.Proofs.Build.Standing

/-!
# The course of a build

Before the compiler runs, the place of the artifact is cleared (`Cleared.not_contains`).
`Production` lists the ways in which a build ends: it is not prepared, or the compiler is run once
among cleared files, and the build answers if and only if this run ends well and leaves a file at
the place.
-/

namespace TypeBridge

variable {directory output : String} {bench : Workbench} {files ready : FileTree Content}

/-- Files behind an attempt to make a directory. -/
def Attempted (directory : String) (files ready : FileTree Content) : Prop :=
  ready = files ∨ files.createDirectories directory = .ok ready

/-! ## Writing a file -/

/-- A file cannot be written, or it is; nothing but files changes. -/
theorem SourceSet.writeHeader_ends (set : SourceSet) (name text : String) (bench : Workbench) :
    (∃ path fault files, Attempted set.directory bench.files files ∧
      (set.writeHeader name text).run bench =
        (.error (.file path fault), { bench with files := files })) ∨
      ∃ ready files, bench.files.createDirectories set.directory = .ok ready ∧
        ready.write (Path.join set.directory name) (.octets (Text.Utf8.encode text)) = .ok files ∧
        (set.writeHeader name text).run bench =
          (.ok (Path.join set.directory name), { bench with files := files }) := by
  cases made : bench.files.createDirectories set.directory with
  | error fault =>
      exact .inl ⟨set.directory, fault, bench.files, .inl rfl,
        by simp [Step.run, writeHeader, made]⟩
  | ok ready =>
      cases written : ready.write (Path.join set.directory name)
          (.octets (Text.Utf8.encode text)) with
      | error fault =>
          exact .inl ⟨Path.join set.directory name, fault, ready, .inr made,
            by simp [Step.run, writeHeader, made, written]⟩
      | ok files =>
          exact .inr ⟨ready, files, rfl, written, by simp [Step.run, writeHeader, made, written]⟩

/-! ## Clearing the place -/

/-- Files in which the directory of a build has been made and the place of the artifact cleared. -/
inductive Cleared (directory output : String) (files ready : FileTree Content) : Prop
  | absent (made : files.createDirectories directory = .ok ready)
      (absent : ready.contains output = false)
  | removed {between : FileTree Content} (made : files.createDirectories directory = .ok between)
      (stood : between.contains output = true) (removed : between.remove output = .ok ready)

/-- Nothing stands at a place that was cleared. -/
theorem Cleared.not_contains (cleared : Cleared directory output files ready) :
    ready.contains output = false := by
  cases cleared with
  | absent made absent => exact absent
  | removed made stood removed => exact FileTree.not_contains_of_remove removed

/-- Other files are read as before. -/
theorem Cleared.content? (cleared : Cleared directory output files ready) {path : String}
    {content : Content} (read : files.content? path = some content)
    (apart : ∀ tree : FileTree Content, ∀ place, tree.locate path = .ok place →
      tree.locate output ≠ .ok place) :
    ready.content? path = some content := by
  cases cleared with
  | absent made absent => exact (FileTree.createDirectories_keeps made).content? read
  | removed made stood removed =>
      exact FileTree.content?_of_remove removed
        ((FileTree.createDirectories_keeps made).content? read) (apart _)

/-- What can be cleared is cleared. -/
theorem run_clearPlace (cleared : Cleared directory output bench.files ready) :
    (clearPlace directory output).run bench = (.ok (), { bench with files := ready }) := by
  cases cleared with
  | absent made absent => simp [Step.run, clearPlace, made, absent]
  | removed made stood removed => simp [Step.run, clearPlace, made, stood, removed]

/-- There is one way to clear a place. -/
theorem Cleared.unique {other : FileTree Content} (one : Cleared directory output files ready)
    (another : Cleared directory output files other) : ready = other := by
  let bench := Workbench.fresh directory files
  have first : (clearPlace directory output).run bench = _ := run_clearPlace one
  have second : (clearPlace directory output).run bench = _ := run_clearPlace another
  exact congrArg (fun outcome => outcome.2.files) (first.symm.trans second)

/-- A file cannot be touched, or the place is cleared; nothing but files changes. -/
theorem clearPlace_ends (directory output : String) (bench : Workbench) :
    (∃ path fault files, Attempted directory bench.files files ∧
      (clearPlace directory output).run bench =
        (.error (.file path fault), { bench with files := files })) ∨
      ∃ ready, Cleared directory output bench.files ready := by
  cases made : bench.files.createDirectories directory with
  | error fault =>
      exact .inl ⟨directory, fault, bench.files, .inl rfl, by simp [Step.run, clearPlace, made]⟩
  | ok files =>
      cases stands : files.contains output with
      | false => exact .inr ⟨files, .absent made stands⟩
      | true =>
          cases removed : files.remove output with
          | error fault =>
              have ran : (clearPlace directory output).run bench =
                  (.error (.file output fault), { bench with files := files }) := by
                simp [Step.run, clearPlace, made, stands, removed]
              exact .inl ⟨output, fault, files, .inr made, ran⟩
          | ok ready => exact .inr ⟨ready, .removed made stands removed⟩

/-! ## Running the compiler -/

/-- A workbench behind a program that was started among some files. -/
def ranAmong (machine : Machine) (job : Job) (bench : Workbench) (files : FileTree Content) :
    Workbench :=
  { bench with
    files := (machine.start job files).2
    launches := bench.launches ++ [⟨job, (machine.start job files).1⟩] }

/-- A program that is started is recorded with what came of it. -/
theorem run_runProgram (machine : Machine) (job : Job) (bench : Workbench) :
    (runProgram machine job).run bench =
      ((machine.start job bench.files).1.map
          (Launch.report (showCommand job.program job.args) job.limit),
        ranAmong machine job bench bench.files) := rfl

/-- A program was started and ended well. -/
def EndedWell (result : Except StartFault Launch) : Prop :=
  ∃ transcript, result = .ok (.ended transcript) ∧ transcript.ending.success = true

/-- A report of success is that of a program that ended well. -/
theorem success_report {launch : Launch} {command : String} {limit : Option Nat} :
    (launch.report command limit).success = true ↔ EndedWell (.ok launch) := by
  cases launch with
  | ended transcript => simp [EndedWell, Launch.report]
  | expired => simp [EndedWell, Launch.report]

/-- The compiler run of a build. -/
def buildJob (config : BuildConfig) (sources : SourceSet) (request : BuildRequest)
    (output : String) (kindFlags : List String) : Job :=
  ⟨config.driver, commandArguments config sources request output kindFlags, sources.directory,
    config.limitMillis⟩

/-- A program that is started among some files ends well and leaves something at a path. -/
def Makes (machine : Machine) (job : Job) (path : String) (files : FileTree Content) : Prop :=
  EndedWell (machine.start job files).1 ∧ (machine.start job files).2.contains path = true

/-- The ways in which a build ends, with the workbench that it leaves behind. -/
inductive Production (machine : Machine) (config : BuildConfig) (sources : SourceSet)
    (request : BuildRequest) (output : String) (kindFlags : List String) (kind : ArtifactKind)
    (bench : Workbench) : Except BuildFault Artifact → Workbench → Prop
  /-- The place of the artifact could not be cleared. -/
  | unprepared (uncleared : ∀ ready, ¬Cleared sources.directory output bench.files ready)
      (path : String) (fault : FileFault) (files : FileTree Content) :
      Production machine config sources request output kindFlags kind bench
        (.error (.file path fault)) { bench with files := files }
  /-- The compiler did not end well, or left nothing. -/
  | rejected {ready : FileTree Content}
      (cleared : Cleared sources.directory output bench.files ready)
      (unmade : ¬Makes machine (buildJob config sources request output kindFlags) output ready)
      (command status diagnostics listing : String) :
      Production machine config sources request output kindFlags kind bench
        (.error (.compile sources.module command status diagnostics listing))
        (ranAmong machine (buildJob config sources request output kindFlags) bench ready)
  /-- The compiler ended well and left a file at the place of the artifact. -/
  | made {ready : FileTree Content}
      (cleared : Cleared sources.directory output bench.files ready)
      (makes : Makes machine (buildJob config sources request output kindFlags) output ready) :
      Production machine config sources request output kindFlags kind bench
        (.ok ⟨sources.module, output, kind, request.exportSymbols⟩)
        (ranAmong machine (buildJob config sources request output kindFlags) bench ready)

/-- Every build ends in one of these ways. -/
theorem produce_ensures (machine : Machine) (config : BuildConfig) (sources : SourceSet)
    (request : BuildRequest) (output : String) (kindFlags : List String) (kind : ArtifactKind)
    (bench : Workbench) :
    (produce machine config sources request output kindFlags kind).Ensures bench
      (fun artifact after => Production machine config sources request output kindFlags kind bench
        (.ok artifact) after)
      fun fault after => Production machine config sources request output kindFlags kind bench
        (.error fault) after := by
  let job := buildJob config sources request output kindFlags
  rcases clearPlace_ends sources.directory output bench with
    ⟨path, fault, files, -, ran⟩ | ⟨ready, cleared⟩
  · refine .bind_of_error ran (.unprepared (fun ready cleared => ?_) path fault files)
    cases ran.symm.trans (run_clearPlace cleared)
  refine .bind_of_ok (run_clearPlace cleared) ?_
  refine .bind (fun result after => ∃ command,
    result = (machine.start job ready).1.map (Launch.report command config.limitMillis) ∧
    after = ranAmong machine job bench ready)
    (.of_run_ok (Step.run_attempt _ _) ⟨_, rfl, rfl⟩) ?_
  rintro _ _ ⟨command, rfl, rfl⟩
  refine .bind_get ?_
  cases result : (machine.start job ready).1 with
  | error fault =>
      refine .fail (.rejected cleared ?_ _ _ _ _)
      rintro ⟨⟨transcript, ended, -⟩, -⟩
      cases result.symm.trans ended
  | ok launch =>
      have makes : (launch.report command config.limitMillis).success = true ∧
          (machine.start job ready).2.contains output = true ↔ Makes machine job output ready := by
        rw [success_report, Makes, result]
      dsimp only [Except.map]
      split
      · rename_i good
        exact .pure (.made cleared (makes.mp good))
      · rename_i bad
        exact .fail (.rejected cleared (mt makes.mpr bad) _ _ _ _)

end TypeBridge
