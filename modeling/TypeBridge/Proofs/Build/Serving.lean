import TypeBridge.Proofs.Build.Producing
import TypeBridge.Scripted.Compiler

/-!
# Requests for artifacts

A `BuildCall` asks for an artifact of either kind, from a compiler that may behave in any way.
`Serves` threads a workbench through such requests and through all that happens between them. Since
the place of an artifact is cleared before its compiler is run (`made_by_own_run`), what earlier
requests left there is never taken for it (`answers_own_artifacts`).
-/

namespace TypeBridge

/-- A request for an artifact, with the machine that it meets. -/
structure BuildCall where
  machine : Machine
  config : BuildConfig
  sources : SourceSet
  request : BuildRequest
  kind : ArtifactKind

namespace BuildCall

/-- What a request sets going. -/
def step (call : BuildCall) : Step Workbench BuildFault Artifact :=
  match call.kind with
  | .sharedLibrary => compileLibrary call.machine call.config call.sources call.request
  | .executable => compileExecutable call.machine call.config call.sources call.request

/-- Where its artifact is put. -/
def output (call : BuildCall) : String :=
  match call.kind with
  | .sharedLibrary => libraryPath call.config.target call.sources
  | .executable => executablePath call.config.target call.sources

/-- The flags that ask for its kind of artifact. -/
def kindFlags (call : BuildCall) : List String :=
  match call.kind with
  | .sharedLibrary => call.config.target.libraryFlags ++
      call.request.exportSymbols.flatMap call.config.target.exportFlags
  | .executable => []

/-- Its compiler run. -/
def job (call : BuildCall) : Job :=
  buildJob call.config call.sources call.request call.output call.kindFlags

/-- What becomes of its compiler run among some files. -/
def compilation (call : BuildCall) (files : FileTree Content) :
    Except StartFault Launch × FileTree Content :=
  call.machine.start call.job files

/-- A compiler run that does not end well creates nothing at the place of the artifact. -/
def Clean (call : BuildCall) : Prop :=
  ∀ files, files.contains call.output = false → ¬EndedWell (call.compilation files).1 →
    (call.compilation files).2.contains call.output = false

/-- A request as it was served. -/
structure Served where
  call : BuildCall
  before : Workbench
  result : Except BuildFault Artifact
  after : Workbench

/-- The compiler was run once for a request, among the files that were there with the place of the
artifact cleared. -/
structure Ran (served : Served) (files : FileTree Content) : Prop where
  cleared : Cleared served.call.sources.directory served.call.output served.before.files files
  free : files.contains served.call.output = false
  left : served.after.files = (served.call.compilation files).2
  launches : served.after.launches = served.before.launches ++
    [⟨served.call.job, (served.call.compilation files).1⟩]

/-- Requests that are served one after the other, the first one first. In between anything may
happen to the workbench, but what was started stays on record. -/
inductive Serves (start : Workbench) : List Served → Workbench → Prop
  | nothing : Serves start [] start
  | request {log : List Served} {bench after : Workbench} {result : Except BuildFault Artifact}
      (earlier : Serves start log bench) (call : BuildCall)
      (ran : call.step.run bench = (result, after)) :
      Serves start (log ++ [⟨call, bench, result, after⟩]) after
  | meanwhile {log : List Served} {bench later : Workbench} (earlier : Serves start log bench)
      (recorded : bench.launches <+: later.launches) : Serves start log later

variable {call : BuildCall} {start bench after : Workbench} {log : List Served}
  {result : Except BuildFault Artifact}

/-! ## One request -/

/-- Both kinds of request run the compiler in the same way. -/
theorem step_eq_produce (call : BuildCall) :
    call.step = produce call.machine call.config call.sources call.request call.output
      call.kindFlags call.kind := by
  obtain ⟨machine, config, sources, request, kind⟩ := call
  cases kind with
  | sharedLibrary => rfl
  | executable => rfl

theorem step_ends (ran : call.step.run bench = (result, after)) :
    Production call.machine call.config call.sources call.request call.output call.kindFlags
      call.kind bench result after := by
  rw [step_eq_produce] at ran
  have ends := produce_ensures call.machine call.config call.sources call.request call.output
    call.kindFlags call.kind bench
  cases result with
  | ok artifact => exact ends.of_ok ran
  | error fault => exact ends.of_error ran

/-- A request starts no program but its compiler. -/
theorem launches_recorded (ran : call.step.run bench = (result, after)) :
    bench.launches <+: after.launches := by
  cases step_ends ran with
  | unprepared => exact List.prefix_rfl
  | rejected => exact List.prefix_append _ _
  | made => exact List.prefix_append _ _

/-- Where the place of the artifact can be cleared, the compiler is run, and an artifact is answered
if and only if this run ends well and leaves something there. -/
theorem ran_of_cleared {files : FileTree Content} (ran : call.step.run bench = (result, after))
    (cleared : Cleared call.sources.directory call.output bench.files files) :
    Ran ⟨call, bench, result, after⟩ files ∧
      (result.isOk ↔ Makes call.machine call.job call.output files) := by
  cases step_ends ran with
  | unprepared uncleared => exact absurd cleared (uncleared files)
  | rejected cleared' unmade =>
      obtain rfl := cleared'.unique cleared
      exact ⟨⟨cleared, cleared.not_contains, rfl, rfl⟩,
        iff_of_false (by simp [Except.isOk, Except.toBool]) unmade⟩
  | made cleared' makes =>
      obtain rfl := cleared'.unique cleared
      exact ⟨⟨cleared, cleared.not_contains, rfl, rfl⟩, iff_of_true rfl makes⟩

/-- An artifact stands where nothing stood before its own compiler run. -/
theorem made_by_own_run {artifact : Artifact}
    (ran : call.step.run bench = (.ok artifact, after)) :
    artifact.path = call.output ∧ after.files.contains artifact.path = true ∧
      ∃ files, Ran ⟨call, bench, .ok artifact, after⟩ files ∧
        EndedWell (call.compilation files).1 := by
  cases step_ends ran with
  | made cleared makes =>
      exact ⟨rfl, makes.2, _, ⟨cleared, cleared.not_contains, rfl, rfl⟩, makes.1⟩

/-- Nothing stands at the place of an artifact that could not be compiled. -/
theorem nothing_left (clean : call.Clean) {module command status diagnostics listing : String}
    (ran : call.step.run bench =
      (.error (.compile module command status diagnostics listing), after)) :
    after.files.contains call.output = false := by
  cases step_ends ran with
  | @rejected ready cleared unmade =>
      by_cases well : EndedWell (call.compilation ready).1
      · exact Bool.eq_false_iff.mpr fun stands => unmade ⟨well, stands⟩
      · exact clean ready cleared.not_contains well

/-! ## Any number of requests -/

/-- All that was started for a request stays on record. -/
theorem Serves.recorded (serves : Serves start log bench) :
    ∀ served ∈ log, served.after.launches <+: bench.launches := by
  induction serves with
  | nothing => simp
  | request earlier call ran ih =>
      intro served member
      rcases List.mem_append.mp member with old | new
      · exact (ih served old).trans (launches_recorded ran)
      · obtain rfl := List.mem_singleton.mp new
        exact List.prefix_rfl
  | meanwhile earlier kept ih => exact fun served member => (ih served member).trans kept

/-- What was started for a request was on record before the next one. -/
theorem Serves.pairwise (serves : Serves start log bench) :
    log.Pairwise fun earlier later => earlier.after.launches <+: later.before.launches := by
  induction serves with
  | nothing => exact .nil
  | request earlier call ran ih =>
      refine List.pairwise_append.mpr ⟨ih, List.pairwise_singleton _ _, ?_⟩
      intro first old later new
      rw [List.mem_singleton.mp new]
      exact earlier.recorded first old
  | meanwhile earlier kept ih => exact ih

/-- Every request of a log was served by a run of its own step. -/
theorem Serves.run_eq (serves : Serves start log bench) :
    ∀ served ∈ log, served.call.step.run served.before = (served.result, served.after) := by
  induction serves with
  | nothing => simp
  | request earlier call ran ih =>
      intro served member
      rcases List.mem_append.mp member with old | new
      · exact ih served old
      · rw [List.mem_singleton.mp new]
        exact ran
  | meanwhile earlier kept ih => exact ih

/-- However requests follow each other and whatever their compilers do, each artifact that is
answered was put where nothing stood by the compiler run of its own request, which is none of the
runs of the others; and a request whose compilation failed leaves nothing at the place of its
artifact, as long as a compiler run that does not end well creates nothing there. Where that place
can be cleared, an artifact is answered if and only if the run ends well and leaves something. -/
theorem answers_own_artifacts (serves : Serves start log bench) :
    (log.Pairwise fun earlier later => earlier.after.launches <+: later.before.launches) ∧
      ∀ served ∈ log,
        (∀ artifact, served.result = .ok artifact →
          artifact.path = served.call.output ∧
            served.after.files.contains artifact.path = true ∧
            ∃ files, Ran served files ∧ EndedWell (served.call.compilation files).1) ∧
        (served.call.Clean → ∀ module command status diagnostics listing,
          served.result = .error (.compile module command status diagnostics listing) →
            served.after.files.contains served.call.output = false) ∧
        ∀ files,
          Cleared served.call.sources.directory served.call.output served.before.files files →
            Ran served files ∧ (served.result.isOk ↔
              EndedWell (served.call.compilation files).1 ∧
                (served.call.compilation files).2.contains served.call.output = true) := by
  refine ⟨serves.pairwise, fun served member => ?_⟩
  have ran := serves.run_eq served member
  obtain ⟨call, before, result, after⟩ := served
  refine ⟨?_, ?_, fun files cleared => ran_of_cleared ran cleared⟩
  · rintro artifact rfl
    exact made_by_own_run ran
  · rintro clean _ _ _ _ _ rfl
    exact nothing_left clean ran

end BuildCall

/-! ## Scripted compilers -/

namespace Scripted.Script

/-- The compiler writes nothing unless it ends well. -/
theorem produce_unchanged (script : Script) (job : Job) (place : Nat) (output : String)
    (files : FileTree Content) :
    (script.produce job place output files).1.ending.success = false →
      (script.produce job place output files).2 = files := by
  unfold produce
  dsimp only
  repeat' split
  all_goals simp [Ending.success]

/-- A run that does not end well changes no files. -/
theorem start_unchanged (script : Script) (job : Job) (files : FileTree Content)
    (bad : ¬EndedWell (script.start job files).1) : (script.start job files).2 = files := by
  revert bad
  unfold start
  split
  · exact fun _ => rfl
  split
  · split
    · exact fun _ => rfl
    · intro bad
      have failed : (script.compileOnce job files).1.ending.success = false :=
        Bool.eq_false_iff.mpr fun good => bad ⟨_, rfl, good⟩
      revert failed
      dsimp only
      unfold compileOnce
      dsimp only
      split
      · split
        · exact script.produce_unchanged job _ _ files
        · exact fun _ => rfl
      · exact fun _ => rfl
  · split
    all_goals simp

end Scripted.Script

namespace BuildCall

open Scripted

/-- A request for a shared library without sources, to a scripted compiler. -/
def scripted (script : Script) : BuildCall where
  machine := script.machine
  config := { BuildConfig.standardFor .linux with compiler := some driverName }
  sources := .empty "demo" "/work"
  request := .plain
  kind := .sharedLibrary

theorem clean_scripted (script : Script) : (scripted script).Clean := by
  intro files free bad
  have unchanged := script.start_unchanged (scripted script).job files bad
  rw [compilation, show (scripted script).machine.start = script.start from rfl, unchanged]
  exact free

/-- A compiler that refuses all sources. -/
def refusing : Script := ⟨[], ⟨0, [], [], .exited 1, .nothing⟩, ⟨none, [], .exited 0⟩⟩

/-- A request as it is served on a workbench. -/
def serve (call : BuildCall) (bench : Workbench) : Served :=
  ⟨call, bench, (call.step.run bench).1, (call.step.run bench).2⟩

/-- A library that is built in an empty tree. -/
def built : Served := (scripted .words).serve (.fresh "/tmp" .empty)

/-- The same request once more, where the compiler refuses it. -/
def refused : Served := (scripted refusing).serve built.after

theorem exists_refusal : ∃ module command status diagnostics listing,
    refused.result = .error (.compile module command status diagnostics listing) := by
  have compile : (match refused.result with
      | .error (.compile ..) => true
      | _ => false) = true := by decide +kernel
  split at compile
  · exact ⟨_, _, _, _, _, ‹_›⟩
  · cases compile

/-- The library was made by its own run, and the request that failed took it away. -/
theorem answers_own_artifacts_replaced :
    Serves (.fresh "/tmp" .empty) [built, refused] refused.after ∧ built.result.isOk ∧
      built.after.files.contains "/work/libdemo.so" = true ∧
      (∃ files, Ran built files ∧ EndedWell (built.call.compilation files).1) ∧
      refused.after.files.contains "/work/libdemo.so" = false := by
  have serves : Serves (.fresh "/tmp" .empty) [built, refused] refused.after :=
    .request (.request .nothing (scripted .words) rfl) (scripted refusing) rfl
  obtain ⟨-, each⟩ := answers_own_artifacts serves
  have ok : built.result.isOk := by decide +kernel
  obtain ⟨artifact, answered⟩ := exists_of_isOk ok
  obtain ⟨path, stands, own⟩ := (each built (by simp)).1 artifact answered
  obtain ⟨_, _, _, _, _, refusal⟩ := exists_refusal
  have gone := (each refused (by simp)).2.1 (clean_scripted refusing) _ _ _ _ _ refusal
  have place : built.call.output = "/work/libdemo.so" := by decide +kernel
  rw [path, place] at stands
  rw [show refused.call.output = built.call.output from rfl, place] at gone
  exact ⟨serves, ok, stands, own, gone⟩

end BuildCall

end TypeBridge
