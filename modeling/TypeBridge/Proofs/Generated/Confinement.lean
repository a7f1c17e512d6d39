import TypeBridge.Generated.Built
import TypeBridge.Proofs.Build.Inside
import TypeBridge.Proofs.Build.Producing

/-!
# Builds in a scratch directory

A build changes three places at most by itself: those of the header, the source and the artifact.
All three are inside the scratch directory exactly if the stem of the module is a relative path, or
an absolute one into that very directory. The artifact is inside in any case unless its name starts
with the stem.
-/

namespace TypeBridge

/-- The stem of an artifact has no dots. -/
theorem SourceSet.dotless_artifactStem (set : SourceSet) : '.' ∉ set.artifactStem.toList := by
  unfold artifactStem lastSegment
  dsimp only
  split
  · decide
  · cases last : (Text.pieces (fun c => c = '.') set.module.toList).getLast? with
    | none => simp
    | some piece =>
        intro member
        have cut := Text.not_separator_of_mem_pieces (List.mem_of_getLast? last)
          (by simpa using member)
        simp at cut

/-- What a build leaves of some files: they were changed at some places alone, and then a program
may have been started among them that was told where to put the artifact. -/
def Aftermath (machine : Machine) (output : String) (places : List (List String))
    (before after : FileTree Content) : Prop :=
  ∃ files, before.ChangesOnly places files ∧
    (after = files ∨ ∃ job : Job, output ∈ job.args ∧ after = (machine.start job files).2)

/-- Behind a step of a build its directory still stands, and files were changed at some places
alone. -/
structure Steady (directory : String) (places : List (List String))
    (before after : FileTree Content) : Prop where
  stands : after.isDirectory (Path.steps directory) = true
  changes : before.ChangesOnly places after

variable {machine : Machine} {directory output : String} {places : List (List String)}
  {start : FileTree Content} {bench : Workbench}

/-- Where no program was started, a step that changed some places alone leaves just that. -/
theorem Steady.aftermath (steady : Steady directory places start bench.files) :
    Aftermath machine output places start bench.files :=
  ⟨_, steady.changes, .inl rfl⟩

/-- Nothing is attempted where the directory stands. -/
theorem Attempted.eq_of_isDirectory {files ready : FileTree Content}
    (attempted : Attempted directory files ready)
    (stands : files.isDirectory (Path.steps directory) = true) : ready = files :=
  attempted.elim id (FileTree.createDirectories_of_isDirectory stands)

/-- Writing a file into the directory of a set changes the place of the file alone. -/
theorem SourceSet.writeHeader_steady (set : SourceSet) (name text : String)
    (here : set.directory = directory)
    (steady : Steady directory places start bench.files)
    (own : Path.destination (Path.join directory name) ∈ places) :
    (set.writeHeader name text).Ensures bench
      (fun path after => path = Path.join directory name ∧
        Steady directory places start after.files)
      fun _ after => Aftermath machine output places start after.files := by
  subst here
  rcases set.writeHeader_ends name text bench with
    ⟨path, fault, files, attempted, ran⟩ | ⟨ready, files, made, written, ran⟩
  · obtain rfl := attempted.eq_of_isDirectory steady.stands
    exact .of_run_error ran steady.aftermath
  · obtain rfl := FileTree.createDirectories_of_isDirectory steady.stands made
    refine .of_run_ok ran ⟨rfl, ?_, ?_⟩
    · exact FileTree.isDirectory_of_keepsDirectories
        (FileTree.keepsDirectories_write written) steady.stands
    · exact steady.changes.trans
        ((FileTree.changesOnly_write written).mono (by simpa using own))

/-- Clearing the place of an artifact changes that place alone. -/
theorem clearPlace_changes (stands : bench.files.isDirectory (Path.steps directory) = true)
    (output : String) : (clearPlace directory output).Ensures bench
      (fun _ after => bench.files.ChangesOnly [Path.destination output] after.files)
      fun _ after => bench.files.ChangesOnly [Path.destination output] after.files := by
  rcases clearPlace_ends directory output bench with
    ⟨path, fault, files, attempted, ran⟩ | ⟨ready, cleared⟩
  · obtain rfl := attempted.eq_of_isDirectory stands
    exact .of_run_error ran (.refl _ _)
  · refine .of_run_ok (run_clearPlace cleared) ?_
    cases cleared with
    | absent made absent =>
        obtain rfl := FileTree.createDirectories_of_isDirectory stands made
        exact .refl _ _
    | removed made stood removed =>
        obtain rfl := FileTree.createDirectories_of_isDirectory stands made
        exact FileTree.changesOnly_remove removed

/-- A build changes the place of its artifact, and then runs the compiler. -/
theorem produce_aftermath (machine : Machine) (config : BuildConfig) (sources : SourceSet)
    (request : BuildRequest) (output : String) (kindFlags : List String) (kind : ArtifactKind)
    (steady : Steady sources.directory places start bench.files)
    (own : Path.destination output ∈ places) :
    (produce machine config sources request output kindFlags kind).Ensures bench
      (fun artifact after => artifact.path = output ∧
        Aftermath machine output places start after.files)
      fun _ after => Aftermath machine output places start after.files := by
  have cleared := (clearPlace_changes steady.stands output).mono
    (fun _ _ changes => steady.changes.trans (changes.mono (by simpa using own)))
    (fun _ _ changes => steady.changes.trans (changes.mono (by simpa using own)))
  refine .bind _ (cleared.mono_failed fun _ after changes => ⟨_, changes, .inl rfl⟩) ?_
  intro _ ready changes
  have told : output ∈ commandArguments config sources request output kindFlags := by
    simp [commandArguments]
  refine .bind (fun _ after => Aftermath machine output places start after.files)
    (.of_run_ok (Step.run_attempt _ _) ⟨_, changes, .inr ⟨_, told, rfl⟩⟩)
    fun result after left => ?_
  refine .bind_get ?_
  cases result with
  | error fault => exact .fail left
  | ok report =>
      dsimp only
      split
      · exact .pure ⟨rfl, left⟩
      · exact .fail left

/-- Opening a library changes no files. -/
theorem load_keeps_files (artifact : Artifact) (bench : Workbench) :
    artifact.load.Ensures bench (fun _ after => after.files = bench.files)
      fun _ after => after.files = bench.files := by
  unfold Artifact.load
  split
  · exact .fail rfl
  · unfold Step.Ensures Step.run loadPath
    dsimp only
    split
    · exact ⟨nofun, fun _ _ => rfl⟩
    · split
      · exact ⟨fun _ _ => rfl, nofun⟩
      · exact ⟨nofun, fun _ _ => rfl⟩

namespace NativeModule

/-- Where a build puts the header of a module. -/
def headerPath (module : NativeModule) (directory : String) : String :=
  Path.join directory (module.headerFile (.empty module.name directory))

/-- Where a build puts the source of a module. -/
def sourcePath (module : NativeModule) (directory : String) : String :=
  Path.join directory (sourceFile (.empty module.name directory))

/-- Where a build puts the library of a module. -/
def artifactPath (module : NativeModule) (target : Target) (directory : String) : String :=
  libraryPath target (.empty module.name directory)

/-- The places that a build of a module may change by itself. -/
def touched (module : NativeModule) (target : Target) (directory : String) : List (List String) :=
  [module.headerPath directory, module.sourcePath directory,
    module.artifactPath target directory].map Path.destination

/-- The path of the source file in the directory of a source set does not depend on the files the
set lists. -/
theorem sourcePath_listed (module : NativeModule) (directory : String) (list : List String) :
    Path.join directory (sourceFile ⟨module.name, directory, list⟩) = module.sourcePath directory :=
  rfl

/-- Until its compiler starts, compiling and loading changes some places alone if the library's place
is one of them. -/
theorem compileAndLoad_aftermath (machine : Machine) (config : BuildConfig) (sources : SourceSet)
    (request : BuildRequest) (steady : Steady sources.directory places start bench.files)
    (own : Path.destination (libraryPath config.target sources) ∈ places) :
    (compileAndLoad machine config sources request).Ensures bench
      (fun made after => made.1.path = libraryPath config.target sources ∧
        Aftermath machine (libraryPath config.target sources) places start after.files)
      fun _ after =>
        Aftermath machine (libraryPath config.target sources) places start after.files := by
  refine .bind _ (produce_aftermath machine config sources request _ _ _ steady own) ?_
  rintro artifact bench ⟨path, left⟩
  refine .bind _ ((load_keeps_files artifact bench).mono_failed ?_) fun library after same => ?_
  · rintro _ after same
    rwa [same]
  · refine .pure ⟨path, ?_⟩
    rwa [same]

/-- Where a scratch directory was made, it stands. -/
theorem isDirectory_of_makeScratch {label : String} {opened : Workbench}
    (made : (makeScratch label).run bench = (.ok directory, opened)) :
    opened.files.isDirectory (Path.steps directory) = true := by
  unfold Step.run makeScratch at made
  dsimp only at made
  split at made
  · cases made
  · split at made
    · rename_i files created
      obtain ⟨same, rfl⟩ := Prod.mk.inj made
      obtain rfl := Except.ok.inj same
      exact FileTree.isDirectory_of_createDirectories created
    · cases made

/-- Rendering a text leaves the workbench alone. -/
theorem render_steady {ε : Type} {step : Step NativeModule ε String} {widening : ε → BridgeFault}
    {state : NativeModule × Workbench} (steady : Steady directory places start state.2.files) :
    (Step.onFirst (step.widen widening) : BuildStep String).Ensures state
      (fun _ after => Steady directory places start after.2.files)
      fun _ after => Aftermath machine output places start after.2.files :=
  .onFirst ((Step.Ensures.ran _ _).mono (fun _ _ _ => steady) fun _ _ _ => steady.aftermath)

/-- A build changes the places of the header, the source and the artifact, and then runs the
compiler. -/
theorem build_aftermath (module : NativeModule) (machine : Machine) (config : BuildConfig)
    (request : BuildRequest) {opened : Workbench}
    (scratch : (makeScratch scratchLabel).run bench = (.ok directory, opened)) :
    (build machine config request).Ensures (module, bench)
      (fun built after => built.header = module.headerPath directory ∧
        built.source = module.sourcePath directory ∧
        built.artifact.path = module.artifactPath config.target directory ∧
        Aftermath machine (module.artifactPath config.target directory)
          (module.touched config.target directory) opened.files after.2.files)
      fun _ after => Aftermath machine (module.artifactPath config.target directory)
          (module.touched config.target directory) opened.files after.2.files := by
  have headerOwn : Path.destination (module.headerPath directory) ∈
      module.touched config.target directory := by simp [touched]
  have sourceOwn : Path.destination (module.sourcePath directory) ∈
      module.touched config.target directory := by simp [touched]
  have artifactOwn : Path.destination (module.artifactPath config.target directory) ∈
      module.touched config.target directory := by simp [touched]
  -- Of the places nothing is used but that these three are among them.
  generalize module.touched config.target directory = places at headerOwn sourceOwn artifactOwn ⊢
  have opening : Steady directory places opened.files opened.files :=
    ⟨isDirectory_of_makeScratch scratch, .refl _ _⟩
  have made : (Step.onSecond ((makeScratch scratchLabel).widen BridgeFault.scratch) :
      BuildStep String).run (module, bench) = (.ok directory, (module, opened)) := by
    have widened := Step.run_widen BridgeFault.scratch (makeScratch scratchLabel) bench
    rw [scratch] at widened
    exact congrArg (fun outcome => (outcome.1, (module, outcome.2))) widened
  refine .bind_of_ok made (.bind_get ?_)
  refine .bind _ (render_steady opening) fun headerText after steady => ?_
  refine .bind (fun header after => header = module.headerPath directory ∧
    Steady directory places opened.files after.2.files) (.onSecond (.widen ?_))
    fun header after both => ?_
  · exact SourceSet.writeHeader_steady _ _ _ rfl steady headerOwn
  obtain ⟨rfl, steady⟩ := both
  refine .bind _ (render_steady steady) fun sourceText after steady => ?_
  refine .bind (fun sources after => (∃ list, sources = ⟨module.name, directory, list⟩) ∧
    Steady directory places opened.files after.2.files) (.onSecond (.widen ?_)) ?_
  · refine .bind _ (SourceSet.writeHeader_steady _ _ _ rfl steady sourceOwn) ?_
    rintro path after ⟨-, steady⟩
    exact .pure ⟨⟨_, rfl⟩, steady⟩
  rintro _ after ⟨⟨list, rfl⟩, steady⟩
  refine .bind (fun made after => made.1.path = module.artifactPath config.target directory ∧
    Aftermath machine (module.artifactPath config.target directory) places opened.files
      after.2.files) (.onSecond (.widen ?_)) ?_
  · exact compileAndLoad_aftermath machine config _ _ steady artifactOwn
  rintro ⟨artifact, library⟩ after ⟨path, left⟩
  refine .pure ⟨?_, ?_, path, left⟩ <;> dsimp only
  exact sourcePath_listed module directory list

/-- The name that the files of a module start with. -/
def stem (module : NativeModule) : String := (SourceSet.empty module.name "").artifactStem

/-- The extension of headers is a suffix of a file name. -/
theorem isSuffix_hpp : Path.IsSuffix ".hpp" := ⟨⟨by decide, by decide⟩, 'h', by decide, by decide⟩

/-- The extension of sources is a suffix of a file name. -/
theorem isSuffix_cpp : Path.IsSuffix ".cpp" := ⟨⟨by decide, by decide⟩, 'c', by decide, by decide⟩

/-- The extension of Windows libraries is a suffix of a file name. -/
theorem isSuffix_dll : Path.IsSuffix ".dll" := ⟨⟨by decide, by decide⟩, 'd', by decide, by decide⟩

/-- The extension of libraries is a suffix of a file name on every target. -/
theorem isSuffix_libraryExtension (target : Target) :
    Path.IsSuffix ("." ++ target.libraryExtension) := by
  unfold Target.libraryExtension
  split
  · exact isSuffix_dll
  split
  · exact ⟨⟨by decide, by decide⟩, 'd', by decide, by decide⟩
  · exact ⟨⟨by decide, by decide⟩, 's', by decide, by decide⟩

variable {module : NativeModule}

/-- The stem alone decides where the header and the source are put. -/
theorem inside_headerPath_iff (unnamed : module.headerName = none) (directory : String) :
    Path.Inside directory (module.headerPath directory) ↔ Path.Stays directory module.stem := by
  have name : module.headerFile (.empty module.name directory) = module.stem ++ ".hpp" := by
    rw [headerFile, unnamed]
    rfl
  rw [headerPath, name]
  exact Path.inside_join_iff isSuffix_hpp (SourceSet.dotless_artifactStem _) directory

/-- The source file stays inside the directory exactly when its stem does. -/
theorem inside_sourcePath_iff (module : NativeModule) (directory : String) :
    Path.Inside directory (module.sourcePath directory) ↔ Path.Stays directory module.stem :=
  Path.inside_join_iff isSuffix_cpp (SourceSet.dotless_artifactStem _) directory

/-- A library whose name does not start with the stem is put into the directory in any case. -/
theorem inside_artifactPath_iff (module : NativeModule) (target : Target) (directory : String) :
    Path.Inside directory (module.artifactPath target directory) ↔
      target.isWindows = false ∨ Path.Stays directory module.stem := by
  have dotless : '.' ∉ module.stem.toList := SourceSet.dotless_artifactStem _
  have path : module.artifactPath target directory =
      Path.join directory (target.libraryName module.stem) := rfl
  rw [path, Target.libraryName]
  cases windows : target.isWindows with
  | true =>
      rw [if_pos rfl, Path.inside_join_iff isSuffix_dll dotless]
      simp
  | false =>
      rw [if_neg (by decide), String.append_assoc,
        Path.inside_join_iff (isSuffix_libraryExtension target) (by simpa using dotless)]
      refine iff_of_true (.inl ?_) (.inl rfl)
      simp [Path.isAbsolute]

/-- If the stem stays in a directory, all places that are touched are below it. -/
theorem prefix_of_mem_touched (unnamed : module.headerName = none) (target : Target)
    (stays : Path.Stays directory module.stem) :
    ∀ place ∈ module.touched target directory, Path.destination directory <+: place := by
  simp only [touched, List.forall_mem_map, List.forall_mem_cons]
  exact ⟨((inside_headerPath_iff unnamed directory).mpr stays).destination,
    ((inside_sourcePath_iff module directory).mpr stays).destination,
    ((inside_artifactPath_iff module target directory).mpr (.inr stays)).destination, nofun⟩

/-- The header and the source of a module are put into its scratch directory exactly if its stem
stays there, and so is the artifact unless its name starts otherwise. Whatever comes of a build, it
changes the places of these three alone before the compiler runs, so nothing outside the directory
if the stem stays there. -/
theorem build_inside_iff (machine : Machine) (config : BuildConfig) (request : BuildRequest)
    (unnamed : module.headerName = none) {opened : Workbench}
    (scratch : (makeScratch scratchLabel).run bench = (.ok directory, opened)) :
    (Path.Inside directory (module.headerPath directory) ↔ Path.Stays directory module.stem) ∧
      (Path.Inside directory (module.sourcePath directory) ↔ Path.Stays directory module.stem) ∧
      (Path.Inside directory (module.artifactPath config.target directory) ↔
        config.target.isWindows = false ∨ Path.Stays directory module.stem) ∧
      (∀ built, ((build machine config request).run (module, bench)).1 = .ok built →
        built.header = module.headerPath directory ∧ built.source = module.sourcePath directory ∧
          built.artifact.path = module.artifactPath config.target directory) ∧
      ∃ files, opened.files.ChangesOnly (module.touched config.target directory) files ∧
        (Path.Stays directory module.stem → ∀ place, ¬Path.destination directory <+: place →
          files.node? place = opened.files.node? place) ∧
        (((build machine config request).run (module, bench)).2.2.files = files ∨
          ∃ job : Job, module.artifactPath config.target directory ∈ job.args ∧
            ((build machine config request).run (module, bench)).2.2.files =
              (machine.start job files).2) := by
  have ensured := build_aftermath module machine config request scratch
  cases ran : (build machine config request).run (module, bench) with
  | mk result after =>
      have left := ensured.mono (fun _ _ holds => holds.2.2.2) fun _ _ holds => holds
      obtain ⟨files, changes, ends⟩ :=
        left.of_run (fun after => Aftermath machine _ _ opened.files after.2.files) ran
      refine ⟨inside_headerPath_iff unnamed directory, inside_sourcePath_iff module directory,
        inside_artifactPath_iff module config.target directory, fun built answered => ?_, files,
        changes, fun stays place outside => ?_, ends⟩
      · obtain rfl : result = .ok built := answered
        obtain ⟨header, source, artifact, -⟩ := ensured.of_ok ran
        exact ⟨header, source, artifact⟩
      · exact changes place fun member =>
          outside (prefix_of_mem_touched unnamed config.target stays place member)

/-- A machine on which every program ends at once with exit code one. -/
def failing : Machine := ⟨fun _ files => (.ok (.ended ⟨.exited 1, [], []⟩), files), .caught⟩

/-- The first scratch directory that is made. -/
def firstScratch : String := "/tmp/phillip-module-000000"

/-- A workbench on which the first scratch directory was made. -/
def openedBench (files : FileTree Content) : Workbench :=
  ((makeScratch scratchLabel).run (.fresh "/tmp" files)).2

/-- The files that a build of a module leaves, where nothing stood before. -/
def builtFiles (module : NativeModule) : FileTree Content :=
  ((build failing (.standardFor .linux) .plain).run (module, .fresh "/tmp" .empty)).2.2.files

/-- A module with a plain name behind dots is built in its scratch directory alone. -/
theorem build_inside_iff_dotted :
    (makeScratch scratchLabel).run (.fresh "/tmp" .empty) =
        (.ok firstScratch, openedBench .empty) ∧
      Path.Inside firstScratch ((NativeModule.empty "pkg.demo").headerPath firstScratch) ∧
      Path.Inside firstScratch ((NativeModule.empty "pkg.demo").sourcePath firstScratch) ∧
      Path.Inside firstScratch ((NativeModule.empty "pkg.demo").artifactPath .linux firstScratch) ∧
      ∃ files, (∀ place, ¬Path.destination firstScratch <+: place →
          files.node? place = (openedBench .empty).files.node? place) ∧
        (builtFiles (.empty "pkg.demo") = files ∨
          ∃ job : Job, (NativeModule.empty "pkg.demo").artifactPath .linux firstScratch ∈ job.args ∧
            builtFiles (.empty "pkg.demo") = (failing.start job files).2) := by
  have scratch : (makeScratch scratchLabel).run (.fresh "/tmp" .empty) =
      (.ok firstScratch, openedBench .empty) := Prod.ext (by decide +kernel) rfl
  have stays : Path.Stays firstScratch (NativeModule.empty "pkg.demo").stem :=
    .inl (by decide +kernel)
  have unnamed : (NativeModule.empty "pkg.demo").headerName = none := rfl
  obtain ⟨header, source, artifact, -, files, -, outside, ends⟩ :=
    build_inside_iff failing (.standardFor .linux) .plain unnamed scratch
  refine ⟨scratch, header.mpr stays, source.mpr stays, artifact.mpr (.inr stays), files,
    outside stays, ?_⟩
  rw [builtFiles]
  exact ends

/-- Two files of somebody else under the root. -/
def rootFiles : FileTree Content :=
  ⟨[(["x.hpp"], .file (.octets [])), (["x.dll"], .file (.octets []))]⟩

/-- A target whose libraries are named by the stem alone. -/
def windows : Target := ⟨"x86_64", "pc", "windows", some "msvc"⟩

/-- What a build of a module that is named by an absolute path leaves of these files. -/
def rootFilesAfter : FileTree Content :=
  let after := (build failing (.standardFor windows) .plain).run
    (.empty "/x", .fresh "/tmp" rootFiles)
  after.2.2.files

/-- The header of a module that is named by an absolute path is written over a file outside the
scratch directory, and a file at the place of its library is taken away. -/
theorem escapes_absolute :
    (makeScratch scratchLabel).run (.fresh "/tmp" rootFiles) =
        (.ok firstScratch, openedBench rootFiles) ∧
      (NativeModule.empty "/x").headerPath firstScratch = "/x.hpp" ∧
      ¬Path.Inside firstScratch "/x.hpp" ∧ SourceSet.text? rootFiles "/x.hpp" = some "" ∧
      SourceSet.text? rootFilesAfter "/x.hpp" ≠ some "" ∧
      (NativeModule.empty "/x").artifactPath windows firstScratch = "/x.dll" ∧
      ¬Path.Inside firstScratch "/x.dll" ∧ rootFiles.contains "/x.dll" = true ∧
      rootFilesAfter.contains "/x.dll" = false := by
  have below : Path.steps firstScratch ≠ [] := by
    have number : Path.IsPart "000000" := ⟨by decide, by decide⟩
    obtain ⟨last, -, same⟩ := Path.exists_steps_eq number "/tmp/phillip-module-"
    have split : firstScratch = "/tmp/phillip-module-" ++ "000000" := by decide
    rw [split, same]
    exact List.append_ne_nil_of_right_ne_nil _ nofun
  have outside : ∀ path step, Path.steps path = [step] → ¬Path.Inside firstScratch path := by
    rintro path step alone ⟨rest, filled, -, same⟩
    rw [alone, eq_comm, List.append_eq_singleton_iff] at same
    rcases same with ⟨none, -⟩ | ⟨-, none⟩
    · exact below none
    · exact filled none
  exact ⟨Prod.ext (by decide +kernel) rfl, by decide +kernel, outside _ "x.hpp" (by decide +kernel),
    by decide +kernel, by decide +kernel, by decide +kernel, outside _ "x.dll" (by decide +kernel),
    by decide +kernel, by decide +kernel⟩

end NativeModule

end TypeBridge
