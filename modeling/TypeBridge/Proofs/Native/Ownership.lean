import TypeBridge.Build.Artifact
import TypeBridge.Proofs.Generated.Binding

/-!
# Owners of loaded libraries

`Holdings` are the values that keep libraries open: loaded libraries with their clones, functions
that were bound one by one, and bound modules. An `Act` loads, clones, binds, gives up or unloads
one of them, or does anything else that leaves the handles alone. In all states that acts lead to,
a handle has as many owners as there are values that hold it (`Reached.accounted`), and
`handles_exact` says what unloading answers then.
-/

namespace TypeBridge

/-- All values that keep libraries open. -/
structure Holdings where
  libraries : List LoadedLibrary
  /-- Functions that were bound one by one. -/
  functions : List BoundFunction
  modules : List BoundModule

namespace Holdings

/-- Nothing is held. -/
def none : Holdings := ⟨[], [], []⟩

/-- The handles that are held, once for each value that holds them. -/
def owners (holdings : Holdings) : List Nat :=
  holdings.libraries.map (·.handle) ++ holdings.functions.map (·.handle) ++
    holdings.modules.flatMap fun bound => bound.functions.map (·.handle)

/-- Some value holds a handle. -/
def Hold (holdings : Holdings) (handle : Nat) : Prop :=
  (∃ library ∈ holdings.libraries, library.handle = handle) ∨
    (∃ function ∈ holdings.functions, function.handle = handle) ∨
    ∃ bound ∈ holdings.modules, ∃ function ∈ bound.functions, function.handle = handle

/-- A handle is held exactly when it is among the owners. -/
theorem hold_iff_mem {holdings : Holdings} {handle : Nat} :
    holdings.Hold handle ↔ handle ∈ holdings.owners := by
  simp only [Hold, owners, List.mem_append, List.mem_map, List.mem_flatMap, or_assoc]

/-! ## What can be done with holdings -/

/-- The two ways to load a library. -/
inductive Loading : Step Workbench BuildFault LoadedLibrary → Prop
  | artifact (artifact : Artifact) : Loading artifact.load
  | path (path : String) (exports : List String) : Loading (loadPath path exports)

/-- Anything that is done with the values that are held, whatever comes of it. A value that is given
up or unloaded is held no more. -/
inductive Act (state : Workbench × Holdings) : Workbench × Holdings → Prop
  | load {step : Step Workbench BuildFault LoadedLibrary} (loading : Loading step) :
      Act state ((step.run state.1).2, { state.2 with
        libraries := (step.run state.1).1.toOption.toList ++ state.2.libraries })
  | clone {library : LoadedLibrary} (held : library ∈ state.2.libraries) :
      Act state ((library.clone.run state.1).2, { state.2 with
        libraries := (library.clone.run state.1).1.toOption.toList ++ state.2.libraries })
  | bind {library : LoadedLibrary} {module : NativeModule} (held : library ∈ state.2.libraries)
      (reached : module.Reached) :
      Act state (((BoundModule.bind module library).run state.1).2, { state.2 with
        modules := ((BoundModule.bind module library).run state.1).1.toOption.toList ++
          state.2.modules })
  | bindFunction {library : LoadedLibrary} (held : library ∈ state.2.libraries) (name : String)
      (signature : Signature) :
      Act state (((library.bindFunction name signature).run state.1).2, { state.2 with
        functions := ((library.bindFunction name signature).run state.1).1.toOption.toList ++
          state.2.functions })
  | dropLibrary {library : LoadedLibrary} {front back : List LoadedLibrary}
      (split : state.2.libraries = front ++ library :: back) :
      Act state (library.drop state.1, { state.2 with libraries := front ++ back })
  | dropFunction {function : BoundFunction} {front back : List BoundFunction}
      (split : state.2.functions = front ++ function :: back) :
      Act state (function.drop state.1, { state.2 with functions := front ++ back })
  | dropModule {bound : BoundModule} {front back : List BoundModule}
      (split : state.2.modules = front ++ bound :: back) :
      Act state (bound.drop state.1, { state.2 with modules := front ++ back })
  | unload {library : LoadedLibrary} {front back : List LoadedLibrary}
      (split : state.2.libraries = front ++ library :: back) :
      Act state ((library.unload.run state.1).2, { state.2 with libraries := front ++ back })
  | work {bench : Workbench} (same : bench.handles = state.1.handles) :
      Act state (bench, state.2)

/-- Any number of acts. -/
abbrev Acts : Workbench × Holdings → Workbench × Holdings → Prop := Relation.ReflTransGen Act

/-- The states that acts lead to from a workbench on which nothing has happened. -/
def Reached (state : Workbench × Holdings) : Prop :=
  ∃ scratchRoot files, Acts (.fresh scratchRoot files, none) state

variable {state after : Workbench × Holdings} {bench : Workbench} {holdings : Holdings}
  {library : LoadedLibrary} {handle : Nat}

/-! ## Single acts -/

/-- Every handle has as many owners as there are values that hold it. -/
def Accounts (state : Workbench × Holdings) : Prop :=
  state.1.handles.Accounted state.2.owners

/-- A library that is loaded is opened. -/
theorem Loading.ends {step : Step Workbench BuildFault LoadedLibrary} (loading : Loading step)
    (bench : Workbench) :
    (∃ fault, step.run bench = (.error fault, bench)) ∨
      ∃ library : LoadedLibrary, library.handle = bench.handles.opened.1 ∧
        step.run bench = (.ok library, { bench with handles := bench.handles.opened.2 }) := by
  have opens : ∀ path exports,
      (∃ fault, (loadPath path exports).run bench = (.error fault, bench)) ∨
        ∃ library : LoadedLibrary, library.handle = bench.handles.opened.1 ∧
          (loadPath path exports).run bench =
            (.ok library, { bench with handles := bench.handles.opened.2 }) := by
    intro path exports
    rw [Step.run, loadPath]
    split
    · exact .inl ⟨_, rfl⟩
    · split
      · exact .inr ⟨_, rfl, rfl⟩
      · exact .inl ⟨_, rfl⟩
  cases loading with
  | path path exports => exact opens path exports
  | artifact artifact =>
      unfold Artifact.load
      cases artifact.kind with
      | executable => exact .inl ⟨_, rfl⟩
      | sharedLibrary => exact opens artifact.path artifact.exports

/-- A function holds the library that it was taken from. -/
theorem handle_bindSymbol {name : String} {signature : Signature} {function : BoundFunction}
    (taken : bindSymbol library name signature = .ok function) :
    function.handle = library.handle := by
  unfold bindSymbol at taken
  split at taken
  · cases taken
  · split at taken
    · cases taken
    · cases taken
      rfl

/-- A function that is bound is one more owner of its library. -/
theorem bindFunction_ends (library : LoadedLibrary) (name : String) (signature : Signature)
    (bench : Workbench) :
    (∃ fault, (library.bindFunction name signature).run bench = (.error fault, bench)) ∨
      ∃ function : BoundFunction, function.handle = library.handle ∧
        (library.bindFunction name signature).run bench =
          (.ok function, { bench with handles := bench.handles.gain library.handle 1 }) := by
  rw [Step.run, LoadedLibrary.bindFunction]
  cases taken : bindSymbol library name signature with
  | error fault => exact .inl ⟨fault, rfl⟩
  | ok function => exact .inr ⟨function, handle_bindSymbol taken, rfl⟩

/-- Functions that are given up take their owners with them. -/
theorem accounted_giveUp {functions : List BoundFunction} {others : List Nat}
    (accounted : bench.handles.Accounted (functions.map (·.handle) ++ others)) :
    (BoundModule.giveUp functions bench).handles.Accounted others := by
  induction functions generalizing bench with
  | nil => exact accounted
  | cons function rest ih =>
      have released : (function.drop bench).handles.Accounted (rest.map (·.handle) ++ others) :=
        accounted.release
      exact ih released

/-- The functions of a bound module all hold the library that it was bound to. -/
theorem handles_bound {entries : List InterfaceEntry} {functions : List BoundFunction}
    (all : List.Forall₂ (BoundModule.Binds library) entries functions) :
    functions.map (·.handle) = List.replicate functions.length library.handle := by
  induction all with
  | nil => rfl
  | cons binds _ ih => rw [List.map_cons, binds.handle, ih, List.length_cons, List.replicate_succ]

/-- The handle of a held library is among the owners. -/
theorem mem_owners (held : library ∈ holdings.libraries) : library.handle ∈ holdings.owners :=
  hold_iff_mem.mp (.inl ⟨library, held, rfl⟩)

/-- Setting a library aside takes one owner away. -/
theorem owners_libraries {front back : List LoadedLibrary}
    (split : holdings.libraries = front ++ library :: back) :
    holdings.owners.Perm
      (library.handle :: { holdings with libraries := front ++ back : Holdings }.owners) := by
  rw [List.perm_iff_count]
  intro handle
  simp only [owners, split, List.map_append, List.map_cons, List.count_append, List.count_cons]
  omega

/-- Setting a bound function aside takes one owner away. -/
theorem owners_functions {function : BoundFunction} {front back : List BoundFunction}
    (split : holdings.functions = front ++ function :: back) :
    holdings.owners.Perm
      (function.handle :: { holdings with functions := front ++ back : Holdings }.owners) := by
  rw [List.perm_iff_count]
  intro handle
  simp only [owners, split, List.map_append, List.map_cons, List.count_append, List.count_cons]
  omega

/-- Setting a bound module aside takes away the owners that its functions are. -/
theorem owners_modules {bound : BoundModule} {front back : List BoundModule}
    (split : holdings.modules = front ++ bound :: back) :
    holdings.owners.Perm (bound.functions.map (·.handle) ++
      { holdings with modules := front ++ back : Holdings }.owners) := by
  rw [List.perm_iff_count]
  intro handle
  simp only [owners, split, List.flatMap_append, List.flatMap_cons, List.count_append]
  omega

/-- Every act changes the owners of handles as it changes the values that are held. -/
theorem Act.accounts (act : Act state after) (accounts : Accounts state) : Accounts after := by
  cases act with
  | @load step loading =>
      rcases loading.ends state.1 with ⟨fault, ran⟩ | ⟨library, same, ran⟩
      · rw [ran]
        exact accounts
      · rw [ran]
        have opened := Handles.Accounted.opened accounts
        rw [← same] at opened
        exact opened
  | @clone library held => exact Handles.Accounted.gain accounts (mem_owners held) 1
  | @bind library module held reached =>
      have ends := BoundModule.bind_ends reached.tidy library state.1
      generalize (BoundModule.bind module library).run state.1 = outcome at ends ⊢
      cases ends with
      | unexported first => exact accounts
      | incomplete exported first => exact accounts
      | @complete functions exported all =>
          have gained := Handles.Accounted.gain accounts (mem_owners held) functions.length
          rw [← handles_bound all] at gained
          let more : Holdings := { state.2 with
            modules := ⟨library.path, functions⟩ :: state.2.modules }
          have split : more.modules = [] ++ ⟨library.path, functions⟩ :: state.2.modules := rfl
          exact gained.perm (owners_modules split).symm
  | @bindFunction library held name signature =>
      rcases bindFunction_ends library name signature state.1 with
        ⟨fault, ran⟩ | ⟨function, same, ran⟩
      · rw [ran]
        exact accounts
      · rw [ran]
        have gained : (state.1.handles.gain library.handle 1).Accounted
            (function.handle :: state.2.owners) := by
          rw [same]
          exact Handles.Accounted.gain accounts (mem_owners held) 1
        let more : Holdings := { state.2 with functions := function :: state.2.functions }
        have split : more.functions = [] ++ function :: state.2.functions := rfl
        exact gained.perm (owners_functions split).symm
  | dropLibrary split =>
      exact Handles.Accounted.release (Handles.Accounted.perm accounts (owners_libraries split))
  | dropFunction split =>
      exact Handles.Accounted.release (Handles.Accounted.perm accounts (owners_functions split))
  | dropModule split =>
      exact accounted_giveUp (Handles.Accounted.perm accounts (owners_modules split))
  | unload split =>
      exact Handles.Accounted.release (Handles.Accounted.perm accounts (owners_libraries split))
  | work same =>
      rw [Accounts, same]
      exact accounts

/-! ## Runs of acts -/

/-- An act keeps the accounts. -/
theorem Acts.accounts (acts : Acts state after) (accounts : Accounts state) : Accounts after := by
  induction acts with
  | refl => exact accounts
  | tail _ act ih => exact act.accounts ih

/-- The accounts hold in every state that is reached. -/
theorem Reached.accounts (reached : Reached state) : Accounts state := by
  obtain ⟨scratchRoot, files, acts⟩ := reached
  exact Acts.accounts acts fun _ => rfl

/-- A handle is open if and only if some value holds it. -/
theorem Accounts.isOpen_iff (accounts : Accounts state) :
    state.1.handles.isOpen handle ↔ state.2.Hold handle := by
  rw [hold_iff_mem, ← List.count_pos_iff, ← accounts, Handles.isOpen, Nat.pos_iff_ne_zero]
  simp

/-- Unloading answers that the library was released if no other value holds it, and that it was
retained otherwise. -/
theorem Accounts.unload_eq (accounts : Accounts state) {front back : List LoadedLibrary}
    (split : state.2.libraries = front ++ library :: back) (outcome : UnloadOutcome) :
    (library.unload.run state.1).1 = .ok outcome ↔
      (outcome = .retained ↔ Hold { state.2 with libraries := front ++ back } library.handle) := by
  have counted : state.1.handles.count library.handle = 1 +
      List.count library.handle { state.2 with libraries := front ++ back : Holdings }.owners := by
    rw [accounts, (owners_libraries split).count_eq, List.count_cons_self, Nat.add_comm]
  rw [hold_iff_mem, ← List.count_pos_iff]
  generalize List.count library.handle _ = others at counted ⊢
  rw [Step.run, LoadedLibrary.unload, Handles.unload, counted]
  dsimp only
  by_cases alone : others = 0
  · cases outcome with
    | released => simp [alone]
    | retained => simp [alone]
  · cases outcome with
    | released => simp [alone, Nat.pos_iff_ne_zero]
    | retained => simp [alone, Nat.pos_iff_ne_zero]

/-- Unloading answers that a library was released if and only if no other value holds it, and that
it was retained if and only if some other value does. Whatever is done then, the library stays open
as long as some value holds it and no longer. A binding that fails leaves all handles as they
were. -/
theorem handles_exact (reached : Reached state) :
    (∀ front library back, state.2.libraries = front ++ library :: back →
      let others : Holdings := { state.2 with libraries := front ++ back }
      ((library.unload.run state.1).1 = .ok .released ↔ ¬others.Hold library.handle) ∧
      ((library.unload.run state.1).1 = .ok .retained ↔ others.Hold library.handle) ∧
      ∀ after, Acts ((library.unload.run state.1).2, others) after →
        (after.1.handles.isOpen library.handle ↔ after.2.Hold library.handle)) ∧
    (∀ handle, state.1.handles.isOpen handle ↔ state.2.Hold handle) ∧
    (∀ library module fault bench, library ∈ state.2.libraries → module.Reached →
      (BoundModule.bind module library).run state.1 = (.error fault, bench) →
        bench.handles = state.1.handles) := by
  have accounts := reached.accounts
  refine ⟨fun front library back split => ⟨?_, ?_, fun after acts => ?_⟩,
    fun handle => accounts.isOpen_iff, ?_⟩
  · simpa using accounts.unload_eq split .released
  · simpa using accounts.unload_eq split .retained
  · exact (Acts.accounts acts (Act.accounts (.unload split) accounts)).isOpen_iff
  · intro library module fault bench held built ran
    have ends := BoundModule.bind_ends built.tidy library state.1
    rw [ran] at ends
    cases ends with
    | unexported first => rfl
    | incomplete exported first => rfl

/-- A workbench with a shared library among its files. -/
def libraryBench : Workbench :=
  .fresh "/tmp" ((FileTree.empty.put ["tmp"] .directory).put ["tmp", "libm.so"]
    (.file (.library (BoundModule.libraryWith ["f"]).image)))

/-- Loading a library with one export binds it and opens one handle. -/
theorem run_loadPath : (loadPath "/tmp/libm.so" ["f"]).run libraryBench =
    (.ok (BoundModule.libraryWith ["f"]), { libraryBench with handles := ⟨[1]⟩ }) := by
  have present : libraryBench.files.contains "/tmp/libm.so" := by decide +kernel
  have content : libraryBench.files.content? "/tmp/libm.so" =
      some (.library (BoundModule.libraryWith ["f"]).image) := by rfl
  rw [Step.run, loadPath, present, content]
  rfl

/-- A module with one interface can be bound to the library there. -/
theorem exists_reached_bound : ∃ bench bound,
    Reached (bench, ⟨[BoundModule.libraryWith ["f"]], [], [bound]⟩) ∧
      ∃ function ∈ bound.functions, function.handle = 0 := by
  let library := BoundModule.libraryWith ["f"]
  let opened : Workbench × Holdings :=
    ({ libraryBench with handles := ⟨[1]⟩ }, ⟨[library], [], []⟩)
  have load : Act (libraryBench, none) opened := by
    have act : Act (libraryBench, none) _ := .load (.path "/tmp/libm.so" ["f"])
    rw [run_loadPath] at act
    exact act
  have held : library ∈ opened.2.libraries := List.mem_cons_self
  have bind : Act opened _ := .bind held NativeModule.reached_taking
  have ends := BoundModule.bind_ends NativeModule.reached_taking.tidy library opened.1
  have present : ∀ name ∈ NativeModule.taking.interfaceNames, library.image.exports name := by
    rw [BoundModule.names_taking]
    decide
  generalize (BoundModule.bind .taking library).run opened.1 = outcome at bind ends
  cases ends with
  | unexported first => exact absurd (by decide) first.not_all
  | incomplete exported first => exact absurd present first.not_all
  | @complete functions exported all =>
      refine ⟨_, ⟨library.path, functions⟩,
        ⟨"/tmp", _, (Relation.ReflTransGen.single load).tail bind⟩, ?_⟩
      have names := (BoundModule.names_eq all).trans BoundModule.names_taking
      obtain ⟨function, member, -⟩ := List.mem_map.mp (names ▸ List.mem_singleton.mpr rfl)
      have holds : function.handle ∈ functions.map (·.handle) := List.mem_map_of_mem member
      rw [handles_bound all] at holds
      exact ⟨function, member, List.eq_of_mem_replicate holds⟩

/-- A library that a bound module holds is retained, and closed with the module. -/
theorem handles_exact_bound : ∃ bench bound,
    Reached (bench, ⟨[BoundModule.libraryWith ["f"]], [], [bound]⟩) ∧
    ((BoundModule.libraryWith ["f"]).unload.run bench).1 = .ok .retained ∧
    let after := ((BoundModule.libraryWith ["f"]).unload.run bench).2
    after.handles.isOpen 0 ∧ ¬(bound.drop after).handles.isOpen 0 := by
  obtain ⟨bench, bound, reached, function, member, holds⟩ := exists_reached_bound
  obtain ⟨-, retained, later⟩ := (handles_exact reached).1 [] _ [] rfl
  have held : Hold ⟨[], [], [bound]⟩ 0 :=
    .inr (.inr ⟨bound, List.mem_cons_self, function, member, holds⟩)
  refine ⟨bench, bound, reached, retained.mpr held, (later _ .refl).mpr held, fun stillOpen => ?_⟩
  have alone : [bound] = [] ++ bound :: [] := rfl
  have dropped : Act (((BoundModule.libraryWith ["f"]).unload.run bench).2, ⟨[], [], [bound]⟩)
      _ := .dropModule alone
  obtain ⟨library, nothing, -⟩ | ⟨function, nothing, -⟩ | ⟨bound, nothing, -⟩ :=
    (later _ (.single dropped)).mp stillOpen
  · cases nothing
  · cases nothing
  · cases nothing

end Holdings

end TypeBridge
