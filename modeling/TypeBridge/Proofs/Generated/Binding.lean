import TypeBridge.Generated.Binding
import TypeBridge.Proofs.Generated.DeclaredNames
import TypeBridge.Proofs.Generated.Renaming
import TypeBridge.Proofs.Native.Handles

/-!
# Binding

A module is bound to a library interface by interface. As the interfaces of a module that calls lead
to have names of their own, none of them takes the place of another, and each one has the function
that was bound for it (`bind_ends`). `bind_exact` says when a module can be bound, what it is bound
to, and which missing symbol is reported otherwise.
-/

namespace TypeBridge

/-- The first of some symbols that a library does not export. -/
def LoadedLibrary.FirstMissing (library : LoadedLibrary) (symbols : List String)
    (symbol : String) : Prop :=
  ∃ front back, symbols = front ++ symbol :: back ∧ library.image.exports symbol = false ∧
    ∀ earlier ∈ front, library.image.exports earlier

namespace LoadedLibrary

variable {library : LoadedLibrary} {symbols : List String} {symbol other : String}

theorem FirstMissing.here (absent : library.image.exports symbol = false) :
    library.FirstMissing (symbol :: symbols) symbol :=
  ⟨[], symbols, rfl, absent, nofun⟩

theorem FirstMissing.behind (first : library.FirstMissing symbols symbol)
    (present : library.image.exports other) : library.FirstMissing (other :: symbols) symbol := by
  obtain ⟨front, back, rfl, absent, earlier⟩ := first
  exact ⟨other :: front, back, rfl, absent, List.forall_mem_cons.mpr ⟨present, earlier⟩⟩

/-- Where a symbol is missing, not all symbols are exported. -/
theorem FirstMissing.not_all (first : library.FirstMissing symbols symbol) :
    ¬∀ symbol ∈ symbols, library.image.exports symbol := by
  obtain ⟨front, back, rfl, absent, -⟩ := first
  intro all
  have present := all symbol (List.mem_append_right front List.mem_cons_self)
  rw [absent] at present
  cases present

/-- A search for a missing symbol finds the first one. -/
theorem firstMissing_of_find?
    (found : symbols.find? (fun symbol => !library.image.exports symbol) = some symbol) :
    library.FirstMissing symbols symbol := by
  obtain ⟨absent, front, back, split, earlier⟩ := List.find?_eq_some_iff_append.mp found
  refine ⟨front, back, split, by simpa using absent, fun other member => ?_⟩
  simpa using earlier other member

end LoadedLibrary

namespace BoundModule

variable {module : NativeModule} {library : LoadedLibrary} {bench : Workbench}
  {entry : InterfaceEntry} {function : BoundFunction} {entries : List InterfaceEntry}
  {bound functions : List BoundFunction}

/-- A function of a library stands for an interface. -/
structure Binds (library : LoadedLibrary) (entry : InterfaceEntry) (function : BoundFunction) :
    Prop where
  name : function.name = entry.callable.name
  signature : function.signature = entry.signature
  code : library.image.code? entry.callable.name = some function.code
  handle : function.handle = library.handle

/-- An interface that a library exports is bound, as one more owner of the library. -/
theorem exists_bindFunction (present : library.image.exports entry.callable.name)
    (passable : ∀ shape ∈ entry.signature.params, shape.isVoid = false) (bench : Workbench) :
    ∃ function, (library.bindFunction entry.callable.name entry.signature).run bench =
      (.ok function, { bench with handles := bench.handles.acquire library.handle }) ∧
      Binds library entry function := by
  obtain ⟨code, has⟩ := Option.isSome_iff_exists.mp present
  have solid : entry.signature.params.any Shape.isVoid = false := by
    simpa using passable
  have bound : bindSymbol library entry.callable.name entry.signature =
      .ok ⟨entry.callable.name, entry.signature, code, library.handle⟩ := by
    rw [bindSymbol, has]
    simp [solid]
  refine ⟨⟨entry.callable.name, entry.signature, code, library.handle⟩, ?_, rfl, rfl, has, rfl⟩
  rw [Step.run, LoadedLibrary.bindFunction, bound]

/-! ## Binding a list of interfaces -/

/-- A workbench on which a handle has further owners. -/
def withOwners (bench : Workbench) (handle more : Nat) : Workbench :=
  { bench with handles := bench.handles.gain handle more }

/-- The ways in which binding some interfaces behind others ends. -/
inductive Bindings (module : NativeModule) (library : LoadedLibrary) (bench : Workbench)
    (bound : List BoundFunction) (entries : List InterfaceEntry) :
    Except GenerateFault (List BoundFunction) × Workbench → Prop
  | missing {symbol : String}
      (first : library.FirstMissing (entries.map (·.callable.name)) symbol) :
      Bindings module library bench bound entries
        (.error (BoundModule.missing module library symbol), bench)
  | complete {functions : List BoundFunction}
      (all : List.Forall₂ (Binds library) entries functions) :
      Bindings module library bench bound entries (.ok (bound ++ functions),
        withOwners bench library.handle (bound.length + entries.length))

/-- A function with a name of its own is kept behind the others. -/
theorem keep_eq (fresh : function.name ∉ bound.map (·.name)) :
    keep bound function = bound ++ [function] := by
  have others : bound.filter (fun other => other.name ≠ function.name) = bound :=
    List.filter_eq_self.mpr (by simpa using fresh)
  rw [keep, others]

theorem replaced_eq_nil (fresh : function.name ∉ bound.map (·.name)) :
    bound.filter (fun other => other.name = function.name) = [] :=
  List.filter_eq_nil_iff.mpr (by simpa using fresh)

/-- Functions that are given up take the owners with them that they made. -/
theorem giveUp_withOwners (bench : Workbench) {handle : Nat}
    (own : ∀ function ∈ bound, function.handle = handle) :
    giveUp bound (withOwners bench handle bound.length) = bench := by
  induction bound with
  | nil => rw [giveUp, List.foldl_nil, withOwners, List.length_nil, Handles.gain_zero]
  | cons function rest ih =>
      obtain ⟨its, others⟩ := List.forall_mem_cons.mp own
      have dropped : function.drop (withOwners bench handle (function :: rest).length) =
          withOwners bench handle rest.length := by
        rw [BoundFunction.drop, its, withOwners, List.length_cons, Handles.release_gain, withOwners]
      rw [giveUp, List.foldl_cons, dropped]
      exact ih others

theorem run_bindFrom_missing (absent : library.image.exports entry.callable.name = false) :
    (bindFrom module library bound (entry :: entries)).run bench =
      (.error (missing module library entry.callable.name), giveUp bound bench) := by
  rw [bindFrom]
  dsimp only
  rw [if_pos (by simp only [absent, Bool.not_false])]
  rfl

/-- A further function with a name of its own is kept as one more owner. -/
theorem run_bindFrom_present (present : library.image.exports entry.callable.name)
    (taken : (library.bindFunction entry.callable.name entry.signature).run
        (withOwners bench library.handle bound.length) =
      (.ok function, withOwners bench library.handle (bound ++ [function]).length))
    (fresh : function.name ∉ bound.map (·.name)) :
    (bindFrom module library bound (entry :: entries)).run
        (withOwners bench library.handle bound.length) =
      (bindFrom module library (bound ++ [function]) entries).run
        (withOwners bench library.handle (bound ++ [function]).length) := by
  rw [bindFrom]
  dsimp only
  rw [if_neg (by simp only [present, Bool.not_true, Bool.false_eq_true, not_false_eq_true]),
    Step.run_bind, Step.run_attempt, taken]
  dsimp only
  rw [Step.run_bind, Step.run_modify, replaced_eq_nil fresh, keep_eq fresh]
  rfl

/-- Interfaces with names of their own are bound one by one, each as one more owner of the library;
when one is missing, those before it are given up again. -/
theorem bindFrom_ends (bench : Workbench) (bound : List BoundFunction)
    (own : ∀ function ∈ bound, function.handle = library.handle)
    (distinct : (bound.map (·.name) ++ entries.map (·.callable.name)).Nodup)
    (passable : ∀ entry ∈ entries, ∀ shape ∈ entry.signature.params, shape.isVoid = false) :
    Bindings module library bench bound entries ((bindFrom module library bound entries).run
      (withOwners bench library.handle bound.length)) := by
  induction entries generalizing bound with
  | nil =>
      have nothing : Bindings module library bench bound [] _ := .complete .nil
      rwa [List.append_nil] at nothing
  | cons entry rest ih =>
      obtain ⟨passes, others⟩ := List.forall_mem_cons.mp passable
      cases present : library.image.exports entry.callable.name with
      | false =>
          rw [run_bindFrom_missing present, giveUp_withOwners bench own]
          exact .missing (.here present)
      | true =>
          obtain ⟨function, taken, binds⟩ :=
            exists_bindFunction present passes (withOwners bench library.handle bound.length)
          have fresh : function.name ∉ bound.map (·.name) := by
            rw [binds.name]
            intro member
            exact (List.nodup_append.mp distinct).2.2 _ member _ List.mem_cons_self rfl
          have owned : (withOwners bench library.handle bound.length).handles.acquire
              library.handle = bench.handles.gain library.handle (bound ++ [function]).length := by
            rw [withOwners, Handles.acquire_gain, List.length_append, List.length_singleton]
          rw [owned] at taken
          rw [run_bindFrom_present present taken fresh]
          have ends := ih (bound ++ [function])
            (List.forall_mem_append.mpr ⟨own, List.forall_mem_singleton.mpr binds.handle⟩)
            (by simpa [binds.name] using distinct) others
          generalize (bindFrom module library (bound ++ [function]) rest).run _ = outcome at ends ⊢
          cases ends with
          | missing first => exact .missing (first.behind present)
          | @complete functions all =>
              have more : Bindings module library bench bound (entry :: rest) _ :=
                .complete (.cons binds all)
              simpa [Nat.add_assoc, Nat.add_comm 1] using more

/-! ## Binding a module -/

/-- The ways in which binding a module ends. -/
inductive Binding (module : NativeModule) (library : LoadedLibrary) (bench : Workbench) :
    Except GenerateFault BoundModule × Workbench → Prop
  | unexported {symbol : String} (first : library.FirstMissing library.exports symbol) :
      Binding module library bench (.error (missing module library symbol), bench)
  | incomplete {symbol : String}
      (exported : ∀ symbol ∈ library.exports, library.image.exports symbol)
      (first : library.FirstMissing module.interfaceNames symbol) :
      Binding module library bench (.error (missing module library symbol), bench)
  | complete {functions : List BoundFunction}
      (exported : ∀ symbol ∈ library.exports, library.image.exports symbol)
      (all : List.Forall₂ (Binds library) module.interfaces functions) :
      Binding module library bench (.ok ⟨library.path, functions⟩,
        withOwners bench library.handle functions.length)

/-- The interfaces of a tidy module are bound one by one, or the first missing symbol is reported
and the workbench is left as it was. -/
theorem bind_ends (tidy : module.Tidy) (library : LoadedLibrary) (bench : Workbench) :
    Binding module library bench ((bind module library).run bench) := by
  rw [bind]
  cases found : library.exports.find? (fun symbol => !library.image.exports symbol) with
  | some symbol => exact .unexported (LoadedLibrary.firstMissing_of_find? found)
  | none =>
      have exported : ∀ symbol ∈ library.exports, library.image.exports symbol := by
        simpa using List.find?_eq_none.mp found
      have distinct : (module.interfaces.map (·.callable.name)).Nodup :=
        (List.nodup_append.mp tidy.distinct).2.1
      have ends : Bindings module library bench [] module.interfaces _ :=
        bindFrom_ends bench [] nofun (by simpa using distinct) tidy.passable
      dsimp only
      rw [Step.run_bind]
      have alone : withOwners bench library.handle ([] : List BoundFunction).length = bench := by
        rw [withOwners, List.length_nil, Handles.gain_zero]
      rw [alone] at ends
      generalize (bindFrom module library [] module.interfaces).run bench = outcome at ends ⊢
      cases ends with
      | missing first => exact .incomplete exported first
      | complete all =>
          have whole : Binding module library bench _ := .complete exported all
          rw [← all.length_eq] at whole
          simpa using whole

/-- Every interface is found by its name, with its own function. -/
theorem exists_get? (all : List.Forall₂ (Binds library) entries functions)
    (distinct : (entries.map (·.callable.name)).Nodup) (member : entry ∈ entries) :
    ∃ function, functions.find? (fun function => function.name = entry.callable.name) =
      some function ∧ Binds library entry function := by
  induction all with
  | nil => cases member
  | @cons first function rest functions binds _ ih =>
      rw [List.map_cons, List.nodup_cons] at distinct
      obtain ⟨apart, distinct⟩ := distinct
      rcases List.mem_cons.mp member with rfl | later
      · exact ⟨function, by simp [binds.name], binds⟩
      · obtain ⟨other, found, its⟩ := ih distinct later
        have different : first.callable.name ≠ entry.callable.name :=
          fun same => apart (same ▸ List.mem_map_of_mem later)
        exact ⟨other, by simpa [binds.name, different] using found, its⟩

/-- The functions of a bound module have the names of the interfaces. -/
theorem names_eq (all : List.Forall₂ (Binds library) entries functions) :
    functions.map (·.name) = entries.map (·.callable.name) := by
  induction all with
  | nil => rfl
  | cons binds _ ih => rw [List.map_cons, List.map_cons, binds.name, ih]

/-- In a module that calls lead to, the names of variables, functions and interfaces are distinct
and are those that are taken. The module can be bound if and only if the library exports whatever
its build was asked to export and all interfaces. It is then bound to one function for each
interface, found under the name and with the signature and the code of this interface. Otherwise
the first symbol that was asked for and is missing is reported, or the first missing interface if
there is none, together with the names of all interfaces. -/
theorem bind_exact (reached : module.Reached) (library : LoadedLibrary) (bench : Workbench) :
    (module.declaredNames.Nodup ∧
      ∀ name, name ∈ module.defined ↔ name ∈ module.declaredNames) ∧
    (((bind module library).run bench).1.isOk ↔
      (∀ symbol ∈ library.exports, library.image.exports symbol) ∧
      ∀ name ∈ module.interfaceNames, library.image.exports name) ∧
    (∀ bound after, (bind module library).run bench = (.ok bound, after) →
      bound.functions.map (·.name) = module.interfaceNames ∧
      ∀ entry ∈ module.interfaces, ∃ function, bound.get? entry.callable.name = some function ∧
        Binds library entry function) ∧
    (∀ fault after, (bind module library).run bench = (.error fault, after) → ∃ symbol,
      fault = .symbolNotFound symbol library.path module.interfaceNames ∧
      (library.FirstMissing library.exports symbol ∨
        (∀ symbol ∈ library.exports, library.image.exports symbol) ∧
          library.FirstMissing module.interfaceNames symbol)) := by
  have tidy := reached.tidy
  have distinct : (module.interfaces.map (·.callable.name)).Nodup :=
    (List.nodup_append.mp tidy.distinct).2.1
  have ends := bind_ends tidy library bench
  refine ⟨⟨tidy.distinct, tidy.taken⟩, ?_⟩
  generalize (bind module library).run bench = outcome at ends ⊢
  cases ends with
  | @unexported symbol first =>
      refine ⟨iff_of_false (by simp [Except.isOk, Except.toBool]) fun all => first.not_all all.1,
        ?_, ?_⟩
      · rintro bound after ⟨⟩
      · rintro fault after ⟨⟩
        exact ⟨symbol, rfl, .inl first⟩
  | @incomplete symbol exported first =>
      refine ⟨iff_of_false (by simp [Except.isOk, Except.toBool]) fun all => first.not_all all.2,
        ?_, ?_⟩
      · rintro bound after ⟨⟩
      · rintro fault after ⟨⟩
        exact ⟨symbol, rfl, .inr ⟨exported, first⟩⟩
  | @complete functions exported all =>
      refine ⟨iff_of_true rfl ⟨exported, ?_⟩, ?_, ?_⟩
      · intro name member
        obtain ⟨entry, inside, rfl⟩ := List.mem_map.mp member
        obtain ⟨function, -, binds⟩ := exists_get? all distinct inside
        exact Option.isSome_of_eq_some binds.code
      · rintro bound after ⟨⟩
        exact ⟨names_eq all, fun entry member => exists_get? all distinct member⟩
      · rintro fault after ⟨⟩

/-- A library whose build was asked to export a function. -/
def libraryWith (symbols : List String) : LoadedLibrary :=
  ⟨0, "/tmp/libm.so", ["f"], ⟨symbols.map fun symbol => (symbol, fun _ memory => ([], memory))⟩⟩

theorem names_taking : NativeModule.taking.interfaceNames = ["f"] := by decide +kernel

/-- A module with one interface is bound to a library that exports it, and misses it in one that
does not. -/
theorem bind_exact_taking : NativeModule.taking.Reached ∧
    (∃ bound after, (bind .taking (libraryWith ["f"])).run (.fresh "/tmp" .empty) =
        (.ok bound, after) ∧
      bound.functions.map (·.name) = ["f"] ∧
      ∃ function, bound.get? "f" = some function ∧ function.handle = 0) ∧
    ((bind .taking (libraryWith ["g"])).run (.fresh "/tmp" .empty)).1.isOk = false := by
  obtain ⟨-, answers, binds, -⟩ :=
    bind_exact NativeModule.reached_taking (libraryWith ["f"]) (.fresh "/tmp" .empty)
  obtain ⟨-, refuses, -, -⟩ :=
    bind_exact NativeModule.reached_taking (libraryWith ["g"]) (.fresh "/tmp" .empty)
  refine ⟨NativeModule.reached_taking, ?_, ?_⟩
  · have present : ∀ name ∈ NativeModule.taking.interfaceNames,
        (libraryWith ["f"]).image.exports name := by
      rw [names_taking]
      decide
    obtain ⟨bound, after, ran⟩ := Step.exists_of_run_isOk (answers.mpr ⟨by decide, present⟩)
    obtain ⟨same, found⟩ := binds bound after ran
    have member : "f" ∈ NativeModule.taking.interfaces.map (·.callable.name) := by
      rw [← NativeModule.interfaceNames, names_taking]
      exact List.mem_singleton.mpr rfl
    obtain ⟨entry, inside, named⟩ := List.mem_map.mp member
    obtain ⟨function, here, its⟩ := found entry inside
    rw [named] at here
    exact ⟨bound, after, ran, same.trans names_taking, function, here, its.handle⟩
  · have absent : ¬∀ symbol ∈ (libraryWith ["g"]).exports,
        (libraryWith ["g"]).image.exports symbol := by decide
    simpa using mt refuses.mp fun all => absent all.1

end BoundModule

end TypeBridge
