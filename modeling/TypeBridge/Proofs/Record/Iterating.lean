import TypeBridge.Proofs.Record.Later
import TypeBridge.Proofs.Record.Mentions
import TypeBridge.Proofs.Record.Walking

/-!
# Iterations over the definitions of a structure

The definitions of a structure and of all that it leads to are asked for one by one, by any number
of `Iteration`s in turn, each of which may stop at any point. `Iterates` is one such request, and
`iterated_of_iteratesAll` says what any number of them does: each iteration has given definitions in
the order of the catalogue that the first began with, and of the structures those are marked whose
definition was given. `renderFirst` is an iteration by itself.
-/

namespace TypeBridge

namespace Catalogue

/-! ## Marks -/

theorem markAll_append (first second : List Nat) (catalogue : Catalogue) :
    catalogue.markAll (first ++ second) = (catalogue.markAll first).markAll second :=
  List.foldl_append

theorem nativeDefinition_markAll (ids : List Nat) (catalogue : Catalogue) (id : Nat) :
    (catalogue.markAll ids).nativeDefinition id = catalogue.nativeDefinition id := by
  induction ids generalizing catalogue with
  | nil => rfl
  | cons first rest ih =>
      have others := ih (catalogue.markEmitted first)
      exact others.trans (nativeDefinition_markEmitted catalogue id first)

/-- A catalogue in which some structures count as written in addition, and nothing else happened to
its structures. -/
structure WrittenBy (written : Nat → Prop) (before after : Catalogue) : Prop where
  size : after.size = before.size
  entry : ∀ id, id < before.size → ∃ emitted,
    after.entry id = { before.entry id with emitted := emitted } ∧
      (emitted = true ↔ (before.entry id).emitted = true ∨ written id)

/-- Of the structures, those that are marked count as written in addition. -/
theorem writtenBy_markAll (ids : List Nat) (catalogue : Catalogue) :
    WrittenBy (· ∈ ids) catalogue (catalogue.markAll ids) := by
  refine ⟨size_markAll ids catalogue, fun id known => ?_⟩
  induction ids generalizing catalogue with
  | nil => exact ⟨(catalogue.entry id).emitted, rfl, by simp⟩
  | cons first rest ih =>
      obtain ⟨emitted, same, marks⟩ :=
        ih (catalogue.markEmitted first) (Nat.lt_of_lt_of_eq known size_modifyEntry.symm)
      have changed : (catalogue.markEmitted first).entry id =
          if first = id then { catalogue.entry id with emitted := true } else catalogue.entry id :=
        entry_modifyEntry known
      refine ⟨emitted, same.trans ?_, marks.trans ?_⟩
      · rw [changed]
        split <;> rfl
      · rw [changed, List.mem_cons]
        split <;> grind

end Catalogue

/-! ## Iterations -/

/-- The definitions of a structure and of all that it leads to, asked for one by one: the structures
whose definitions were given, their texts, and the structures whose definitions are to come. -/
structure Iteration where
  root : Nat
  given : List Nat
  texts : List String
  coming : List Nat

namespace Iteration

open Catalogue

variable {origin now after : Catalogue} {iteration : Iteration}

/-- An iteration that gave nothing yet. -/
def start (catalogue : Catalogue) (root : Nat) : Iteration where
  root := root
  given := []
  texts := []
  coming := catalogue.dependencyOrder root

/-- Ask an iteration for the next definition, if there is one. The structure counts as written from
then on. -/
def next (iteration : Iteration) : Step Catalogue GenerateFault Iteration :=
  match iteration.coming with
  | [] => pure iteration
  | id :: rest => do
    let texts ← renderAll [id]
    return { iteration with
      given := iteration.given ++ [id]
      texts := iteration.texts ++ texts
      coming := rest }

/-- An iteration has given the definitions of a first part of the order, as they were in `origin`,
and the rest of the order is to come. -/
structure Follows (origin : Catalogue) (iteration : Iteration) : Prop where
  known : iteration.root < origin.size
  order : iteration.given ++ iteration.coming = origin.dependencyOrder iteration.root
  texts : iteration.texts = iteration.given.map origin.nativeDefinition

/-- An iteration that is asked is at its end, or gives the definition of the first structure that is
to come and marks it. -/
theorem run_next (iteration : Iteration) (catalogue : Catalogue) :
    (iteration.coming = [] ∧ iteration.next.run catalogue = (.ok iteration, catalogue)) ∨
      ∃ id rest, iteration.coming = id :: rest ∧ iteration.next.run catalogue =
        (.ok { iteration with
          given := iteration.given ++ [id]
          texts := iteration.texts ++ [catalogue.nativeDefinition id]
          coming := rest }, catalogue.markAll [id]) := by
  unfold next
  cases coming : iteration.coming with
  | nil => exact Or.inl ⟨rfl, rfl⟩
  | cons id rest =>
      refine Or.inr ⟨id, rest, rfl, ?_⟩
      dsimp only
      rw [Step.run_bind, run_renderAll]
      rfl

theorem follows_start (descends : origin.Descends) {root : Nat} (known : root < origin.size)
    (extension : origin.Extends now) : (start now root).Follows origin where
  known := known
  order := extension.dependencyOrder descends known
  texts := rfl

/-- What an iteration gave is a first part of the order. -/
theorem Follows.given_eq_take (follows : iteration.Follows origin) :
    iteration.given =
      (origin.dependencyOrder iteration.root).take iteration.given.length := by
  rw [← follows.order, List.take_left]

/-- What an iteration gave has each structure once, behind all that it refers to. -/
theorem Follows.ordered (follows : iteration.Follows origin) (descends : origin.Descends) :
    origin.Ordered iteration.given := by
  rw [follows.given_eq_take]
  exact (ordered_dependencyOrder descends follows.known).1.take _

/-- The structures that are named in a text that an iteration gave are among those that it gave the
definitions of. -/
theorem Follows.named (follows : iteration.Follows origin) (descends : origin.Descends) {id : Nat}
    (given : id ∈ iteration.given) :
    ∀ other ∈ Mention.ids (origin.nativeMentions id), other ∈ iteration.given := by
  rw [ids_nativeMentions]
  refine List.forall_mem_cons.mpr ⟨given, fun child refers => ?_⟩
  exact (follows.ordered descends).closed given refers

/-- An iteration that is begun again, whatever happened in between, goes through the same order and
gives the same texts as far as the first one came, since the structures named there were written and
keep their names. -/
theorem Follows.again (follows : iteration.Follows origin) (descends : origin.Descends)
    (extension : origin.Extends now) (names : now.name = origin.name)
    (written : ∀ id ∈ iteration.given, (now.entry id).emitted) (later : now.Later after) :
    after.dependencyOrder iteration.root = origin.dependencyOrder iteration.root ∧
      ∀ count, ∃ texts, ((renderFirst iteration.root count).run after).1 = .ok texts ∧
        texts.take iteration.given.length = iteration.texts.take count := by
  have whole := extension.trans later.extension
  have ordered := follows.ordered descends
  have same := whole.dependencyOrder descends follows.known
  have keeps : ∀ id ∈ iteration.given, after.name id = origin.name id := by
    intro id given
    have known := Nat.lt_of_lt_of_le (ordered.known id given) extension.size
    exact (later.name_of_written known (written id given)).2.trans (congrFun names id)
  -- All names in a definition that was given belong to structures that were given, so none changed.
  have definitions : iteration.given.map after.nativeDefinition = iteration.texts := by
    rw [follows.texts]
    refine List.map_congr_left fun id given => ?_
    have continued := whole.entry id (ordered.known id given)
    exact nativeDefinition_congr (keeps id given)
      (fun child refers => keeps child (ordered.closed given refers)) continued.fields
      continued.packing
  refine ⟨same, fun count => ⟨_, congrArg Prod.fst (run_renderFirst _ count after), ?_⟩⟩
  rw [same, ← List.map_take, List.take_take, Nat.min_comm, ← List.take_take,
    ← follows.given_eq_take, List.map_take, definitions]

end Iteration

namespace Catalogue

variable {catalogue origin : Catalogue} {id : Nat}

/-! ## Runs of iterations -/

/-- An iteration is begun, or one of them is asked for its next definition. -/
inductive Iterates : Catalogue × List Iteration → Catalogue × List Iteration → Prop where
  | begun {catalogue : Catalogue} {iterations : List Iteration} {root : Nat}
      (known : root < catalogue.size) :
      Iterates (catalogue, iterations) (catalogue, iterations ++ [.start catalogue root])
  | asked {catalogue after : Catalogue} {front back : List Iteration}
      {iteration iteration' : Iteration}
      (ran : iteration.next.run catalogue = (.ok iteration', after)) :
      Iterates (catalogue, front ++ iteration :: back) (after, front ++ iteration' :: back)

/-- Any number of requests to iterations. -/
abbrev IteratesAll : Catalogue × List Iteration → Catalogue × List Iteration → Prop :=
  Relation.ReflTransGen Iterates

/-- Every iteration follows the order of `origin`, and the structures marked in addition are those
whose definitions an iteration gave. -/
structure Iterated (origin : Catalogue) (state : Catalogue × List Iteration) : Prop where
  follows : ∀ iteration ∈ state.2, iteration.Follows origin
  marks : ∃ marked, state.1 = origin.markAll marked ∧
    ∀ id, id ∈ marked ↔ ∃ iteration ∈ state.2, id ∈ iteration.given

theorem iterated_nil (origin : Catalogue) : Iterated origin (origin, []) where
  follows := nofun
  marks := ⟨[], rfl, fun id => by simp⟩

theorem Iterates.iterated {state state' : Catalogue × List Iteration}
    (iterates : Iterates state state') (descends : origin.Descends)
    (iterated : Iterated origin state) : Iterated origin state' := by
  obtain ⟨follows, marked, behind, marks⟩ := iterated
  cases iterates with
  | @begun catalogue iterations root known =>
      dsimp only at behind follows marks
      subst behind
      have extension := extends_markAll marked origin
      rw [size_markAll] at known
      refine ⟨fun iteration member => ?_, marked, rfl, fun id => ?_⟩
      · rcases List.mem_append.mp member with old | new
        · exact follows iteration old
        · rw [List.mem_singleton.mp new]
          exact Iteration.follows_start descends known extension
      · rw [marks id]
        simp [Iteration.start]
  | @asked catalogue after front back iteration iteration' ran =>
      dsimp only at behind follows marks
      subst behind
      obtain ⟨itsKnown, itsOrder, itsTexts⟩ := follows iteration (by simp)
      rcases iteration.run_next (origin.markAll marked) with ⟨-, ended⟩ | ⟨id, rest, coming, gave⟩
      · obtain ⟨same, rfl⟩ := Prod.mk.inj (ended.symm.trans ran)
        cases same
        exact ⟨follows, marked, rfl, marks⟩
      · obtain ⟨same, rfl⟩ := Prod.mk.inj (gave.symm.trans ran)
        cases same
        rw [coming] at itsOrder
        -- The iteration that was asked gave one structure more; the others stand where they stood.
        refine ⟨?_, marked ++ [id], (markAll_append marked [id] origin).symm, fun other => ?_⟩
        · intro other member
          rcases List.mem_append.mp member with early | late
          · exact follows other (List.mem_append_left _ early)
          · rcases List.mem_cons.mp late with rfl | later
            · refine ⟨itsKnown, ?_, ?_⟩
              · exact (List.append_assoc _ _ _).trans itsOrder
              · dsimp only
                rw [itsTexts, nativeDefinition_markAll, List.map_append, List.map_singleton]
            · exact follows other (by simp [later])
        · simp only [List.mem_append, marks, List.mem_cons]
          grind

/-- Whatever iterations are begun and asked, they follow the order and mark what they give. -/
theorem iterated_of_iteratesAll (descends : origin.Descends)
    {state : Catalogue × List Iteration} (runs : IteratesAll (origin, []) state) :
    Iterated origin state := by
  induction runs with
  | refl => exact iterated_nil origin
  | tail _ step ih => exact step.iterated descends ih

/-- A single iteration that is asked a number of times. -/
theorem iteratesAll_asked (count : Nat) (iteration : Iteration) (catalogue : Catalogue) :
    IteratesAll (catalogue, [iteration])
      (catalogue.markAll (iteration.coming.take count), [{ iteration with
        given := iteration.given ++ iteration.coming.take count
        texts := iteration.texts ++ (iteration.coming.take count).map catalogue.nativeDefinition
        coming := iteration.coming.drop count }]) := by
  induction count generalizing iteration catalogue with
  | zero =>
      simp only [List.take_zero, List.map_nil, List.append_nil, List.drop_zero]
      exact .refl
  | succ count ih =>
      rcases iteration.run_next catalogue with ⟨ended, -⟩ | ⟨id, rest, coming, gave⟩
      · obtain ⟨root, given, texts, coming⟩ := iteration
        obtain rfl : coming = [] := ended
        simp only [List.take_nil, List.map_nil, List.append_nil, List.drop_nil]
        exact .refl
      · have first := @Iterates.asked catalogue _ [] [] iteration _ gave
        have others := ih { iteration with
          given := iteration.given ++ [id]
          texts := iteration.texts ++ [catalogue.nativeDefinition id]
          coming := rest } (catalogue.markAll [id])
        have definitions : (catalogue.markAll [id]).nativeDefinition = catalogue.nativeDefinition :=
          funext fun other => nativeDefinition_markAll [id] catalogue other
        simp only [definitions, ← markAll_append, List.append_assoc, List.singleton_append]
          at others
        rw [coming, List.take_succ_cons, List.drop_succ_cons, List.map_cons]
        exact .head first others

/-- Writing the first definitions of a structure is one iteration that is asked for them. -/
theorem iteratesAll_renderFirst (known : id < catalogue.size) (count : Nat) :
    ∃ iteration : Iteration,
      IteratesAll (catalogue, []) (((renderFirst id count).run catalogue).2, [iteration]) ∧
      iteration.given = (catalogue.dependencyOrder id).take count ∧
      ((renderFirst id count).run catalogue).1 = .ok iteration.texts := by
  rw [run_renderFirst]
  have begun : Iterates (catalogue, []) (catalogue, [.start catalogue id]) := .begun known
  exact ⟨_, .head begun (iteratesAll_asked count (.start catalogue id) catalogue), rfl, rfl⟩

/-! ## The walk, its order and iterations over it -/

/-- The walk to all that a structure leads to ends from any state of it, at the depth of the number
of the structure. What it ends with lists precisely the structures that the structure leads to, each
once, behind all that it refers to, and the structure itself last, and is the same wherever these
have the same fields. Whatever iterations are begun and asked, and wherever they stop: each gave the
definitions in this order up to some point, among them those of all structures that are named there;
if it is begun again at any later time, the order is the same, and so are the texts as far as both
come; and the structures that are marked in addition are precisely those whose definitions were
given. -/
theorem dependencyOrder_exact {log : EntryLog} (reached : Reached log catalogue)
    (known : id < catalogue.size) :
    (∀ depth, id < depth →
      (∀ state, (catalogue.walk depth id state).isSome) ∧
        ∃ seen, catalogue.walk depth id ([], []) = some (seen, catalogue.dependencyOrder id)) ∧
    catalogue.IsDependencyOrder id (catalogue.dependencyOrder id) ∧
    (∀ other : Catalogue, (∀ next, catalogue.LeadsTo id next →
        (other.entry next).fields = (catalogue.entry next).fields) →
      other.dependencyOrder id = catalogue.dependencyOrder id) ∧
    (∀ count, ∃ iteration : Iteration,
      IteratesAll (catalogue, []) (((renderFirst id count).run catalogue).2, [iteration]) ∧
      iteration.given = (catalogue.dependencyOrder id).take count ∧
      ((renderFirst id count).run catalogue).1 = .ok iteration.texts) ∧
    ∀ now iterations, IteratesAll (catalogue, []) (now, iterations) →
      WrittenBy (fun next => ∃ iteration ∈ iterations, next ∈ iteration.given) catalogue now ∧
      ∀ iteration ∈ iterations, iteration.Follows catalogue ∧
        (∀ next ∈ iteration.given,
          catalogue.nativeDefinition next =
            Mention.spelled catalogue.name (catalogue.nativeMentions next) ∧
          ∀ named ∈ Mention.ids (catalogue.nativeMentions next), named ∈ iteration.given) ∧
        ∀ after, now.Later after →
          after.dependencyOrder iteration.root = catalogue.dependencyOrder iteration.root ∧
          ∀ count, ∃ texts, ((renderFirst iteration.root count).run after).1 = .ok texts ∧
            texts.take iteration.given.length = iteration.texts.take count := by
  have descends := reached.sound.descends
  refine ⟨fun depth deep => ?_, isDependencyOrder descends known, fun _ => dependencyOrder_congr,
    iteratesAll_renderFirst known, fun now iterations runs => ?_⟩
  · exact ⟨walk_isSome descends known deep, walk_eq_dependencyOrder descends known deep⟩
  · obtain ⟨follows, marked, rfl, marks⟩ := iterated_of_iteratesAll descends runs
    refine ⟨?_, fun iteration member => ?_⟩
    · rw [← funext fun next => propext (marks next)]
      exact writtenBy_markAll marked catalogue
    · have itself := follows iteration member
      refine ⟨itself, fun next given => ⟨nativeDefinition_eq catalogue next, ?_⟩, fun after => ?_⟩
      · exact itself.named descends given
      · have written : ∀ next ∈ iteration.given,
            ((catalogue.markAll marked).entry next).emitted := fun next given =>
          emitted_markAll ((marks next).mpr ⟨iteration, member, given⟩)
            ((itself.ordered descends).known next given)
        exact itself.again descends (extends_markAll marked catalogue)
          (funext (name_markAll marked catalogue)) written

/-- The record with an array of records and a pointer to such a record leads to these, once; the
first definition alone marks the inner record and not the record. -/
theorem dependencyOrder_exact_held : 1 < heldCatalogue.size ∧
    heldCatalogue.dependencyOrder 1 = [0, 1] ∧ heldCatalogue.LeadsTo 1 0 ∧
    (((renderFirst 1 1).run heldCatalogue).2.entry 0).emitted = true ∧
    (((renderFirst 1 1).run heldCatalogue).2.entry 1).emitted = false := by
  have reached : Reached _ heldCatalogue := reached_enteredFirst heldRecord rfl
  have facts : 1 < heldCatalogue.size ∧
      (heldCatalogue.walk 2 1 ([], [])).map Prod.snd = some [0, 1] ∧
      (heldCatalogue.entry 1).emitted = false := by
    decide +kernel
  obtain ⟨known, walked, unwritten⟩ := facts
  obtain ⟨walks, exact, -, single, iterated⟩ := dependencyOrder_exact reached known
  have order : heldCatalogue.dependencyOrder 1 = [0, 1] := by
    obtain ⟨seen, ran⟩ := (walks 2 (by decide)).2
    rw [ran] at walked
    exact Option.some.inj walked
  have leads := (exact.exact 0).mp (by simp [order])
  obtain ⟨iteration, runs, given, -⟩ := single 1
  have written := (iterated _ _ runs).1
  rw [order] at given
  obtain ⟨first, sameFirst, marksFirst⟩ := written.entry 0 (Nat.lt_trans Nat.zero_lt_one known)
  obtain ⟨second, sameSecond, marksSecond⟩ := written.entry 1 known
  refine ⟨known, order, leads, ?_, ?_⟩
  · rw [sameFirst]
    exact marksFirst.mpr (Or.inr ⟨iteration, by simp [given]⟩)
  · rw [sameSecond]
    refine Bool.eq_false_iff.mpr fun marked => ?_
    simpa [unwritten, given] using marksSecond.mp marked

end Catalogue

end TypeBridge
