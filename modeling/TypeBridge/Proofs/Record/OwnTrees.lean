import TypeBridge.Proofs.Record.History
import TypeBridge.Proofs.Record.Identity

/-!
# Trees of composites as they were entered

A composite is entered once, and after the composites in it (`EntryLog.Consistent`). So the tree that
the log has of a composite is put together from those of the composites in it
(`Consistent.tree_eq`), and written as a text it is the key of its structure (`key_log_tree`). What
holds of a composite whenever it holds of those in it holds of all that were entered
(`Consistent.preserves`).
-/

namespace TypeBridge

/-- Whether what a field holds is a composite or a pointer to it. -/
def MemberType.Refers (type : MemberType) (child : Composite) : Prop :=
  type = .composite child ∨ type = .pointer child

namespace EntryLog

variable {log : EntryLog} {composite : Composite} {fields : List ResolvedField}

/-- Whether a composite was entered. -/
def Knows (log : EntryLog) (composite : Composite) : Prop := ∃ fields, (composite, fields) ∈ log

/-- Each composite was entered once, and those in it before. -/
inductive Consistent : EntryLog → Prop where
  | nil : Consistent []
  | cons {log : EntryLog} {composite : Composite} {fields : List ResolvedField}
      (fresh : ¬ Knows log composite)
      (children : ∀ field ∈ composite.fields, ∀ child, field.type.Refers child → Knows log child)
      (consistent : Consistent log) : Consistent ((composite, fields) :: log)

theorem knows_cons {other : Composite} :
    Knows ((composite, fields) :: log) other ↔ other = composite ∨ Knows log other := by
  constructor
  · rintro ⟨resolved, member⟩
    rcases List.mem_cons.mp member with same | earlier
    · exact .inl (congrArg Prod.fst same)
    · exact .inr ⟨resolved, earlier⟩
  · rintro (rfl | ⟨resolved, earlier⟩)
    · exact ⟨fields, List.mem_cons_self⟩
    · exact ⟨resolved, List.mem_cons_of_mem _ earlier⟩

/-- An entry does not change the tree of a composite that was entered before. -/
theorem tree_cons (fresh : ¬ Knows log composite) {other : Composite} (known : Knows log other) :
    tree ((composite, fields) :: log) other = tree log other := by
  rw [tree, if_neg]
  rintro rfl
  exact fresh known

/-- What a field holds has the same tree as long as the composite in it has. -/
theorem memberTree_congr {treeOf treeOf' : Composite → RecordTree} {type : MemberType}
    (same : ∀ child, type.Refers child → treeOf child = treeOf' child) (resolved : ResolvedType) :
    memberTree treeOf type resolved = memberTree treeOf' type resolved := by
  cases type with
  | scalar => rfl
  | composite child => rw [memberTree, memberTree, same child (.inl rfl)]
  | pointer child => rw [memberTree, memberTree, same child (.inr rfl)]

/-- A field of a composite with what it was resolved to, as part of a tree. -/
def ownField (treeOf : Composite → RecordTree) (field : Field × ResolvedField) : FieldTree :=
  .mk field.1.name (memberTree treeOf field.1.type field.2.type) field.1.count

/-- Fields have the same trees as long as the composites in them have. -/
theorem ownField_congr {treeOf treeOf' : Composite → RecordTree} {declared : List Field}
    (same : ∀ field ∈ declared, ∀ child, field.type.Refers child → treeOf child = treeOf' child)
    (fields : List ResolvedField) :
    (declared.zip fields).map (ownField treeOf) = (declared.zip fields).map (ownField treeOf') := by
  refine List.map_congr_left fun pair member => ?_
  rw [ownField, memberTree_congr (same _ (List.of_mem_zip member).1), ownField]

namespace Consistent

/-- The composites in one that was entered were entered too. -/
theorem children (consistent : log.Consistent) (known : log.Knows composite) {field : Field}
    (member : field ∈ composite.fields) {child : Composite} (refers : field.type.Refers child) :
    log.Knows child := by
  induction consistent with
  | nil =>
      obtain ⟨_, absurd⟩ := known
      cases absurd
  | cons fresh inside _ ih =>
      rcases knows_cons.mp known with rfl | earlier
      · exact knows_cons.mpr (.inr (inside field member child refers))
      · exact knows_cons.mpr (.inr (ih earlier))

/-- The tree of a composite is put together from its own fields and the trees of those in it. -/
theorem tree_eq (consistent : log.Consistent) (entered : (composite, fields) ∈ log) :
    log.tree composite =
      .mk ((composite.fields.zip fields).map (ownField log.tree)) composite.packing := by
  induction consistent with
  | nil => cases entered
  | @cons log newest resolved fresh inside consistent ih =>
      rcases List.mem_cons.mp entered with same | earlier
      · cases same
        rw [tree, if_pos rfl]
        congr 1
        exact ownField_congr (fun field member child refers =>
          (tree_cons fresh (inside field member child refers)).symm) fields
      · rw [tree_cons fresh ⟨_, earlier⟩, ih earlier]
        congr 1
        exact ownField_congr (fun field member child refers =>
          (tree_cons fresh (consistent.children ⟨_, earlier⟩ member refers)).symm) fields

/-- What holds of a composite whenever it holds of those in it holds of all that were entered. -/
theorem preserves {motive : Composite → Prop} (consistent : log.Consistent)
    (step : ∀ composite fields, (composite, fields) ∈ log →
      (∀ field ∈ composite.fields, ∀ child, field.type.Refers child → motive child) →
        motive composite) (known : log.Knows composite) : motive composite := by
  induction consistent generalizing composite with
  | nil =>
      obtain ⟨_, absurd⟩ := known
      cases absurd
  | cons _ inside _ ih =>
      have earlier : ∀ {other}, Knows _ other → motive other :=
        ih fun composite fields member => step composite fields (List.mem_cons_of_mem _ member)
      rcases knows_cons.mp known with rfl | before
      · exact step _ _ List.mem_cons_self fun field member child refers =>
          earlier (inside field member child refers)
      · exact earlier before

end Consistent

end EntryLog

namespace Catalogue

variable {catalogue : Catalogue} {composite : Composite} {id : Nat} {log : EntryLog}

/-- A consistent log of what a catalogue knows. -/
structure Logged (log : EntryLog) (catalogue : Catalogue) : Prop where
  consistent : log.Consistent
  knows : ∀ composite, log.Knows composite ↔ (catalogue.lookup composite).isSome

theorem logged_empty : Logged [] empty where
  consistent := .nil
  knows _ := by simp [EntryLog.Knows, lookup, empty]

/-- What a composite with resolved fields refers to is known. -/
theorem Enterable.children {fields : List ResolvedField}
    (enterable : catalogue.Enterable composite fields) {field : Field}
    (member : field ∈ composite.fields) {child : Composite} (refers : field.type.Refers child) :
    (catalogue.lookup child).isSome := by
  obtain ⟨resolved, -, resolves⟩ := exists_of_mem_right enterable.resolved.flip member
  have type := resolves.type
  generalize resolved.type = resolvedType at type
  rcases refers with same | same
  · rw [same] at type
    cases type with
    | record known => rw [known]; rfl
  · rw [same] at type
    cases type with
    | pointer known => rw [known]; rfl

/-- An entry is logged. -/
theorem Enters.logged {overflow : Overflow} {bound : Nat} {start last : EntryLog × Catalogue}
    (enters : Enters overflow bound start last) (logged : Logged start.1 start.2) :
    Logged last.1 last.2 := by
  have consistent : ∀ {composite : Composite} {fields : List ResolvedField},
      start.2.Enterable composite fields →
        EntryLog.Consistent ((composite, fields) :: start.1) := by
    intro composite fields enterable
    refine .cons ?_ ?_ logged.consistent
    · rw [logged.knows, enterable.fresh]
      exact nofun
    · intro field member child refers
      exact (logged.knows child).mpr (enterable.children member refers)
  cases enters with
  | merged _ enterable _ =>
      refine ⟨consistent enterable, fun other => ?_⟩
      rw [EntryLog.knows_cons, lookup_addType, logged.knows]
      split <;> simp [*]
  | added _ enterable _ _ _ =>
      refine ⟨consistent enterable, fun other => ?_⟩
      rw [EntryLog.knows_cons, lookup_push, logged.knows]
      split <;> simp [*]

theorem Changes.logged {start last : EntryLog × Catalogue} (changes : Changes start last)
    (logged : Logged start.1 start.2) : Logged last.1 last.2 := by
  cases changes with
  | entered enters => exact enters.logged logged
  | renamed => exact ⟨logged.consistent, logged.knows⟩
  | marked => exact ⟨logged.consistent, logged.knows⟩

theorem Reached.logged (reached : Reached log catalogue) : Logged log catalogue := by
  have changes := reached.changes
  generalize last : (log, catalogue) = state at changes
  have holds : Logged state.1 state.2 := by
    clear last
    induction changes with
    | refl => exact logged_empty
    | tail _ change ih => exact change.logged ih
  rw [← last] at holds
  exact holds

/-! ## Keys of own trees -/

/-- Fields are written with the keys of the structures that their composites were entered as. -/
theorem fieldsKey_log {declared : List Field} {fields : List ResolvedField}
    (resolved : List.Forall₂ catalogue.ResolvesField declared fields)
    (keys : ∀ field ∈ declared, ∀ child, field.type.Refers child → ∀ id,
      catalogue.lookup child = some id → (log.tree child).key = catalogue.key id) :
    RecordTree.fieldsKey ((declared.zip fields).map (EntryLog.ownField log.tree)) =
      String.join ((fields.map catalogue.pieceOf).map (·.key)) := by
  induction resolved with
  | nil => rfl
  | @cons field resolved _ _ resolves _ ih =>
      obtain ⟨own, others⟩ := List.forall_mem_cons.mp keys
      rw [List.zip_cons_cons, List.map_cons, List.map_cons, List.map_cons, String.join_cons,
        EntryLog.ownField, RecordTree.fieldsKey, ih others]
      congr 1
      obtain ⟨name, type, count⟩ := resolved
      obtain ⟨rfl, rfl, -, resolvedType⟩ := resolves
      simp only [pieceOf]
      congr 1
      generalize field.type = declaredType at own resolvedType
      cases resolvedType with
      | scalar => rfl
      | record known =>
          rw [EntryLog.memberTree, RecordTree.memberKey, own _ (.inl rfl) _ known]
          rfl
      | pointer known =>
          rw [EntryLog.memberTree, RecordTree.memberKey, own _ (.inr rfl) _ known]
          rfl

/-- The tree of a composite as it was entered is written as the key of its structure. -/
theorem key_log_tree (reached : Reached log catalogue)
    (found : catalogue.lookup composite = some id) :
    (log.tree composite).key = catalogue.key id := by
  have logged := reached.logged
  have known : log.Knows composite := (logged.knows composite).mpr (by rw [found]; rfl)
  suffices holds : ∀ id, catalogue.lookup composite = some id →
      (log.tree composite).key = catalogue.key id from holds id found
  refine logged.consistent.preserves (motive := fun composite => ∀ id,
    catalogue.lookup composite = some id → (log.tree composite).key = catalogue.key id)
    (fun composite _ _ inside id found => ?_) known
  rcases reached.recorded.known composite id found with absurd | ⟨fields, member, resolved, key⟩
  · cases absurd
  · rw [logged.consistent.tree_eq member, RecordTree.key, key, keyOf,
      fieldsKey_log resolved inside]

end Catalogue

end TypeBridge
