import TypeBridge.Proofs.Record.Soundness

/-!
# The walk to all that a structure leads to

`Catalogue.walk` notes a structure when it comes to it and adds it to the order when it leaves it. A
depth bounds it, so that it may end without a result; `walk_isSome` says that it does not where each
structure refers to earlier ones only, and `walk_eq_visit` that it arrives at the order of
`Catalogue.visit`, which looks at the order alone. `IsDependencyOrder` says what stands in the order
and where, by the fields of the structures, and `dependencyOrder_congr` that nothing else matters.
-/

namespace TypeBridge.Catalogue

variable {catalogue before after : Catalogue} {id other bound depth : Nat} {seen order : List Nat}

/-! ## What a structure refers to -/

/-- A structure has a field that holds another one or points to it. -/
def RefersTo (catalogue : Catalogue) (id child : Nat) : Prop :=
  ∃ field ∈ (catalogue.entry id).fields, field.type = .record child ∨ field.type = .pointer child

/-- A structure is another one, or refers to it over any number of fields. -/
abbrev LeadsTo (catalogue : Catalogue) : Nat → Nat → Prop :=
  Relation.ReflTransGen catalogue.RefersTo

/-- A field leads to a child that it holds or points to. -/
theorem child?_eq_some_iff {field : ResolvedField} {child : Nat} :
    field.child? = some child ↔ field.type = .record child ∨ field.type = .pointer child := by
  obtain ⟨name, type, count⟩ := field
  cases type <;> simp [ResolvedField.child?]

/-- The children of a structure are those that it refers to. -/
theorem mem_children_iff {child : Nat} :
    child ∈ catalogue.children id ↔ catalogue.RefersTo id child := by
  simp only [children, List.mem_filterMap, RefersTo, child?_eq_some_iff]

/-- A structure leads to known ones only, and to none after it. -/
theorem Descends.le_of_leadsTo (descends : catalogue.Descends) (known : id < catalogue.size)
    (leads : catalogue.LeadsTo id other) : other ≤ id := by
  induction leads with
  | refl => exact Nat.le_refl id
  | tail _ refers ih =>
      have smaller := descends _ (Nat.lt_of_le_of_lt ih known) _ (mem_children_iff.mpr refers)
      omega

/-! ## The walk -/

/-- Walk to a structure with the structures seen and the order so far, going `depth` structures deep
at most: to one that was not seen before, then to all that it refers to, after which it is added to
the order. -/
def walk (catalogue : Catalogue) : Nat → Nat → List Nat × List Nat → Option (List Nat × List Nat)
  | 0, _, _ => none
  | depth + 1, id, (seen, order) =>
    if seen.contains id then some (seen, order)
    else do
      let (seen, order) ← (catalogue.children id).foldlM
        (fun state child => catalogue.walk depth child state) (id :: seen, order)
      return (seen, order ++ [id])

/-- A walk goes past what it has seen. -/
theorem walk_of_mem (member : id ∈ seen) :
    catalogue.walk (depth + 1) id (seen, order) = some (seen, order) :=
  if_pos (List.contains_iff_mem.mpr member)

/-- A walk to what it has not seen goes to the children first. -/
theorem walk_of_notMem (fresh : id ∉ seen) :
    catalogue.walk (depth + 1) id (seen, order) =
      ((catalogue.children id).foldlM (fun state child => catalogue.walk depth child state)
        (id :: seen, order)).bind fun state => some (state.1, state.2 ++ [id]) :=
  if_neg (mt List.contains_iff_mem.mp fresh)

/-- A sequence of steps ends if each of them does. -/
theorem isSome_foldlM {σ α : Type} {step : σ → α → Option σ} {items : List α}
    (ends : ∀ item ∈ items, ∀ state, (step state item).isSome) (state : σ) :
    (items.foldlM step state).isSome := by
  induction items generalizing state with
  | nil => rfl
  | cons item rest ih =>
      obtain ⟨next, ran⟩ := Option.isSome_iff_exists.mp (ends item List.mem_cons_self state)
      rw [List.foldlM_cons, ran]
      exact ih (fun later inside => ends later (List.mem_cons_of_mem item inside)) next

/-- The walk ends wherever it is begun, and goes no deeper than the number of its structure. -/
theorem walk_isSome (descends : catalogue.Descends) (known : id < catalogue.size)
    (deep : id < depth) (state : List Nat × List Nat) : (catalogue.walk depth id state).isSome := by
  induction id using Nat.strongRecOn generalizing depth state with
  | ind id ih =>
      obtain ⟨seen, order⟩ := state
      obtain ⟨depth, rfl⟩ := Nat.exists_eq_add_one_of_ne_zero (Nat.ne_zero_of_lt deep)
      by_cases member : id ∈ seen
      · rw [walk_of_mem member]
        rfl
      · have children : ∀ child ∈ catalogue.children id, ∀ state,
            (catalogue.walk depth child state).isSome := by
          intro child isChild state
          have smaller := descends id known child isChild
          exact ih child smaller (Nat.lt_trans smaller known) (by omega) state
        obtain ⟨walked, ran⟩ := Option.isSome_iff_exists.mp
          (isSome_foldlM children (id :: seen, order))
        rw [walk_of_notMem member, ran]
        rfl

/-! ## The walk and the order -/

/-- Visiting children keeps what stands in the order. -/
theorem mem_visitAll_of_mem {children : List Nat}
    (each : ∀ child ∈ children, child < id → ∀ order, other ∈ order →
      other ∈ catalogue.visit child order)
    (member : other ∈ order) : other ∈ catalogue.visitAll id children order := by
  induction children generalizing order with
  | nil => exact member
  | cons child rest ih =>
      refine ih (fun next inside => each next (List.mem_cons_of_mem child inside)) ?_
      dsimp only
      split
      · rename_i smaller
        exact each child List.mem_cons_self smaller order member
      · exact member

/-- What stands in an order stays there. -/
theorem mem_visit_of_mem (member : other ∈ order) : other ∈ catalogue.visit id order := by
  induction id using Nat.strongRecOn generalizing order with
  | ind id ih =>
      by_cases stands : id ∈ order
      · rwa [visit_of_mem stands]
      · rw [visit_of_notMem stands]
        refine List.mem_append_left _ (mem_visitAll_of_mem ?_ member)
        intro child _ smaller order member
        exact ih child smaller member

/-- All structures in the order were seen, and of those before `bound` no others. Those that the
walk is still in come after. -/
structure Settled (bound : Nat) (seen order : List Nat) : Prop where
  noted : ∀ other ∈ order, other ∈ seen
  left : ∀ other, other < bound → other ∈ seen → other ∈ order

/-- What was seen behind a walk: what was seen before it, and all in the order. -/
def SeesOrder (seen seen' order' : List Nat) : Prop :=
  ∀ other, other ∈ seen' ↔ other ∈ seen ∨ other ∈ order'

/-- A walk leaves an order settled. -/
theorem Settled.walked {seen' order' : List Nat} (settled : Settled bound seen order)
    (kept : ∀ other ∈ order, other ∈ order') (sees : SeesOrder seen seen' order') :
    Settled bound seen' order' where
  noted other member := (sees other).mpr (Or.inr member)
  left other small member := by
    rcases (sees other).mp member with early | late
    · exact kept other (settled.left other small early)
    · exact late

/-- Walking to some structures in turn adds what visiting them adds. -/
theorem foldlM_walk_eq_visitAll {children : List Nat} (small : ∀ child ∈ children, child < id)
    (each : ∀ child ∈ children, ∀ seen order, Settled id seen order →
      ∃ seen', catalogue.walk depth child (seen, order) =
          some (seen', catalogue.visit child order) ∧
        SeesOrder seen seen' (catalogue.visit child order))
    (settled : Settled id seen order) :
    ∃ seen', children.foldlM (fun state child => catalogue.walk depth child state) (seen, order) =
        some (seen', catalogue.visitAll id children order) ∧
      SeesOrder seen seen' (catalogue.visitAll id children order) := by
  induction children generalizing seen order with
  | nil =>
      refine ⟨seen, rfl, fun other => ⟨Or.inl, ?_⟩⟩
      rintro (early | late)
      · exact early
      · exact settled.noted other late
  | cons child rest ih =>
      obtain ⟨seenChild, ranChild, seesChild⟩ := each child List.mem_cons_self seen order settled
      have settledChild := settled.walked (fun _ member => mem_visit_of_mem member) seesChild
      obtain ⟨seenRest, ranRest, seesRest⟩ :=
        ih (fun next inside => small next (List.mem_cons_of_mem child inside))
          (fun next inside => each next (List.mem_cons_of_mem child inside)) settledChild
      have unfolded : catalogue.visitAll id (child :: rest) order =
          catalogue.visitAll id rest (catalogue.visit child order) := by
        rw [visitAll, List.foldl_cons, if_pos (small child List.mem_cons_self)]
        rfl
      have kept : ∀ other ∈ catalogue.visit child order,
          other ∈ catalogue.visitAll id rest (catalogue.visit child order) := fun other member =>
        mem_visitAll_of_mem (fun _ _ _ _ member => mem_visit_of_mem member) member
      rw [unfolded]
      refine ⟨seenRest, ?_, fun other => ?_⟩
      · rw [List.foldlM_cons, ranChild]
        exact ranRest
      · rw [seesRest other, seesChild other, or_assoc]
        exact or_congr_right (or_iff_right_of_imp (kept other))

/-- The walk adds to an order what visiting adds. A structure that refers to earlier ones only is
not among those that the walk is still in when it comes to it. -/
theorem walk_eq_visit (descends : catalogue.Descends) (known : id < catalogue.size)
    (deep : id < depth) (bounded : id < bound) (settled : Settled bound seen order) :
    ∃ seen', catalogue.walk depth id (seen, order) = some (seen', catalogue.visit id order) ∧
      SeesOrder seen seen' (catalogue.visit id order) := by
  induction id using Nat.strongRecOn generalizing depth bound seen order with
  | ind id ih =>
      obtain ⟨depth, rfl⟩ := Nat.exists_eq_add_one_of_ne_zero (Nat.ne_zero_of_lt deep)
      by_cases member : id ∈ seen
      · rw [visit_of_mem (settled.left id bounded member)]
        refine ⟨seen, walk_of_mem member, fun other => ?_⟩
        exact (or_iff_left_of_imp (settled.noted other)).symm
      · have fresh : id ∉ order := mt (settled.noted id) member
        have small := descends id known
        -- Inside the structure it is noted itself, but none before it is.
        have inside : Settled id (id :: seen) order := by
          refine ⟨fun other stands => List.mem_cons_of_mem id (settled.noted other stands), ?_⟩
          intro other smaller noted
          rcases List.mem_cons.mp noted with rfl | early
          · exact absurd smaller (Nat.lt_irrefl other)
          · exact settled.left other (Nat.lt_trans smaller bounded) early
        have children : ∀ child ∈ catalogue.children id, ∀ seen order, Settled id seen order →
            ∃ seen', catalogue.walk depth child (seen, order) =
                some (seen', catalogue.visit child order) ∧
              SeesOrder seen seen' (catalogue.visit child order) := by
          intro child isChild seen order settled
          have smaller := small child isChild
          exact ih child smaller (Nat.lt_trans smaller known) (by omega) smaller settled
        obtain ⟨seen', ran, sees⟩ := foldlM_walk_eq_visitAll small children inside
        rw [visit_of_notMem fresh]
        refine ⟨seen', ?_, fun other => ?_⟩
        · rw [walk_of_notMem member, ran]
          rfl
        · rw [sees other, List.mem_cons, List.mem_append, List.mem_singleton]
          tauto

/-- The walk from nothing ends with all that a structure leads to. -/
theorem walk_eq_dependencyOrder (descends : catalogue.Descends) (known : id < catalogue.size)
    (deep : id < depth) :
    ∃ seen, catalogue.walk depth id ([], []) = some (seen, catalogue.dependencyOrder id) := by
  obtain ⟨seen, ran, -⟩ := walk_eq_visit descends known deep (Nat.lt_succ_self id)
    (⟨nofun, nofun⟩ : Settled (id + 1) [] [])
  exact ⟨seen, ran⟩

/-! ## What stands in the order -/

/-- An order of precisely the structures that a structure leads to, each once, after all that it
refers to, and with the structure itself at the end. -/
structure IsDependencyOrder (catalogue : Catalogue) (id : Nat) (order : List Nat) : Prop where
  exact : ∀ other, other ∈ order ↔ catalogue.LeadsTo id other
  once : order.Nodup
  after : ∀ front next back, order = front ++ next :: back →
    ∀ child, catalogue.RefersTo next child → child ∈ front
  last : order.getLast? = some id

/-- An order that a structure stands in has all that it leads to. -/
theorem Ordered.mem_of_leadsTo (ordered : catalogue.Ordered order) (member : id ∈ order)
    (leads : catalogue.LeadsTo id other) : other ∈ order := by
  induction leads with
  | refl => exact member
  | tail _ refers ih => exact ordered.closed ih (mem_children_iff.mpr refers)

/-- From a structure the walk gives its dependency order. -/
theorem isDependencyOrder (descends : catalogue.Descends) (known : id < catalogue.size) :
    catalogue.IsDependencyOrder id (catalogue.dependencyOrder id) := by
  obtain ⟨ordered, stands⟩ := ordered_dependencyOrder descends known
  refine ⟨fun other => ⟨fun member => ?_, ordered.mem_of_leadsTo stands⟩, ordered.once, ?_, ?_⟩
  · have closed : ∀ next, catalogue.LeadsTo id next →
        ∀ child ∈ catalogue.children next, child < next → catalogue.LeadsTo id child :=
      fun next leads child refers _ => leads.tail (mem_children_iff.mp refers)
    rcases visit_subset _ closed .refl member with none | leads
    · cases none
    · exact leads
  · intro front next back split child refers
    exact ordered.before front next back split child (mem_children_iff.mpr refers)
  · rw [dependencyOrder, visit_of_notMem List.not_mem_nil, List.getLast?_concat]

/-- A first part of the order has all that the structures in it refer to. -/
theorem Ordered.take (ordered : catalogue.Ordered order) (count : Nat) :
    catalogue.Ordered (order.take count) where
  known other member := ordered.known other (List.mem_of_mem_take member)
  once := ordered.once.sublist (List.take_sublist count order)
  before front next back split child refers := by
    have whole : order = front ++ next :: (back ++ order.drop count) := by
      rw [← List.cons_append, ← List.append_assoc, ← split, List.take_append_drop]
    exact ordered.before front next _ whole child refers

/-! ## What the order depends on -/

/-- The visits to children depend on nothing but the visit to each. -/
theorem visitAll_congr {children : List Nat}
    (each : ∀ child ∈ children, child < id → ∀ order,
      after.visit child order = before.visit child order) (order : List Nat) :
    after.visitAll id children order = before.visitAll id children order := by
  refine List.foldl_ext _ _ order fun order child member => ?_
  split
  · rename_i smaller
    exact each child member smaller order
  · rfl

/-- Visiting a structure looks at the fields of those that it leads to, and at nothing else. -/
theorem visit_congr (fields : ∀ next, before.LeadsTo id next →
      (after.entry next).fields = (before.entry next).fields) (order : List Nat) :
    after.visit id order = before.visit id order := by
  induction id using Nat.strongRecOn generalizing order with
  | ind id ih =>
      have children : after.children id = before.children id := by
        rw [Catalogue.children, fields id .refl, Catalogue.children]
      have inner : ∀ child ∈ before.children id, child < id → ∀ order,
          after.visit child order = before.visit child order := by
        intro child isChild smaller order
        refine ih child smaller (fun next leads => fields next ?_) order
        exact leads.head (mem_children_iff.mp isChild)
      by_cases stands : id ∈ order
      · rw [visit_of_mem stands, visit_of_mem stands]
      · rw [visit_of_notMem stands, visit_of_notMem stands, children, visitAll_congr inner]

/-- The order depends on nothing but the fields of the structures in it. -/
theorem dependencyOrder_congr (fields : ∀ next, before.LeadsTo id next →
      (after.entry next).fields = (before.entry next).fields) :
    after.dependencyOrder id = before.dependencyOrder id :=
  visit_congr fields []

/-- The order is the same in every later state. -/
theorem Extends.dependencyOrder (extension : before.Extends after) (descends : before.Descends)
    (known : id < before.size) : after.dependencyOrder id = before.dependencyOrder id := by
  refine dependencyOrder_congr fun next leads => ?_
  have small := descends.le_of_leadsTo known leads
  exact (extension.entry next (Nat.lt_of_le_of_lt small known)).fields

end TypeBridge.Catalogue
