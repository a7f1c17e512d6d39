import TypeBridge.Proofs.Record.Extension

/-!
# Structures in order

`Catalogue.visit` adds a structure to an order after all that it refers to. `Ordered` says that an
order has each structure once and after those that it refers to; `ordered_visit` and
`ordered_appendAll` keep it, and `visit_subset` bounds what is added.
-/

namespace TypeBridge.Catalogue

variable {catalogue : Catalogue} {id other : Nat} {order : List Nat}

/-- Every structure refers to earlier ones only. -/
def Descends (catalogue : Catalogue) : Prop :=
  ∀ id, id < catalogue.size → ∀ child ∈ catalogue.children id, child < id

/-- Some structures that a structure refers to are added to an order. -/
def visitAll (catalogue : Catalogue) (id : Nat) (children order : List Nat) : List Nat :=
  children.foldl (fun order child => if child < id then catalogue.visit child order else order)
    order

theorem visit_of_mem (member : id ∈ order) : catalogue.visit id order = order := by
  rw [visit, if_pos (by simpa using member)]

theorem visit_of_notMem (fresh : id ∉ order) :
    catalogue.visit id order = catalogue.visitAll id (catalogue.children id) order ++ [id] := by
  rw [visit, if_neg (by simpa using fresh)]
  rfl

/-! ## What is added -/

/-- Only structures with a property are added, if those visited have it. -/
theorem visitAll_subset (property : Nat → Prop) {children : List Nat}
    (each : ∀ child ∈ children, child < id → ∀ order, other ∈ catalogue.visit child order →
      other ∈ order ∨ property other)
    (member : other ∈ catalogue.visitAll id children order) : other ∈ order ∨ property other := by
  induction children generalizing order with
  | nil => exact Or.inl member
  | cons child rest ih =>
      have eachRest := fun next inside => each next (List.mem_cons_of_mem child inside)
      rcases ih eachRest member with early | holds
      · dsimp only at early
        split at early
        · rename_i smaller
          exact each child List.mem_cons_self smaller order early
        · exact Or.inl early
      · exact Or.inr holds

/-- A property that a structure hands on to those it refers to holds of all that are added with
it. -/
theorem visit_subset (property : Nat → Prop)
    (closed : ∀ id, property id → ∀ child ∈ catalogue.children id, child < id → property child)
    (holds : property id) (member : other ∈ catalogue.visit id order) :
    other ∈ order ∨ property other := by
  induction id using Nat.strongRecOn generalizing order with
  | ind id ih =>
      by_cases fresh : id ∈ order
      · rw [visit_of_mem fresh] at member
        exact Or.inl member
      · rw [visit_of_notMem fresh, List.mem_append, List.mem_singleton] at member
        rcases member with inside | rfl
        · apply visitAll_subset property _ inside
          intro child isChild smaller order member
          exact ih child smaller (closed id holds child isChild smaller) member
        · exact Or.inr holds

/-- Only structures up to the one visited are added to an order. -/
theorem le_of_mem_visit (member : other ∈ catalogue.visit id order) : other ∈ order ∨ other ≤ id := by
  refine visit_subset (· ≤ id) ?_ (Nat.le_refl id) member
  intro next small child _ smaller
  omega

/-- A structure leads to itself and to earlier ones only. -/
theorem le_of_mem_dependencyOrder (member : other ∈ catalogue.dependencyOrder id) :
    other ≤ id := by
  rcases le_of_mem_visit member with none | small
  · cases none
  · exact small

/-! ## Orders -/

/-- An order in which each structure stands once, and after all that it refers to. -/
structure Ordered (catalogue : Catalogue) (order : List Nat) : Prop where
  known : ∀ id ∈ order, id < catalogue.size
  once : order.Nodup
  before : ∀ front id back, order = front ++ id :: back →
    ∀ child ∈ catalogue.children id, child ∈ front

namespace Ordered

theorem nil (catalogue : Catalogue) : catalogue.Ordered [] where
  known := nofun
  once := List.nodup_nil
  before front id back same := by simp at same

/-- All that a structure of the order refers to stands there too. -/
theorem closed (ordered : catalogue.Ordered order) (member : id ∈ order) {child : Nat}
    (refers : child ∈ catalogue.children id) : child ∈ order := by
  obtain ⟨front, back, rfl⟩ := List.append_of_mem member
  have early := ordered.before front id back rfl child refers
  exact List.mem_append_left _ early

/-- A structure can stand behind all that it refers to. -/
theorem snoc (ordered : catalogue.Ordered order) (known : id < catalogue.size) (fresh : id ∉ order)
    (children : ∀ child ∈ catalogue.children id, child ∈ order) :
    catalogue.Ordered (order ++ [id]) where
  known other member := by
    rcases List.mem_append.mp member with old | new
    · exact ordered.known other old
    · rw [List.mem_singleton.mp new]
      exact known
  once := by
    refine List.nodup_append.mpr ⟨ordered.once, by simp, ?_⟩
    intro old inside new isNew
    rw [List.mem_singleton.mp isNew]
    rintro rfl
    exact fresh inside
  before front other back same child refers := by
    rcases List.eq_nil_or_concat back with rfl | ⟨back', last, rfl⟩
    · obtain ⟨rfl, last⟩ := List.append_inj' same rfl
      obtain rfl := List.cons.inj last |>.1
      exact children child refers
    · rw [List.concat_eq_append, ← List.cons_append, ← List.append_assoc] at same
      obtain ⟨rfl, -⟩ := List.append_inj' same rfl
      exact ordered.before front other back' rfl child refers

/-- Later states do not change an order. -/
theorem extend {later : Catalogue} (extension : catalogue.Extends later)
    (ordered : catalogue.Ordered order) : later.Ordered order where
  known id member := Nat.lt_of_lt_of_le (ordered.known id member) extension.size
  once := ordered.once
  before front id back same child refers := by
    have known := ordered.known id (by simp [same])
    rw [extension.children known] at refers
    exact ordered.before front id back same child refers

end Ordered

/-- An order stays one when structures are added with all that they refer to, and has them then. -/
theorem ordered_visitAll {children : List Nat} (small : ∀ child ∈ children, child < id)
    (each : ∀ child ∈ children, ∀ order, catalogue.Ordered order →
      catalogue.Ordered (catalogue.visit child order) ∧ order <+: catalogue.visit child order ∧
        child ∈ catalogue.visit child order)
    (ordered : catalogue.Ordered order) :
    catalogue.Ordered (catalogue.visitAll id children order) ∧
      order <+: catalogue.visitAll id children order ∧
      ∀ child ∈ children, child ∈ catalogue.visitAll id children order := by
  induction children generalizing order with
  | nil => exact ⟨ordered, List.prefix_refl _, nofun⟩
  | cons child rest ih =>
      obtain ⟨orderedChild, growsChild, stands⟩ := each child List.mem_cons_self order ordered
      obtain ⟨orderedRest, growsRest, standRest⟩ :=
        ih (fun next inside => small next (List.mem_cons_of_mem child inside))
          (fun next inside => each next (List.mem_cons_of_mem child inside)) orderedChild
      have unfolded : catalogue.visitAll id (child :: rest) order =
          catalogue.visitAll id rest (catalogue.visit child order) := by
        rw [visitAll, List.foldl_cons, if_pos (small child List.mem_cons_self)]
        rfl
      rw [unfolded]
      refine ⟨orderedRest, growsChild.trans growsRest, ?_⟩
      intro next inside
      rcases List.mem_cons.mp inside with rfl | later
      · exact growsRest.subset stands
      · exact standRest next later

/-- An order stays one when a structure is added with all that it refers to. -/
theorem ordered_visit (descends : catalogue.Descends) (known : id < catalogue.size)
    (ordered : catalogue.Ordered order) :
    catalogue.Ordered (catalogue.visit id order) ∧ order <+: catalogue.visit id order ∧
      id ∈ catalogue.visit id order := by
  induction id using Nat.strongRecOn generalizing order with
  | ind id ih =>
      by_cases fresh : id ∈ order
      · rw [visit_of_mem fresh]
        exact ⟨ordered, List.prefix_refl _, fresh⟩
      · have small := descends id known
        obtain ⟨orderedChildren, grows, stand⟩ := ordered_visitAll small
          (fun child inside order ordered => ih child (small child inside)
            (Nat.lt_trans (small child inside) known) ordered) ordered
        -- What is visited before a structure is smaller than it.
        have stillFresh : id ∉ catalogue.visitAll id (catalogue.children id) order := by
          intro inside
          have early := visitAll_subset (· < id) ?_ inside
          · rcases early with old | smaller
            · exact fresh old
            · exact Nat.lt_irrefl _ smaller
          · intro child _ smaller order member
            exact (le_of_mem_visit member).imp_right fun le => Nat.lt_of_le_of_lt le smaller
        rw [visit_of_notMem fresh]
        refine ⟨orderedChildren.snoc known stillFresh stand, ?_, by simp⟩
        exact grows.trans (List.prefix_append _ _)

/-- What a structure leads to is an order. -/
theorem ordered_dependencyOrder (descends : catalogue.Descends) (known : id < catalogue.size) :
    catalogue.Ordered (catalogue.dependencyOrder id) ∧ id ∈ catalogue.dependencyOrder id := by
  obtain ⟨ordered, -, stands⟩ := ordered_visit descends known (Ordered.nil catalogue)
  exact ⟨ordered, stands⟩

/-! ## Joining orders -/

/-- Add those of some structures to an order that do not stand there. -/
def appendAll (order additions : List Nat) : List Nat :=
  additions.foldl (fun order next => if order.contains next then order else order ++ [next]) order

theorem appendAll_of_subset {additions : List Nat} (inside : ∀ next ∈ additions, next ∈ order) :
    appendAll order additions = order := by
  induction additions with
  | nil => rfl
  | cons next rest ih =>
      have stands : order.contains next := by simpa using inside next List.mem_cons_self
      rw [appendAll, List.foldl_cons, if_pos stands]
      exact ih fun later member => inside later (List.mem_cons_of_mem next member)

/-- Two orders can be joined: behind a first part that stands there, the rest is added. -/
theorem ordered_appendAll (done : List Nat) {additions : List Nat}
    (additional : catalogue.Ordered (done ++ additions)) (present : ∀ next ∈ done, next ∈ order)
    (ordered : catalogue.Ordered order) :
    catalogue.Ordered (appendAll order additions) ∧ order <+: appendAll order additions ∧
      ∀ next ∈ additions, next ∈ appendAll order additions := by
  induction additions generalizing done order with
  | nil => exact ⟨ordered, List.prefix_refl _, nofun⟩
  | cons next rest ih =>
      have additionalRest : catalogue.Ordered ((done ++ [next]) ++ rest) := by
        simpa using additional
      have children := additional.before done next rest rfl
      have step : ∃ later, appendAll order (next :: rest) = appendAll later rest ∧
          catalogue.Ordered later ∧ order <+: later ∧ next ∈ later := by
        by_cases stands : next ∈ order
        · refine ⟨order, ?_, ordered, List.prefix_refl _, stands⟩
          rw [appendAll, List.foldl_cons, if_pos (by simpa using stands)]
          rfl
        · refine ⟨order ++ [next], ?_, ?_, List.prefix_append _ _, by simp⟩
          · rw [appendAll, List.foldl_cons, if_neg (by simpa using stands)]
            rfl
          · have known := additional.known next (by simp)
            exact ordered.snoc known stands fun child refers => present child (children child refers)
      obtain ⟨later, same, orderedLater, grows, stands⟩ := step
      have presentLater : ∀ old ∈ done ++ [next], old ∈ later := by
        intro old member
        rcases List.mem_append.mp member with early | last
        · exact grows.subset (present old early)
        · rw [List.mem_singleton.mp last]
          exact stands
      obtain ⟨orderedRest, growsRest, standRest⟩ := ih _ additionalRest presentLater orderedLater
      rw [same]
      refine ⟨orderedRest, grows.trans growsRest, ?_⟩
      intro other member
      rcases List.mem_cons.mp member with rfl | later
      · exact growsRest.subset stands
      · exact standRest other later

end TypeBridge.Catalogue
