import TypeBridge.Proofs.Record.Placement

/-!
# Where the names of structures stand

A native definition is put together from `Mention`s: pieces of text, and places for the names of
structures (`Catalogue.nativeDefinition_eq`). The definitions for the array library and for calls
have such places too, one for each structure that is held by value: `Catalogue.heldIds` lists them,
and `recordNames` what stands in them. The places never change; what stands in them is what the
structures are called (`Sound.recordNames_arrayDefinition`, `Sound.recordNames_callDefinition`), so
that a definition under other names is the same one with these in its places (`mapNames`).
-/

namespace TypeBridge

/-! ## Texts with places for names -/

/-- A piece of a text: a text of its own, or the name of a structure. -/
inductive Mention where
  | text (text : String)
  | name (id : Nat)

namespace Mention

variable {names : Nat → String} {mentions more : List Mention}

/-- The text of a piece, under some names of structures. -/
def spell (names : Nat → String) : Mention → String
  | .text piece => piece
  | .name id => names id

/-- The structure whose name a piece is. -/
def id? : Mention → Option Nat
  | .text _ => none
  | .name id => some id

/-- The text of some pieces, under some names of structures. -/
def spelled (names : Nat → String) (mentions : List Mention) : String :=
  String.join (mentions.map (spell names))

/-- The structures whose names stand in some pieces. -/
def ids (mentions : List Mention) : List Nat := mentions.filterMap id?

@[simp] theorem spelled_nil : spelled names [] = "" := rfl

/-- The first piece is spelled in front of the others. -/
@[simp] theorem spelled_cons (mention : Mention) :
    spelled names (mention :: mentions) = mention.spell names ++ spelled names mentions :=
  String.join_cons

/-- Pieces in a row are spelled in a row. -/
@[simp] theorem spelled_append :
    spelled names (mentions ++ more) = spelled names mentions ++ spelled names more := by
  rw [spelled, List.map_append, String.join_append]
  rfl

/-- Pieces of several items are spelled as the texts of the items in a row. -/
theorem spelled_flatMap {α : Type} (pieces : α → List Mention) (items : List α) :
    spelled names (items.flatMap pieces) =
      String.join (items.map fun item => spelled names (pieces item)) := by
  induction items with
  | nil => rfl
  | cons item rest ih => rw [List.flatMap_cons, spelled_append, ih, List.map_cons, String.join_cons]

@[simp] theorem ids_nil : ids [] = [] := rfl

@[simp] theorem ids_text (text : String) : ids (.text text :: mentions) = ids mentions := rfl

@[simp] theorem ids_name (id : Nat) : ids (.name id :: mentions) = id :: ids mentions := rfl

/-- Pieces in a row name the structures of the one part, then those of the other. -/
@[simp] theorem ids_append : ids (mentions ++ more) = ids mentions ++ ids more :=
  List.filterMap_append

/-- Pieces of several items name the structures of each item in turn. -/
theorem ids_flatMap {α : Type} (pieces : α → List Mention) (items : List α) :
    ids (items.flatMap pieces) = items.flatMap fun item => ids (pieces item) := by
  rw [ids, List.filterMap_flatMap]
  rfl

end Mention

/-- What a field holds, as its native definition shows it. -/
def ResolvedType.mentions : ResolvedType → List Mention
  | .scalar known _ => [.text known.native.text]
  | .record id => [.name id]
  | .pointer id => [.name id, .text " *"]

/-- The line of a field in the native definition. -/
def ResolvedField.mentions (field : ResolvedField) : List Mention :=
  .text "    " :: field.type.mentions ++ [.text (" " ++ field.name ++
    (if field.count > 1 then "[" ++ toString field.count ++ "]" else "") ++ ";\n")]

namespace Catalogue

variable {catalogue before after : Catalogue} {id : Nat}

/-- The native definition of a structure with places for names. -/
def nativeMentions (catalogue : Catalogue) (id : Nat) : List Mention :=
  let entry := catalogue.entry id
  let body := .text "struct " :: .name id :: .text " \x7b\n" ::
    entry.fields.flatMap ResolvedField.mentions ++ [.text "\x7d;"]
  match Source.packNumber entry.packing.pragma with
  | some bytes => .text ("#pragma pack(push, " ++ toString bytes ++ ")\n") :: body ++
      [.text "\n#pragma pack(pop)"]
  | none => body

/-- The pieces of a field are spelled as its line in the native definition. -/
theorem spelled_field (catalogue : Catalogue) (field : ResolvedField) :
    Mention.spelled catalogue.name field.mentions = (catalogue.memberLine field).render := by
  obtain ⟨name, type, count⟩ := field
  cases type <;>
    simp only [ResolvedField.mentions, ResolvedType.mentions, memberLine, Source.MemberLine.render,
      typeText, Mention.spelled_cons, Mention.spelled_append, Mention.spelled_nil, Mention.spell,
      String.append_assoc, String.append_empty]

/-- A native definition shows the present names of structures in its places. -/
theorem nativeDefinition_eq (catalogue : Catalogue) (id : Nat) :
    catalogue.nativeDefinition id =
      Mention.spelled catalogue.name (catalogue.nativeMentions id) := by
  have lines : Mention.spelled catalogue.name
      ((catalogue.entry id).fields.flatMap ResolvedField.mentions) =
      String.join (((catalogue.entry id).fields.map catalogue.memberLine).map
        Source.MemberLine.render) := by
    rw [Mention.spelled_flatMap, List.map_map]
    simp only [spelled_field, Function.comp_def]
  have body : Mention.spelled catalogue.name (.text "struct " :: .name id :: .text " \x7b\n" ::
      (catalogue.entry id).fields.flatMap ResolvedField.mentions ++ [.text "\x7d;"]) =
      "struct " ++ catalogue.name id ++ " \x7b\n" ++
        String.join (((catalogue.entry id).fields.map catalogue.memberLine).map
          Source.MemberLine.render) ++ "\x7d;" := by
    simp [lines, Mention.spell, String.append_assoc]
  unfold nativeDefinition nativeMentions Source.structText
  dsimp only
  cases Source.packNumber (catalogue.entry id).packing.pragma with
  | none => exact body.symm
  | some bytes =>
      simp only [Mention.spelled_append, Mention.spelled_cons, Mention.spelled_nil, body,
        Mention.spell, String.append_empty]
      rfl

/-- A native definition names its structure and those that it refers to. -/
theorem ids_nativeMentions (catalogue : Catalogue) (id : Nat) :
    Mention.ids (catalogue.nativeMentions id) = id :: catalogue.children id := by
  have fields : Mention.ids ((catalogue.entry id).fields.flatMap ResolvedField.mentions) =
      catalogue.children id := by
    rw [Mention.ids_flatMap, children, List.filterMap_eq_flatMap_toList]
    refine List.flatMap_congr fun field _ => ?_
    obtain ⟨name, type, count⟩ := field
    cases type <;> rfl
  unfold nativeMentions
  dsimp only
  split <;> simp [fields]

/-- Places for names stay where they are. -/
theorem Extends.nativeMentions (extension : before.Extends after) (known : id < before.size) :
    after.nativeMentions id = before.nativeMentions id := by
  have continued := extension.entry id known
  simp only [Catalogue.nativeMentions, continued.fields, continued.packing]

end Catalogue

/-! ## Definitions with places for names -/

mutual

/-- The names of a structure and of those in it, in the array library. -/
def ArrayDtype.recordNames : ArrayDtype → List String
  | .mk name fields _ _ => name :: ArrayDtype.fieldsRecordNames fields

/-- The names of the structures in some fields. -/
def ArrayDtype.fieldsRecordNames : List ArrayField → List String
  | [] => []
  | .mk _ _ _ _ format :: rest => format.recordNames ++ ArrayDtype.fieldsRecordNames rest

/-- The names of the structures in an element. -/
def ArrayFormat.recordNames : ArrayFormat → List String
  | .scalar _ _ => []
  | .record dtype => dtype.recordNames

end

mutual

/-- A structure in the array library under other names. -/
def ArrayDtype.mapNames (change : String → String) : ArrayDtype → ArrayDtype
  | .mk name fields itemSize align =>
    .mk (change name) (ArrayDtype.mapFieldNames change fields) itemSize align

/-- Some fields with their structures under other names. -/
def ArrayDtype.mapFieldNames (change : String → String) : List ArrayField → List ArrayField
  | [] => []
  | .mk name offset count elementSize format :: rest =>
    .mk name offset count elementSize (format.mapNames change) ::
      ArrayDtype.mapFieldNames change rest

/-- An element with its structures under other names. -/
def ArrayFormat.mapNames (change : String → String) : ArrayFormat → ArrayFormat
  | .scalar dtype typeString => .scalar dtype typeString
  | .record dtype => .record (dtype.mapNames change)

end

mutual

/-- The names of a record that is passed by value and of those in it. -/
def StructShape.recordNames : StructShape → List String
  | .mk name fields _ _ => name :: StructShape.fieldsRecordNames fields

/-- The names of the records in some fields. -/
def StructShape.fieldsRecordNames : List FieldShape → List String
  | [] => []
  | .mk _ kind _ _ :: rest => kind.recordNames ++ StructShape.fieldsRecordNames rest

/-- The names of the records in an element. -/
def FieldKind.recordNames : FieldKind → List String
  | .scalar _ => []
  | .struct shape => shape.recordNames

end

mutual

/-- A record that is passed by value under other names. -/
def StructShape.mapNames (change : String → String) : StructShape → StructShape
  | .mk name fields size align =>
    .mk (change name) (StructShape.mapFieldNames change fields) size align

/-- Some fields with their records under other names. -/
def StructShape.mapFieldNames (change : String → String) : List FieldShape → List FieldShape
  | [] => []
  | .mk name kind count offset :: rest =>
    .mk name (kind.mapNames change) count offset :: StructShape.mapFieldNames change rest

/-- An element with its records under other names. -/
def FieldKind.mapNames (change : String → String) : FieldKind → FieldKind
  | .scalar kind => .scalar kind
  | .struct shape => .struct (shape.mapNames change)

end

mutual

/-- A record under the names that it has is the same record. -/
theorem StructShape.mapNames_id : (shape : StructShape) → shape.mapNames id = shape
  | .mk name fields size align => by
    rw [StructShape.mapNames, StructShape.mapFieldNames_id fields]
    rfl

theorem StructShape.mapFieldNames_id : (fields : List FieldShape) →
    StructShape.mapFieldNames id fields = fields
  | [] => rfl
  | .mk name kind count offset :: rest => by
    rw [StructShape.mapFieldNames, FieldKind.mapNames_id kind, StructShape.mapFieldNames_id rest]

theorem FieldKind.mapNames_id : (kind : FieldKind) → kind.mapNames id = kind
  | .scalar kind => rfl
  | .struct shape => by rw [FieldKind.mapNames, StructShape.mapNames_id shape]

end

/-- The structures that a field holds by value, with given ones for each. -/
def ResolvedType.held (heldOf : Nat → List Nat) : ResolvedType → List Nat
  | .scalar _ _ => []
  | .record id => heldOf id
  | .pointer _ => []

namespace Catalogue

variable {catalogue before after : Catalogue} {id : Nat} {change : String → String}

/-- A structure and those that it holds by value, at any depth, in the order of fields. -/
def heldIds (catalogue : Catalogue) (id : Nat) : List Nat :=
  id :: (catalogue.entry id).fields.flatMap fun field =>
    field.type.held fun child => if child < id then catalogue.heldIds child else []
termination_by id

/-- A structure holds itself. -/
theorem mem_heldIds_self (catalogue : Catalogue) (id : Nat) : id ∈ catalogue.heldIds id := by
  rw [heldIds]
  exact List.mem_cons_self

/-- In a sound catalogue a structure holds what those in it hold. -/
theorem Sound.heldIds_eq (sound : catalogue.Sound) (known : id < catalogue.size) :
    catalogue.heldIds id =
      id :: (catalogue.entry id).fields.flatMap fun field => field.type.held catalogue.heldIds := by
  rw [heldIds]
  refine congrArg _ (List.flatMap_congr fun field member => ?_)
  have earlier := (sound.entry id known).child_lt member
  obtain ⟨name, type, count⟩ := field
  cases type with
  | scalar => rfl
  | pointer => rfl
  | record child => exact if_pos (earlier child rfl)

/-- Nothing that a structure holds comes after it. -/
theorem le_of_mem_heldIds {other : Nat} (member : other ∈ catalogue.heldIds id) : other ≤ id := by
  induction id using Nat.strongRecOn with
  | ind id ih =>
      rw [heldIds] at member
      rcases List.mem_cons.mp member with rfl | inner
      · exact Nat.le_refl _
      · obtain ⟨⟨name, type, count⟩, -, held⟩ := List.mem_flatMap.mp inner
        cases type with
        | scalar => cases held
        | pointer => cases held
        | record child =>
            simp only [ResolvedType.held] at held
            split at held
            · rename_i smaller
              exact Nat.le_of_lt (Nat.lt_of_le_of_lt (ih child smaller held) smaller)
            · cases held

/-- What a structure holds never changes. -/
theorem Extends.heldIds (extension : before.Extends after) (known : id < before.size) :
    after.heldIds id = before.heldIds id := by
  induction id using Nat.strongRecOn with
  | ind id ih =>
      rw [Catalogue.heldIds, Catalogue.heldIds, (extension.entry id known).fields]
      refine congrArg _ (List.flatMap_congr fun field _ => ?_)
      obtain ⟨name, type, count⟩ := field
      cases type with
      | scalar => rfl
      | pointer => rfl
      | record child =>
          simp only [ResolvedType.held]
          split
          · rename_i smaller
            exact ih child smaller (Nat.lt_trans smaller known)
          · rfl

/-- The fields of a structure are those that have offsets. -/
theorem Sound.flatMap_fields (sound : catalogue.Sound) (known : id < catalogue.size) {α : Type}
    (parts : ResolvedField → List α) :
    ((catalogue.entry id).fields.zip (catalogue.layout id).offsets).flatMap
        (fun item => parts item.1) =
      (catalogue.entry id).fields.flatMap parts := by
  have fields := List.map_fst_zip (Nat.le_of_eq (sound.length_offsets known).symm)
  conv_rhs => rw [← fields, List.flatMap_map]

/-! ## The array library -/

/-- Fields that are made of items show the names that each of them shows. -/
theorem fieldsRecordNames_map {α : Type} (field : α → ArrayField) (items : List α) :
    ArrayDtype.fieldsRecordNames (items.map field) =
      items.flatMap fun item => (field item).format.recordNames := by
  induction items with
  | nil => rfl
  | cons item rest ih =>
      rw [List.map_cons, List.flatMap_cons, ← ih]
      cases field item
      rfl

/-- Changing the names in fields that are made of items changes them in each. -/
theorem mapFieldNames_map {α : Type} (field : α → ArrayField) (items : List α) :
    ArrayDtype.mapFieldNames change (items.map field) = items.map fun item => match field item with
      | .mk name offset count elementSize format =>
        .mk name offset count elementSize (format.mapNames change) := by
  induction items with
  | nil => rfl
  | cons item rest ih =>
      rw [List.map_cons, List.map_cons, ← ih]
      cases field item
      rfl

/-- The array library has the present names of a structure and of those that it holds. -/
theorem Sound.recordNames_arrayDefinition (sound : catalogue.Sound) (known : id < catalogue.size) :
    (catalogue.arrayDefinition id).recordNames = (catalogue.heldIds id).map catalogue.name := by
  induction id using Nat.strongRecOn with
  | ind id ih =>
      rw [sound.arrayDefinition_eq known, ArrayDtype.recordNames, fieldsRecordNames_map,
        sound.heldIds_eq known, List.map_cons, List.map_flatMap, ← sound.flatMap_fields known]
      refine congrArg _ (List.flatMap_congr fun (field, offset) member => ?_)
      have earlier := (sound.entry id known).child_lt (List.of_mem_zip member).1
      obtain ⟨name, type, count⟩ := field
      cases type with
      | scalar => rfl
      | pointer => rfl
      | record child =>
          have smaller := earlier child rfl
          exact ih child smaller (Nat.lt_trans smaller known)

/-- The array library's definition of a structure is what it was, under the names that the
structures have now. -/
theorem Sound.arrayDefinition_later (sound : before.Sound) (sound' : after.Sound)
    (extension : before.Extends after) (known : id < before.size)
    (names : ∀ other ∈ before.heldIds id, change (before.name other) = after.name other) :
    after.arrayDefinition id = (before.arrayDefinition id).mapNames change := by
  induction id using Nat.strongRecOn with
  | ind id ih =>
      have continued := extension.entry id known
      have layout : after.layout id = before.layout id := continued.layout
      rw [sound.heldIds_eq known] at names
      rw [sound'.arrayDefinition_eq (Nat.lt_of_lt_of_le known extension.size),
        sound.arrayDefinition_eq known, continued.fields, layout, ArrayDtype.mapNames,
        mapFieldNames_map, names id List.mem_cons_self]
      refine congrArg (ArrayDtype.mk _ · _ _) (List.map_congr_left fun (field, offset) member => ?_)
      have inside := (List.of_mem_zip member).1
      have earlier := (sound.entry id known).child_lt inside
      have held : ∀ other ∈ field.type.held before.heldIds,
          change (before.name other) = after.name other := fun other here =>
        names other (List.mem_cons_of_mem _ (List.mem_flatMap.mpr ⟨field, inside, here⟩))
      have knows : before.Knows field := fun child refers =>
        Nat.lt_trans ((sound.entry id known).children field inside child refers) known
      rw [arrayField, arrayField, extension.memberLayout knows]
      obtain ⟨name, type, count⟩ := field
      cases type with
      | scalar => rfl
      | pointer => rfl
      | record child =>
          have smaller := earlier child rfl
          dsimp only [ArrayFormat.mapNames]
          rw [ih child smaller (Nat.lt_trans smaller known) held]

/-! ## Calls by value -/

/-- A member has a kind of scalar exactly if its facts have. -/
theorem scalarKindOf_eq_ok {info : TypeInfo} {owner member : String} {kind : ScalarKind} :
    scalarKindOf info owner member = .ok kind ↔ ScalarKind.ofInfo info = .ok kind := by
  unfold scalarKindOf
  split
  · rename_i found
    rw [found, Except.ok.injEq, Except.ok.injEq]
  · rename_i failed
    rw [failed]
    exact iff_of_false nofun nofun
  · rename_i failed
    rw [failed]
    exact iff_of_false nofun nofun

/-- The definition of a structure for calls goes by the name of the structure. -/
theorem name_callDefinition {shape : StructShape}
    (defined : catalogue.callDefinition id = .ok shape) : shape.name = catalogue.name id := by
  rw [callDefinition] at defined
  dsimp only at defined
  split at defined
  · cases defined
  · obtain ⟨fields, -, ended⟩ := exists_of_bind_ok defined
    cases ended
    rfl

/-- The shapes of some fields have the present names of the structures in them. -/
theorem Sound.fieldsRecordNames_eq (sound : catalogue.Sound) (known : id < catalogue.size)
    {items : List (ResolvedField × Nat)} {shapes : List FieldShape}
    (members : ∀ item ∈ items, item.1 ∈ (catalogue.entry id).fields)
    (calls : List.Forall₂ (catalogue.CallsField (catalogue.name id)) items shapes)
    (inner : ∀ child, child < id → ∀ shape, catalogue.callDefinition child = .ok shape →
      shape.recordNames = (catalogue.heldIds child).map catalogue.name) :
    StructShape.fieldsRecordNames shapes =
      (items.flatMap fun item => item.1.type.held catalogue.heldIds).map catalogue.name := by
  induction calls with
  | nil => rfl
  | @cons item shape items shapes calls _ ih =>
      have earlier := (sound.entry id known).child_lt (members item List.mem_cons_self)
      obtain @⟨⟨name, type, count⟩, offset, kind, calls⟩ := calls
      rw [List.flatMap_cons, List.map_append, StructShape.fieldsRecordNames,
        ih fun other later => members other (List.mem_cons_of_mem _ later)]
      congr 1
      cases calls with
      | scalar => rfl
      | pointer => rfl
      | record defined => exact inner _ (earlier _ rfl) _ defined

/-- A shape for calls has the present names of its structure and of those that it holds. -/
theorem Sound.recordNames_callDefinition (sound : catalogue.Sound) (known : id < catalogue.size)
    {shape : StructShape} (defined : catalogue.callDefinition id = .ok shape) :
    shape.recordNames = (catalogue.heldIds id).map catalogue.name := by
  induction id using Nat.strongRecOn generalizing shape with
  | ind id ih =>
      obtain ⟨-, -, -, calls⟩ := sound.callDefinition_ok known defined
      have itsName := name_callDefinition defined
      obtain ⟨name, shapes, size, align⟩ := shape
      have inner := sound.fieldsRecordNames_eq known
        (fun item member => (List.of_mem_zip member).1) calls
        fun child smaller shape defined => ih child smaller (Nat.lt_trans smaller known) defined
      rw [StructShape.recordNames, show name = catalogue.name id from itsName,
        show StructShape.fieldsRecordNames shapes = _ from inner, sound.flatMap_fields known
          (fun field => field.type.held catalogue.heldIds), sound.heldIds_eq known, List.map_cons]

/-- A list of results answers with the answers of its items. -/
theorem mapM_of_forall₂ {ε α β : Type} {next : α → Except ε β} {items : List α} {answers : List β}
    (all : List.Forall₂ (fun item answer => next item = .ok answer) items answers) :
    items.mapM next = .ok answers := by
  induction all with
  | nil => rfl
  | cons first _ ih =>
      rw [List.mapM_cons, first, ih]
      rfl

/-- A structure without packing has a shape for calls if each of its fields has one. -/
theorem Sound.callDefinition_of_calls (sound : catalogue.Sound) (known : id < catalogue.size)
    (natural : (catalogue.entry id).packing = .natural) {shapes : List FieldShape}
    (calls : List.Forall₂ (catalogue.CallsField (catalogue.name id))
      ((catalogue.entry id).fields.zip (catalogue.layout id).offsets) shapes) :
    catalogue.callDefinition id = .ok
      (.mk (catalogue.name id) shapes (catalogue.layout id).size (catalogue.layout id).align) := by
  have earlier : ∀ item ∈ (catalogue.entry id).fields.zip (catalogue.layout id).offsets,
      ∀ child, item.1.type = .record child → child < id := fun item member _ holds =>
    (sound.entry id known).child_lt (List.of_mem_zip member).1 _ holds
  rw [callDefinition]
  dsimp only
  rw [if_neg (not_not.mpr natural)]
  refine Eq.trans (congrArg (· >>= _) (mapM_of_forall₂ (?_ : List.Forall₂ _ _ shapes))) rfl
  refine ((List.forall₂_and_left _ _).mpr ⟨earlier, calls⟩).imp ?_
  rintro ⟨⟨name, type, count⟩, offset⟩ shape ⟨before, calls⟩
  obtain @⟨_, _, kind, calls⟩ := calls
  cases calls with
  | @scalar scalar _ scalarKind is =>
      have is : scalarKindOf scalar.info (catalogue.entry id).name name = .ok scalarKind := is
      dsimp only
      rw [is]
      rfl
  | pointer => rfl
  | record defined =>
      dsimp only
      rw [if_pos (before _ rfl), defined]
      rfl

/-- Fields that had shapes for calls have them still, if the records in them have. -/
theorem forall₂_callsField_later {owner owner' : String} {items : List (ResolvedField × Nat)}
    {shapes : List FieldShape}
    (inner : ∀ item ∈ items, ∀ child shape, item.1.type = .record child →
      before.callDefinition child = .ok shape →
        after.callDefinition child = .ok (shape.mapNames change))
    (calls : List.Forall₂ (before.CallsField owner) items shapes) :
    List.Forall₂ (after.CallsField owner') items (StructShape.mapFieldNames change shapes) := by
  induction calls with
  | nil => exact .nil
  | @cons item shape items shapes calls _ ih =>
      obtain ⟨first, others⟩ := List.forall_mem_cons.mp inner
      obtain @⟨⟨name, type, count⟩, offset, kind, calls⟩ := calls
      refine .cons (.mk ?_) (ih others)
      cases calls with
      | scalar is => exact .scalar (scalarKindOf_eq_ok.mpr (scalarKindOf_eq_ok.mp is))
      | pointer => exact .pointer
      | record defined => exact .record (first _ _ rfl defined)

/-- A structure that had a shape for calls has it still, under the names that the structures have
now. -/
theorem Sound.callDefinition_later (sound : before.Sound) (sound' : after.Sound)
    (extension : before.Extends after) (known : id < before.size)
    (names : ∀ other ∈ before.heldIds id, change (before.name other) = after.name other)
    {shape : StructShape} (defined : before.callDefinition id = .ok shape) :
    after.callDefinition id = .ok (shape.mapNames change) := by
  induction id using Nat.strongRecOn generalizing shape with
  | ind id ih =>
      have continued := extension.entry id known
      obtain ⟨natural, size, align, calls⟩ := sound.callDefinition_ok known defined
      have itsName := name_callDefinition defined
      obtain ⟨name, shapes, shapeSize, shapeAlign⟩ := shape
      dsimp only [StructShape.name, StructShape.size, StructShape.align, StructShape.fields]
        at itsName size align calls
      rw [sound.heldIds_eq known] at names
      have fields : List.Forall₂ (after.CallsField (after.name id))
          ((after.entry id).fields.zip (after.layout id).offsets)
          (StructShape.mapFieldNames change shapes) := by
        rw [continued.fields, show after.layout id = before.layout id from continued.layout]
        refine forall₂_callsField_later (fun item member child shape holds defined => ?_) calls
        have inside := (List.of_mem_zip member).1
        have smaller := (sound.entry id known).child_lt inside child holds
        refine ih child smaller (Nat.lt_trans smaller known) (fun other here => ?_) defined
        refine names other (List.mem_cons_of_mem _ (List.mem_flatMap.mpr ⟨item.1, inside, ?_⟩))
        rw [holds]
        exact here
      rw [sound'.callDefinition_of_calls (Nat.lt_of_lt_of_le known extension.size)
        (continued.packing.trans natural) fields, StructShape.mapNames, itsName,
        names id List.mem_cons_self, size, align]
      exact congrArg (fun layout : Layout => Except.ok (StructShape.mk _ _ layout.size layout.align))
        continued.layout

/-- The shape of a structure for calls is what it was if those in it are called as they were. -/
theorem Sound.callDefinition_of_names (sound : before.Sound) (sound' : after.Sound)
    (extension : before.Extends after) (known : id < before.size)
    (names : ∀ other ∈ before.heldIds id, before.name other = after.name other)
    {shape : StructShape} (defined : before.callDefinition id = .ok shape) :
    after.callDefinition id = .ok shape := by
  have same : after.callDefinition id = .ok (shape.mapNames fun name => name) :=
    sound.callDefinition_later sound' extension known names defined
  exact same.trans (congrArg Except.ok shape.mapNames_id)

end Catalogue

end TypeBridge
