import Mathlib.Logic.Function.Iterate
import Mathlib.Logic.Relation
import TypeBridge.Proofs.Types.Spelling

/-!
# Respelled native names

A native name may be spelled with other blanks than its normal form has. `Edit` lists the places
where a blank does not matter, and `Respelled` is any number of such edits, made or taken back.
Two spellings give one name exactly when one is the other respelled (`respelled_iff`), because each
spelling can be edited into its normal form (`Respelled.normal`). What a spelling ends with decides
how many pointers can be followed (`isSome_follow_iff`), down to the name of its stem.
-/

namespace TypeBridge.TypeName

variable {base before after gap run tail text other : List Char} {c : Char} {depth steps : Nat}

/-- Blanks, at least one of them. -/
structure IsGap (gap : List Char) : Prop where
  some : gap ≠ []
  blank : ∀ c ∈ gap, Text.isBlank c = true

/-- One change of the blanks in a spelling that leaves the native name as it is. -/
inductive Edit : List Char → List Char → Prop
  /-- A run of blanks gets another length, or other blanks. -/
  | within {before after gap other : List Char} (old : IsGap gap) (new : IsGap other) :
      Edit (before ++ gap ++ after) (before ++ other ++ after)
  /-- Blanks at the front are removed. -/
  | front {text gap : List Char} (old : IsGap gap) : Edit (gap ++ text) text
  /-- Blanks at the end are removed, or blanks with nothing behind them but blanks and stars. -/
  | behind {before run gap : List Char} (old : IsGap gap)
      (only : ∀ c ∈ run, isStarOrBlank c = true) : Edit (before ++ gap ++ run) (before ++ run)

/-- One spelling becomes the other by edits and by edits taken back. -/
def Respelled : List Char → List Char → Prop := Relation.EqvGen Edit

/-- The name reached by following a number of pointers, if there are so many. -/
def follow (steps : Nat) (name : TypeName) : Option TypeName :=
  (fun reached : Option TypeName => reached.bind pointee)^[steps] (some name)

/-! ## Edits keep the name -/

/-- A single blank is a run of blanks. -/
theorem isGap_singleton (blank : Text.isBlank c = true) : IsGap [c] where
  some := by simp
  blank := List.forall_mem_singleton.mpr blank

theorem isGap_space : IsGap [' '] := isGap_singleton (by decide)

/-- Words are cut at a run of blanks as at a single one. -/
theorem words_append_gap (before after : List Char) (isGap : IsGap gap) :
    Text.words (before ++ gap ++ after) = Text.words before ++ Text.words after := by
  obtain ⟨some, blank⟩ := isGap
  induction gap generalizing before with
  | nil => exact absurd rfl some
  | cons c rest ih =>
      obtain ⟨first, others⟩ := List.forall_mem_cons.mp blank
      have moved : before ++ c :: rest ++ after = (before ++ [c]) ++ rest ++ after := by simp
      rw [moved]
      cases rest with
      | nil =>
          rw [List.append_nil, List.append_assoc, List.singleton_append,
            Text.words_append_blank before after first]
      | cons next rest => rw [ih (before ++ [c]) (by simp) others, Text.words_concat_blank _ first]

/-- A name is what its collapsed spelling names. -/
theorem native_congr (same : Text.collapse text = Text.collapse other) :
    native (String.ofList text) = native (String.ofList other) := by
  simp only [native, String.toList_ofList, same]

/-- What stands before the stars and blanks at the end is a base when it is collapsed. -/
theorem isBase_stem (text : List Char) :
    IsBase (Text.collapse (Text.dropTail isStarOrBlank text)) where
  collapsed := Text.collapse_collapse _
  ends := collapse_ends (Text.dropTail_dropTail isStarOrBlank text)

/-- The tail of a name is made of stars and blanks. -/
theorem isStarOrBlank_of_mem_takeTail (text : List Char) :
    ∀ c ∈ Text.takeTail isStarOrBlank text, isStarOrBlank c = true :=
  Text.of_mem_takeTail

/-- A name is read off its spelling: the collapsed stem is the base, and there is a pointer for
each star behind it. -/
theorem native_eq_starred (text : List Char) :
    native (String.ofList text) = starred (Text.collapse (Text.dropTail isStarOrBlank text))
      ((Text.takeTail isStarOrBlank text).count '*') := by
  obtain ⟨rest, same, only, count⟩ := collapse_append (Text.dropTail isStarOrBlank text)
    (isStarOrBlank_of_mem_takeTail text)
  rw [Text.dropTail_append_takeTail] at same
  calc native (String.ofList text)
      = native (String.ofList (Text.collapse text)) :=
        native_congr (Text.collapse_collapse text).symm
    _ = native (String.ofList (Text.collapse (Text.dropTail isStarOrBlank text) ++ rest)) := by
        rw [same]
    _ = starred (Text.collapse (Text.dropTail isStarOrBlank text))
          ((Text.takeTail isStarOrBlank text).count '*') := by
        rw [native_append (isBase_stem text) only, count]

/-- Stars and blanks behind a text belong to its tail. -/
theorem takeTail_append (before : List Char) (only : ∀ c ∈ run, isStarOrBlank c = true) :
    Text.takeTail isStarOrBlank (before ++ run) = Text.takeTail isStarOrBlank before ++ run := by
  have whole := Text.dropTail_append_takeTail isStarOrBlank (before ++ run)
  rw [Text.dropTail_append before only] at whole
  have parts := Text.dropTail_append_takeTail isStarOrBlank before
  rw [← List.append_cancel_left_eq (Text.dropTail isStarOrBlank before), whole,
    ← List.append_assoc, parts]

/-- A run of blanks is made of stars and blanks. -/
theorem isStarOrBlank_of_gap (isGap : IsGap gap) : ∀ c ∈ gap, isStarOrBlank c = true :=
  fun c member => Bool.or_eq_true_iff.mpr (.inr (isGap.blank c member))

/-- There is no star in a run of blanks. -/
theorem count_gap (isGap : IsGap gap) : gap.count '*' = 0 :=
  List.count_eq_zero.mpr fun member => absurd (isGap.blank _ member) (by decide)

/-- An edit does not change the name. -/
theorem Edit.native_eq (edit : Edit text other) :
    native (String.ofList text) = native (String.ofList other) := by
  cases edit with
  | within old new =>
      apply native_congr
      rw [Text.collapse, words_append_gap _ _ old, ← words_append_gap _ _ new, Text.collapse]
  | front old =>
      apply native_congr
      have none : Text.words [] = [] := rfl
      have cut := words_append_gap [] other old
      rw [List.nil_append, none, List.nil_append] at cut
      rw [Text.collapse, cut, Text.collapse]
  | behind old only =>
      have spaced := isStarOrBlank_of_gap old
      rw [native_eq_starred, native_eq_starred, Text.dropTail_append _ only,
        Text.dropTail_append _ spaced, Text.dropTail_append _ only, takeTail_append _ only,
        takeTail_append _ spaced, takeTail_append _ only, List.count_append, List.count_append,
        List.count_append, count_gap old, Nat.add_zero]

/-- However a name is respelled, it stays the same name. -/
theorem Respelled.native_eq (respelled : Respelled text other) :
    native (String.ofList text) = native (String.ofList other) := by
  induction respelled with
  | rel _ _ edit => exact edit.native_eq
  | refl _ => rfl
  | symm _ _ _ ih => exact ih.symm
  | trans _ _ _ _ _ first second => exact first.trans second

/-! ## Every spelling is edited into normal form -/

/-- An edit is a respelling. -/
theorem Respelled.edit (edit : Edit text other) : Respelled text other :=
  Relation.EqvGen.rel _ _ edit

theorem Respelled.refl (text : List Char) : Respelled text text := Relation.EqvGen.refl _

theorem Respelled.symm (respelled : Respelled text other) : Respelled other text :=
  Relation.EqvGen.symm _ _ respelled

/-- A respelling of a respelling is one. -/
theorem Respelled.trans {third : List Char} (first : Respelled text other)
    (second : Respelled other third) : Respelled text third :=
  Relation.EqvGen.trans _ _ _ first second

/-- The blanks of a text can be edited into single spaces, whatever stands behind it and one more
space. -/
theorem Respelled.collapse_append (text after : List Char) :
    Respelled (text ++ ' ' :: after)
      (if Text.words text = [] then after else Text.collapse text ++ ' ' :: after) := by
  obtain ⟨front, run, rfl, solid, starts⟩ := Text.exists_run text
  have words := Text.words_append_run run starts
  have alone := Text.words_run solid
  rcases starts with rfl | ⟨before, blank, rfl, isBlank⟩
  · rw [List.nil_append, Text.collapse, alone]
    by_cases none : run = []
    · subst none
      exact .edit (.front isGap_space)
    · rw [if_neg none, if_neg (by simp), List.intercalate_singleton]
      exact .refl _
  · -- Without its last run and the blank before it the text is shorter: the run is moved to what
    -- stands behind.
    rw [Text.words_concat_blank before isBlank, alone] at words
    by_cases none : run = []
    · subst none
      rw [List.append_nil, if_pos rfl, List.append_nil] at words
      rw [List.append_nil, Text.collapse, words]
      have joined : Edit (before ++ [blank, ' '] ++ after) (before ++ [' '] ++ after) :=
        .within ⟨by simp, List.forall_mem_cons.mpr ⟨isBlank, isGap_space.blank⟩⟩ isGap_space
      refine .trans ?_ (Respelled.collapse_append before after)
      simpa using Respelled.edit joined
    · rw [if_neg none] at words
      have single : Edit (before ++ [blank] ++ (run ++ ' ' :: after))
          (before ++ [' '] ++ (run ++ ' ' :: after)) :=
        .within (isGap_singleton isBlank) isGap_space
      have shorter := Respelled.collapse_append before (run ++ ' ' :: after)
      rw [Text.collapse, words, if_neg (by simp), Text.intercalate_concat]
      refine .trans (by simpa using Respelled.edit single) (.trans shorter ?_)
      by_cases empty : Text.words before = []
      · rw [if_pos empty, if_pos empty]
        exact .refl _
      · rw [if_neg empty, if_neg empty, Text.collapse, List.append_assoc, List.cons_append]
        exact .refl _
termination_by text.length

/-- A spelling can be edited into its words with single spaces between them. -/
theorem Respelled.collapse (text : List Char) : Respelled text (Text.collapse text) := by
  have spaced : ∀ front : List Char, Respelled (front ++ [' ']) front := fun front => by
    have removed : Edit (front ++ [' '] ++ []) (front ++ []) := .behind isGap_space nofun
    simpa using Respelled.edit removed
  refine .trans (.symm (spaced text)) (.trans (.collapse_append text []) ?_)
  by_cases none : Text.words text = []
  · rw [if_pos none, Text.collapse, none]
    exact .refl _
  · rw [if_neg none]
    exact spaced _

/-- Blanks can be taken out from among the stars behind a text. -/
theorem Respelled.unspaced (before : List Char) (only : ∀ c ∈ tail, isStarOrBlank c = true) :
    Respelled (before ++ tail) (before ++ List.replicate (tail.count '*') '*') := by
  induction tail generalizing before with
  | nil => exact .refl _
  | cons c rest ih =>
      obtain ⟨first, others⟩ := List.forall_mem_cons.mp only
      cases blank : Text.isBlank c with
      | true =>
          have gap := isGap_singleton blank
          have removed : Edit (before ++ [c] ++ rest) (before ++ rest) := .behind gap others
          have none := count_gap gap
          rw [List.count_singleton, ite_eq_right_iff] at none
          have apart : c ≠ '*' := fun star => absurd (none (beq_iff_eq.mpr star)) Nat.one_ne_zero
          rw [List.count_cons_of_ne apart]
          exact .trans (by simpa using Respelled.edit removed) (ih before others)
      | false =>
          have star : c = '*' := by simpa [isStarOrBlank, blank] using first
          subst star
          simpa [List.replicate_succ] using ih (before ++ ['*']) others

/-- A base with stars and blanks behind it can be given its stars as they stand in normal form. -/
theorem Respelled.stars (base : List Char) (only : ∀ c ∈ tail, isStarOrBlank c = true) :
    Respelled (base ++ tail) (base ++ stars (tail.count '*')) := by
  have spaced := Respelled.unspaced base (isStarOrBlank_of_mem_stars (tail.count '*'))
  rw [count_stars] at spaced
  exact .trans (.unspaced base only) spaced.symm

/-- Every spelling can be edited into the text of the name it gives. -/
theorem Respelled.normal (text : List Char) :
    Respelled text (native (String.ofList text)).text.toList := by
  have parts := Text.dropTail_append_takeTail isStarOrBlank (Text.collapse text)
  have isBase := isBase_dropTail (String.ofList text)
  rw [String.toList_ofList] at isBase
  have only := isStarOrBlank_of_mem_takeTail (Text.collapse text)
  have named := native_append isBase only
  have edited := Respelled.stars (Text.dropTail isStarOrBlank (Text.collapse text)) only
  rw [parts] at named edited
  rw [← native_congr (Text.collapse_collapse text), named, starred, String.toList_ofList]
  exact .trans (.collapse text) edited

/-- Two spellings give one name exactly when one is the other with other blanks. -/
theorem respelled_iff (text other : List Char) :
    Respelled text other ↔ native (String.ofList text) = native (String.ofList other) := by
  refine ⟨Respelled.native_eq, fun same => ?_⟩
  have normal := Respelled.normal text
  rw [same] at normal
  exact .trans normal (.symm (.normal other))

/-! ## Following pointers -/

/-- One more step to a pointee is the last one. -/
theorem follow_succ (steps : Nat) (name : TypeName) :
    follow (steps + 1) name = (follow steps name).bind pointee :=
  Function.iterate_succ_apply' _ steps (some name)

/-- A name that is no pointer leads nowhere. -/
theorem pointee_starred_zero (base : List Char) : (starred base 0).pointee = none := rfl

/-- As many pointers can be followed as there are stars, each of them for one star. -/
theorem follow_starred (isBase : IsBase base) (depth steps : Nat) :
    follow steps (starred base depth) =
      if steps ≤ depth then some (starred base (depth - steps)) else none := by
  induction steps with
  | zero => simp [follow]
  | succ steps ih =>
      rw [follow_succ, ih]
      rcases Nat.lt_trichotomy steps depth with less | same | more
      · obtain ⟨rest, gap⟩ := Nat.exists_eq_add_of_lt less
        have left : depth - steps = rest + 1 := by omega
        have fewer : depth - (steps + 1) = rest := by omega
        rw [if_pos less.le, if_pos (Nat.succ_le_of_lt less), left, fewer, Option.bind_some,
          pointee_starred isBase]
      · rw [if_pos same.le, if_neg (by omega), same, Nat.sub_self, Option.bind_some,
          pointee_starred_zero]
      · rw [if_neg (by omega), if_neg (by omega), Option.bind_none]

/-- The stars among the stars and blanks at the end of a spelling. -/
def endingStars (spelling : String) : Nat :=
  (Text.takeTail isStarOrBlank spelling.toList).count '*'

/-- The name of a spelling without the stars and blanks at its end. -/
def nativeStem (spelling : String) : TypeName :=
  native (String.ofList (Text.dropTail isStarOrBlank spelling.toList))

/-- The stem of a spelling is what stands in front of its tail, without stars. -/
theorem nativeStem_eq_starred (spelling : String) : nativeStem spelling =
    starred (Text.collapse (Text.dropTail isStarOrBlank spelling.toList)) 0 := by
  have none := Text.dropTail_append_takeTail isStarOrBlank
    (Text.dropTail isStarOrBlank spelling.toList)
  rw [Text.dropTail_dropTail, List.append_right_eq_self] at none
  rw [nativeStem, native_eq_starred, Text.dropTail_dropTail, none]
  rfl

/-- Native names have a normal form, which a spelling reaches by edits of its blanks, and stars at
the end of a spelling are pointers: each can be followed once, and pointing to a name and following
a pointer undo each other. -/
theorem native_normal_form (spelling other : String) :
    native (native spelling).text = native spelling ∧
    (Respelled spelling.toList other.toList ↔ native spelling = native other) ∧
    ((native spelling).isPointer = true ↔ '*' ∈ Text.takeTail isStarOrBlank spelling.toList) ∧
    (∀ steps, (follow steps (native spelling)).isSome = true ↔ steps ≤ endingStars spelling) ∧
    follow (endingStars spelling) (native spelling) = some (nativeStem spelling) ∧
    (nativeStem spelling).isPointer = false ∧
    (native spelling).pointerTo.pointee = some (native spelling) ∧
    ((native spelling).isPointer = true ↔
      ∃ target, (native spelling).pointee = some target ∧ target.pointerTo = native spelling) := by
  have stem := nativeStem_eq_starred spelling
  obtain ⟨base, isBase, name, stem⟩ : ∃ base, IsBase base ∧
      native spelling = starred base (endingStars spelling) ∧ nativeStem spelling = starred base 0 := by
    refine ⟨_, isBase_stem spelling.toList, ?_, stem⟩
    rw [endingStars, ← native_eq_starred, String.ofList_toList]
  have pointer : (native spelling).isPointer = true ↔ endingStars spelling ≠ 0 := by
    rw [name]
    exact bne_iff_ne
  refine ⟨native_text spelling, ?_, ?_, fun steps => ?_, ?_, ?_, ?_, ?_⟩
  · rw [respelled_iff, String.ofList_toList, String.ofList_toList]
  · rw [pointer, ← Nat.pos_iff_ne_zero, endingStars, List.count_pos_iff]
  · rw [name, follow_starred isBase]
    split <;> simp [*]
  · rw [name, stem, follow_starred isBase, if_pos le_rfl, Nat.sub_self]
  · rw [stem]
    rfl
  · rw [name, pointerTo_starred isBase, pointee_starred isBase]
  · rw [pointer, name]
    cases endingStars spelling with
    | zero => simp [pointee_starred_zero]
    | succ depth => simp [pointee_starred isBase, pointerTo_starred isBase]

end TypeBridge.TypeName
