import TypeBridge.Proofs.Text.Collapsing
import TypeBridge.Types.Name

/-!
# Native names in normal form

A native name in normal form is a base with a number of stars (`TypeName.starred`), and every
spelling has such a form (`exists_starred`). Following a pointer takes one star away and pointing to
a name adds one, so that neither loses anything (`pointee_starred`, `pointerTo_starred`).
-/

namespace TypeBridge.TypeName

variable {base tail text : List Char} {c : Char} {depth : Nat}

/-- What stands before the stars of a native name: a collapsed text that ends with no star. -/
structure IsBase (base : List Char) : Prop where
  collapsed : Text.collapse base = base
  ends : Text.dropTail isStarOrBlank base = base

/-- How a number of stars is written behind a base: none at all, or all of them behind one
space. -/
def stars (depth : Nat) : List Char := if depth = 0 then [] else ' ' :: List.replicate depth '*'

/-- The native name that points through a number of levels to what a base names. -/
def starred (base : List Char) (depth : Nat) : TypeName where
  system := .native
  text := String.ofList (base ++ stars depth)
  isPointer := depth != 0

/-- A name that some spelling has in its system. -/
def IsNormal (name : TypeName) : Prop := ∃ system spelling, name = normal system spelling

/-! ## Tails of stars and blanks -/

theorem isStarOrBlank_of_mem_spaced : ∀ c ∈ [' ', '*'], isStarOrBlank c = true :=
  List.forall_mem_cons.mpr ⟨rfl, List.forall_mem_singleton.mpr rfl⟩

/-- Stars and blanks behind a text stay such when the text is collapsed, and no star is lost. -/
theorem collapse_append (base : List Char) (only : ∀ c ∈ tail, isStarOrBlank c = true) :
    ∃ rest, Text.collapse (base ++ tail) = Text.collapse base ++ rest ∧
      (∀ c ∈ rest, isStarOrBlank c = true) ∧ rest.count '*' = tail.count '*' := by
  induction tail using List.reverseRecOn with
  | nil => exact ⟨[], by simp, nofun, rfl⟩
  | append_singleton tail c ih =>
      obtain ⟨rest, same, starry, count⟩ :=
        ih fun d member => only d (List.mem_append_left _ member)
      rw [← List.append_assoc]
      cases blank : Text.isBlank c with
      | true =>
          refine ⟨rest, (Text.collapse_concat_blank _ blank).trans same, starry, ?_⟩
          have apart : c ≠ '*' := by
            rintro rfl
            exact absurd blank (by decide)
          rw [count, List.count_append, List.count_singleton]
          simp [apart]
      | false =>
          have star : c = '*' := by simpa [isStarOrBlank, blank] using only c (by simp)
          subst star
          rcases Text.collapse_concat (base ++ tail) blank with close | spaced
          · refine ⟨rest ++ ['*'], by rw [close, same, List.append_assoc], ?_, ?_⟩
            · exact List.forall_mem_append.mpr ⟨starry, List.forall_mem_singleton.mpr rfl⟩
            · simp [count]
          · refine ⟨rest ++ [' ', '*'], by rw [spaced, same, List.append_assoc], ?_, ?_⟩
            · exact List.forall_mem_append.mpr ⟨starry, isStarOrBlank_of_mem_spaced⟩
            · simp [count]

/-- A text that ends with neither star nor blank still does when it is collapsed. -/
theorem collapse_ends (ends : Text.dropTail isStarOrBlank base = base) :
    Text.dropTail isStarOrBlank (Text.collapse base) = Text.collapse base := by
  cases base using List.reverseRecOn with
  | nil => rfl
  | append_singleton front c =>
      have last : isStarOrBlank c = false := by
        simpa using List.rdropWhile_eq_self_iff.mp ends (by simp)
      have solid : Text.isBlank c = false := (Bool.or_eq_false_iff.mp last).2
      rcases Text.collapse_concat front solid with close | spaced
      · rw [close, Text.dropTail_concat _ last]
      · rw [spaced, ← List.singleton_append, ← List.append_assoc, Text.dropTail_concat _ last]

/-- A collapsed text without its stars and blanks at the end is still collapsed. -/
theorem isBase_dropTail (spelling : String) :
    IsBase (Text.dropTail isStarOrBlank (Text.collapse spelling.toList)) where
  ends := Text.dropTail_dropTail isStarOrBlank _
  collapsed := by
    have parts := Text.dropTail_append_takeTail isStarOrBlank (Text.collapse spelling.toList)
    obtain ⟨rest, same, only, -⟩ := collapse_append
      (Text.dropTail isStarOrBlank (Text.collapse spelling.toList)) Text.of_mem_takeTail
    -- The text is collapsed already, so that both sides of the equation lose the same tail.
    rw [parts, Text.collapse_collapse] at same
    have dropped := congrArg (Text.dropTail isStarOrBlank) same
    rw [Text.dropTail_append _ only,
      collapse_ends (Text.dropTail_dropTail isStarOrBlank _)] at dropped
    exact dropped.symm

/-! ## Normal forms -/

/-- A spelling that is a base with stars and blanks behind it names what the base names, through
as many pointers as there are stars. -/
theorem native_append (isBase : IsBase base) (only : ∀ c ∈ tail, isStarOrBlank c = true) :
    native (String.ofList (base ++ tail)) = starred base (tail.count '*') := by
  obtain ⟨rest, same, starry, count⟩ := collapse_append base only
  rw [isBase.collapsed] at same
  have front : Text.dropTail isStarOrBlank (Text.collapse (base ++ tail)) = base := by
    rw [same, Text.dropTail_append base starry, isBase.ends]
  have behind : Text.takeTail isStarOrBlank (Text.collapse (base ++ tail)) = rest := by
    have parts := Text.dropTail_append_takeTail isStarOrBlank (Text.collapse (base ++ tail))
    rw [front] at parts
    exact List.append_cancel_left (parts.trans same)
  simp only [native, String.toList_ofList, front, behind, count, starred, stars]
  by_cases none : tail.count '*' = 0
  · simp [none]
  · simp [none]

/-- Every spelling is that of a base with a number of stars. -/
theorem exists_starred (spelling : String) :
    ∃ base depth, IsBase base ∧ native spelling = starred base depth := by
  have parts := Text.dropTail_append_takeTail isStarOrBlank (Text.collapse spelling.toList)
  have same := native_append (isBase_dropTail spelling) (Text.of_mem_takeTail
    : ∀ c ∈ Text.takeTail isStarOrBlank (Text.collapse spelling.toList), isStarOrBlank c = true)
  refine ⟨_, _, isBase_dropTail spelling, Eq.trans ?_ same⟩
  simp only [parts, native, String.toList_ofList, Text.collapse_collapse]

theorem isStarOrBlank_of_mem_stars (depth : Nat) : ∀ c ∈ stars depth, isStarOrBlank c = true := by
  intro c member
  unfold stars at member
  split at member
  · cases member
  · rcases List.mem_cons.mp member with rfl | star
    · decide
    · rw [List.eq_of_mem_replicate star]
      decide

theorem count_stars (depth : Nat) : (stars depth).count '*' = depth := by
  unfold stars
  split
  · simp [*]
  · simp

/-- The text of a name in normal form spells that name. -/
theorem native_text_starred (isBase : IsBase base) (depth : Nat) :
    native (starred base depth).text = starred base depth := by
  rw [starred, native_append isBase (isStarOrBlank_of_mem_stars depth), count_stars]
  rfl

/-- Bringing a spelling into normal form once is enough. -/
theorem native_text (spelling : String) : native (native spelling).text = native spelling := by
  obtain ⟨base, depth, isBase, same⟩ := exists_starred spelling
  rw [same, native_text_starred isBase]

/-! ## Pointers -/

/-- Following a pointer takes one star away. -/
theorem pointee_starred (isBase : IsBase base) (depth : Nat) :
    (starred base (depth + 1)).pointee = some (starred base depth) := by
  have text : (starred base (depth + 1)).text.toList =
      base ++ ' ' :: List.replicate depth '*' ++ ['*'] := by
    simp [starred, stars, List.replicate_succ']
  have shorter : native (String.ofList (base ++ ' ' :: List.replicate depth '*')) =
      starred base depth := by
    rw [native_append isBase]
    · simp
    · intro c member
      rcases List.mem_cons.mp member with rfl | star
      · decide
      · rw [List.eq_of_mem_replicate star]
        decide
  unfold pointee
  rw [text, List.getLast?_concat, List.dropLast_concat, shorter]
  rfl

/-- Pointing to a name adds one star. -/
theorem pointerTo_starred (isBase : IsBase base) (depth : Nat) :
    (starred base depth).pointerTo = starred base (depth + 1) := by
  have spelled : (starred base depth).text ++ " *" =
      String.ofList (base ++ (stars depth ++ [' ', '*'])) := by
    rw [← List.append_assoc, String.ofList_append]
    rfl
  have only := List.forall_mem_append.mpr
    ⟨isStarOrBlank_of_mem_stars depth, isStarOrBlank_of_mem_spaced⟩
  show native ((starred base depth).text ++ " *") = _
  rw [spelled, native_append isBase only, List.count_append, count_stars]
  rfl

end TypeBridge.TypeName
