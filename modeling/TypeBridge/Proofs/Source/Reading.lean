import TypeBridge.Proofs.Record.KeyReading
import TypeBridge.Proofs.Text.Cutting
import TypeBridge.Source.Struct

/-!
# Struct definitions read back

`readStruct?` reads a definition line by line: a pack pragma if there is one, the line with the
name, the lines of the members, the closing line, and behind a pack pragma the one that ends it. A
member is read from its end, because its type may be spelled with blanks, stars and brackets. Of a
definition in which no type text breaks a line, everything is read (`readStruct?_structText`).
-/

namespace TypeBridge.Source

open Text (between? between?_eq_some_iff dropSuffix?_eq_some_iff)

/-- What the definition of a struct tells. -/
structure StructReading where
  name : String
  members : List MemberLine
  packing : Option Nat
deriving Repr, DecidableEq

/-! ## Reading -/

/-- Cut the number of elements from a member; without brackets there is one. -/
def readCount? (declared : List Char) : Option (List Char × Nat) :=
  match declared.dropSuffix? [']'] with
  | none => some (declared, 1)
  | some inner =>
    ((Text.dropTail Char.isDigit inner).dropSuffix? ['[']).map fun front =>
      (front, Nat.ofDigitChars 10 (Text.takeTail Char.isDigit inner) 0)

/-- Read the line of a member. -/
def readMember? (line : List Char) : Option MemberLine := do
  let declared ← between? "    ".toList [';'] line
  let (front, count) ← readCount? declared
  let typeText ← (Text.dropTail isNameRest front).dropSuffix? [' ']
  return ⟨String.ofList (Text.takeTail isNameRest front), String.ofList typeText, count⟩

/-- Read the lines of a struct without its pragmas: its name and its members. -/
def readBody? (lines : List (List Char)) : Option (String × List MemberLine) := do
  let opened ← lines.dropSuffix? ["\x7d;".toList]
  let name ← opened.head?.bind (between? "struct ".toList " \x7b".toList)
  let members ← opened.tail.mapM readMember?
  return (String.ofList name, members)

/-- The line of a pragma that caps alignments. -/
def pushLine (bytes : Nat) : String := "#pragma pack(push, " ++ toString bytes ++ ")"

/-- The line of the pragma that ends the cap. -/
def popLine : String := "#pragma pack(pop)"

/-- Read the number from a pragma that caps alignments. -/
def readPush? (line : List Char) : Option Nat :=
  (between? "#pragma pack(push, ".toList [')'] line).map (Nat.ofDigitChars 10 · 0)

/-- Read the definition of a struct: either both pragmas are there or none. -/
def readStruct? (text : String) : Option StructReading := do
  let lines := Text.pieces (fun c => c = '\n') text.toList
  match lines.head?.bind readPush? with
  | none =>
    let (name, members) ← readBody? lines
    return ⟨name, members, none⟩
  | some bytes =>
    let body ← lines.tail.dropSuffix? [popLine.toList]
    let (name, members) ← readBody? body
    return ⟨name, members, some bytes⟩

/-- The pragmas of a text, in the order of their lines. -/
def pragmas (text : String) : List String :=
  ((Text.pieces (fun c => c = '\n') text.toList).filter fun line => line.head? = some '#').map
    String.ofList

/-! ## Members -/

/-- How the number of elements is shown. -/
def brackets (count : Nat) : List Char :=
  if count > 1 then '[' :: (Nat.toDigits 10 count ++ [']']) else []

/-- The line of a member, without its end. -/
def memberChars (line : MemberLine) : List Char :=
  "    ".toList ++ (line.typeText.toList ++ ' ' :: line.name.toList ++ brackets line.count) ++ [';']

theorem toList_render (line : MemberLine) : line.render.toList = memberChars line ++ ['\n'] := by
  unfold MemberLine.render memberChars brackets
  split <;> simp

/-- A member that is read back: its name is one, its type is spelled on one line, and it has an
element. -/
structure IsPlain (line : MemberLine) : Prop where
  name : isIdentifier line.name
  typeText : '\n' ∉ line.typeText.toList
  count : 0 < line.count

variable {line : MemberLine}

/-- An identifier ends with a character of names. -/
theorem exists_name_concat {name : String} (valid : isIdentifier name) :
    ∃ front c, name.toList = front ++ [c] ∧ isNameRest c = true := by
  cases shape : name.toList using List.reverseRecOn with
  | nil => simp [isIdentifier, shape] at valid
  | append_singleton front c _ =>
      exact ⟨front, c, rfl, RecordTree.isNameRest_of_mem valid (by rw [shape]; simp)⟩

/-- The number of elements is read off the end of a member. -/
theorem readCount?_brackets (front : List Char) {c : Char} {count : Nat} (other : c ≠ ']')
    (positive : 0 < count) :
    readCount? (front ++ [c] ++ brackets count) = some (front ++ [c], count) := by
  unfold brackets
  split
  · have digits : ∀ d ∈ Nat.toDigits 10 count, d.isDigit = true := fun d member =>
      Nat.isDigit_of_mem_toDigits (by decide) (by decide) member
    have closed : (front ++ [c] ++ '[' :: (Nat.toDigits 10 count ++ [']'])).dropSuffix? [']'] =
        some (front ++ [c] ++ '[' :: Nat.toDigits 10 count) :=
      dropSuffix?_eq_some_iff.mpr (by simp)
    obtain ⟨kept, number⟩ := Text.cut_tail (c := '[') (front ++ [c]) (by decide) digits
    rw [readCount?, closed]
    dsimp only
    rw [kept, number, dropSuffix?_eq_some_iff.mpr rfl, Option.map_some,
      Nat.ofDigitChars_ten_toDigits]
  · have single : count = 1 := by omega
    have unclosed : (front ++ [c]).dropSuffix? [']'] = none := by
      refine Option.eq_none_iff_forall_ne_some.mpr fun inner found => other ?_
      have same := dropSuffix?_eq_some_iff.mp found
      simpa using (List.append_inj' same rfl).2
    rw [List.append_nil, readCount?, unclosed, single]

/-- The line of a plain member is read as that member. -/
theorem readMember?_memberChars (plain : IsPlain line) :
    readMember? (memberChars line) = some line := by
  obtain ⟨front, c, shape, inside⟩ := exists_name_concat plain.name
  have other : c ≠ ']' := by
    rintro rfl
    exact absurd inside (by decide)
  have declared : between? "    ".toList [';'] (memberChars line) =
      some (line.typeText.toList ++ ' ' :: line.name.toList ++ brackets line.count) :=
    between?_eq_some_iff.mpr rfl
  have counted :
      readCount? (line.typeText.toList ++ ' ' :: line.name.toList ++ brackets line.count) =
        some (line.typeText.toList ++ ' ' :: line.name.toList, line.count) := by
    have read := readCount?_brackets (line.typeText.toList ++ ' ' :: front) other plain.count
    rwa [List.append_assoc _ (' ' :: front), List.cons_append, ← shape] at read
  obtain ⟨kept, name⟩ := Text.cut_tail (p := isNameRest) (c := ' ') line.typeText.toList
    (by decide) fun d member => RecordTree.isNameRest_of_mem plain.name member
  rw [readMember?, declared]
  simp only [Option.bind_eq_bind, Option.bind_some, counted, kept, name,
    dropSuffix?_eq_some_iff.mpr rfl, Option.pure_def, String.ofList_toList]

/-! ## Lines -/

variable {name : String} {members : List MemberLine}

/-- The lines of a struct without its pragmas. -/
def innerLines (name : String) (members : List MemberLine) : List (List Char) :=
  ("struct " ++ name ++ " \x7b").toList :: members.map memberChars ++ ["\x7d;".toList]

/-- The lines of the definition of a struct. -/
def structLines (name : String) (members : List MemberLine) (packing : Option Nat) :
    List (List Char) :=
  match packNumber packing with
  | some bytes => (pushLine bytes).toList :: innerLines name members ++ [popLine.toList]
  | none => innerLines name members

/-- What holds of the inner lines holds of those of the members and of the two around them. -/
theorem forall_mem_innerLines {holds : List Char → Prop} :
    (∀ text ∈ innerLines name members, holds text) ↔
      holds ("struct " ++ name ++ " \x7b").toList ∧
        (∀ member ∈ members, holds (memberChars member)) ∧ holds "\x7d;".toList := by
  rw [innerLines, List.forall_mem_append, List.forall_mem_cons, List.forall_mem_map,
    List.forall_mem_singleton, and_assoc]

/-- The members are their lines, each ended. -/
theorem toList_join_render (members : List MemberLine) :
    (String.join (members.map MemberLine.render)).toList =
      (members.map memberChars).flatMap (· ++ ['\n']) := by
  rw [String.toList_join, List.flatMap_map, List.flatMap_map]
  exact List.flatMap_congr fun line _ => toList_render line

/-- The text of a struct without its pragmas is its lines, each ended, but for the last end. -/
theorem toList_body (name : String) (members : List MemberLine) :
    ("struct " ++ name ++ " \x7b\n" ++ String.join (members.map MemberLine.render) ++
        "\x7d;").toList =
      (("struct " ++ name ++ " \x7b").toList :: members.map memberChars).flatMap (· ++ ['\n']) ++
        "\x7d;".toList := by
  rw [List.flatMap_cons, ← toList_join_render]
  simp

/-- A definition is its lines. -/
theorem toList_structText (name : String) (members : List MemberLine) (packing : Option Nat) :
    (structText name members packing).toList =
      List.intercalate ['\n'] (structLines name members packing) := by
  unfold structText structLines
  cases packNumber packing with
  | none => exact (toList_body name members).trans (Text.intercalate_ended _ _ _).symm
  | some bytes =>
      have pushed : ("#pragma pack(push, " ++ toString bytes ++ ")\n").toList =
          (pushLine bytes).toList ++ ['\n'] := by
        unfold pushLine
        simp
      have popped : "\n#pragma pack(pop)".toList = ['\n'] ++ popLine.toList := by
        unfold popLine
        simp
      dsimp only
      rw [String.toList_append, String.toList_append, pushed, popped, toList_body,
        Text.intercalate_ended, innerLines]
      simp only [List.flatMap_cons, List.flatMap_append, List.flatMap_nil, List.append_assoc,
        List.append_nil]

theorem toList_pushLine (bytes : Nat) :
    (pushLine bytes).toList = "#pragma pack(push, ".toList ++ Nat.toDigits 10 bytes ++ [')'] := by
  unfold pushLine
  simp

theorem newline_notMem_of_isIdentifier (valid : isIdentifier name) : '\n' ∉ name.toList :=
  fun inside => absurd (RecordTree.isNameRest_of_mem valid inside) (by decide)

theorem newline_notMem_toDigits (count : Nat) : '\n' ∉ Nat.toDigits 10 count :=
  fun inside => absurd (Nat.isDigit_of_mem_toDigits (by decide) (by decide) inside) (by decide)

/-- The line of a plain member is one line. -/
theorem newline_notMem_memberChars (plain : IsPlain line) : '\n' ∉ memberChars line := by
  have shown : '\n' ∉ brackets line.count := by
    unfold brackets
    split
    · simp [newline_notMem_toDigits]
    · simp
  unfold memberChars
  simp [plain.typeText, newline_notMem_of_isIdentifier plain.name, shown]

/-- Every line of a definition is one line. -/
theorem newline_notMem_of_mem_structLines {packing : Option Nat} (valid : isIdentifier name)
    (plain : ∀ member ∈ members, IsPlain member) {text : List Char}
    (member : text ∈ structLines name members packing) : '\n' ∉ text := by
  have inner : ∀ text ∈ innerLines name members, '\n' ∉ text := by
    refine forall_mem_innerLines.mpr ⟨?_, fun member known => ?_, by simp⟩
    · simp [newline_notMem_of_isIdentifier valid]
    · exact newline_notMem_memberChars (plain member known)
  unfold structLines at member
  split at member
  · simp only [List.mem_append, List.mem_cons, List.not_mem_nil, or_false] at member
    rcases member with (rfl | member) | rfl
    · rw [toList_pushLine]
      simp [newline_notMem_toDigits]
    · exact inner text member
    · simp [popLine]
  · exact inner text member

/-- A definition is cut into its lines. -/
theorem pieces_structText {packing : Option Nat} (valid : isIdentifier name)
    (plain : ∀ member ∈ members, IsPlain member) :
    Text.pieces (fun c => c = '\n') (structText name members packing).toList =
      structLines name members packing := by
  rw [toList_structText]
  refine Text.pieces_intercalate ?_ fun _ member =>
    newline_notMem_of_mem_structLines valid plain member
  unfold structLines
  split <;> simp [innerLines]

/-! ## Definitions -/

theorem readPush?_pushLine (bytes : Nat) : readPush? (pushLine bytes).toList = some bytes := by
  rw [readPush?, between?_eq_some_iff.mpr (toList_pushLine bytes), Option.map_some,
    Nat.ofDigitChars_ten_toDigits]

/-- The line with the name is no pragma. -/
theorem readPush?_nameLine (name : String) :
    readPush? ("struct " ++ name ++ " \x7b").toList = none := by
  refine Option.map_eq_none_iff.mpr (Option.eq_none_iff_forall_ne_some.mpr fun inner found => ?_)
  have same := between?_eq_some_iff.mp found
  simp at same

theorem mapM_readMember?_memberChars (plain : ∀ member ∈ members, IsPlain member) :
    (members.map memberChars).mapM readMember? = some members := by
  induction members with
  | nil => rfl
  | cons member rest ih =>
      obtain ⟨first, others⟩ := List.forall_mem_cons.mp plain
      rw [List.map_cons, List.mapM_cons, readMember?_memberChars first, ih others]
      rfl

/-- The lines of a struct without its pragmas are read back. -/
theorem readBody?_innerLines (plain : ∀ member ∈ members, IsPlain member) :
    readBody? (innerLines name members) = some (name, members) := by
  have opened : (innerLines name members).dropSuffix? ["\x7d;".toList] =
      some (("struct " ++ name ++ " \x7b").toList :: members.map memberChars) :=
    dropSuffix?_eq_some_iff.mpr rfl
  have named : between? "struct ".toList " \x7b".toList ("struct " ++ name ++ " \x7b").toList =
      some name.toList :=
    between?_eq_some_iff.mpr (by rw [String.toList_append, String.toList_append])
  rw [readBody?, opened]
  simp only [Option.bind_eq_bind, Option.bind_some, List.head?_cons, List.tail_cons, named,
    mapM_readMember?_memberChars plain, String.ofList_toList, Option.pure_def]

/-- The definition of a struct is read back, whatever its members are. -/
theorem readStruct?_structText (valid : isIdentifier name)
    (plain : ∀ member ∈ members, IsPlain member) (packing : Option Nat) :
    readStruct? (structText name members packing) =
      some ⟨name, members, packNumber packing⟩ := by
  have body : readBody? (innerLines name members) = some (name, members) :=
    readBody?_innerLines plain
  rw [readStruct?, pieces_structText valid plain, structLines]
  cases packNumber packing with
  | none =>
      have first : (innerLines name members).head?.bind readPush? = none := readPush?_nameLine name
      simp only [first, body, Option.bind_eq_bind, Option.bind_some, Option.pure_def]
  | some bytes =>
      have closed : (innerLines name members ++ [popLine.toList]).dropSuffix? [popLine.toList] =
          some (innerLines name members) := dropSuffix?_eq_some_iff.mpr rfl
      simp only [List.cons_append, List.head?_cons, List.tail_cons, Option.bind_some,
        readPush?_pushLine, closed, body, Option.bind_eq_bind, Option.pure_def]

/-- Only pragmas are taken for pragmas. -/
theorem filter_innerLines (name : String) (members : List MemberLine) :
    (innerLines name members).filter (fun line => line.head? = some '#') = [] := by
  refine List.filter_eq_nil_iff.mpr (forall_mem_innerLines.mpr ⟨?_, fun member _ => ?_, ?_⟩)
  · simp
  · unfold memberChars
    simp
  · simp

/-- The pragma that caps alignments and the one that ends the cap are both there or both not, and
there are no others. -/
theorem pragmas_structText (valid : isIdentifier name)
    (plain : ∀ member ∈ members, IsPlain member) (packing : Option Nat) :
    pragmas (structText name members packing) =
      (packNumber packing).elim [] fun bytes => [pushLine bytes, popLine] := by
  have inner := filter_innerLines name members
  rw [pragmas, pieces_structText valid plain, structLines]
  cases packNumber packing with
  | none => simp only [inner, List.map_nil, Option.elim_none]
  | some bytes =>
      have pushed : (pushLine bytes).toList.head? = some '#' := by
        rw [toList_pushLine]
        rfl
      have popped : popLine.toList.head? = some '#' := by decide
      simp only [List.cons_append, List.filter_cons, List.filter_append, pushed, popped, inner,
        decide_true, if_true, List.nil_append, List.filter_nil, List.map_cons, List.map_nil,
        String.ofList_toList, Option.elim_some]

end TypeBridge.Source
