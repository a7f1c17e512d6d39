import TypeBridge.Proofs.Record.Tree

/-!
# Keys are read in one way

The key of a structure holds the keys of nested structures as they are, between braces, and native
names that may hold braces themselves. Still no two trees share a key. A native name that imitates
the start of a nested key ends where the first name in that key ends, and from then on the parts
are out of step: a count stands where a field name or the packing is due, or the other way round.
`key_cut` reads a key off the front of a longer text, and `key_injective` follows.
-/

namespace TypeBridge.RecordTree

/-- The character that ends each part of a key. -/
abbrev nul : Char := Char.ofNat 0

/-- What can follow a key: nothing, or what follows it inside a longer key. -/
def Stops (rest : List Char) : Prop := rest = [] ∨ ∃ more, rest = '\x7d' :: nul :: more

/-- A text that does not start with a digit. -/
def NoDigitFirst (text : List Char) : Prop := ∀ c more, text = c :: more → c.isDigit = false

/-- What follows a key does not start with a digit. -/
theorem Stops.noDigitFirst {rest : List Char} (stops : Stops rest) : NoDigitFirst rest := by
  rintro c more rfl
  rcases stops with none | ⟨inner, some⟩
  · cases none
  · cases some
    decide

section Cuts

variable {α : Type} {front front' rest rest' : List α}

/-- Two texts cut at the first occurrence of a mark have the same parts. -/
theorem cut_at_mark {mark : α} (clean : mark ∉ front) (clean' : mark ∉ front')
    (same : front ++ mark :: rest = front' ++ mark :: rest') : front = front' ∧ rest = rest' := by
  induction front generalizing front' with
  | nil =>
      cases front' with
      | nil => exact ⟨rfl, (List.cons.inj same).2⟩
      | cons first more =>
          have head := (List.cons.inj same).1
          exact absurd (head ▸ List.mem_cons_self) clean'
  | cons first more ih =>
      cases front' with
      | nil =>
          have head := (List.cons.inj same).1
          exact absurd (head ▸ List.mem_cons_self) clean
      | cons first' more' =>
          obtain ⟨rfl, tails⟩ := List.cons.inj same
          obtain ⟨rfl, rests⟩ := ih (fun inside => clean (List.mem_cons_of_mem _ inside))
            (fun inside => clean' (List.mem_cons_of_mem _ inside)) tails
          exact ⟨rfl, rests⟩

/-- Two texts cut where a class of characters ends have the same parts. -/
theorem cut_at_end (inside : α → Bool) (all : ∀ c ∈ front, inside c) (all' : ∀ c ∈ front', inside c)
    (ends : ∀ c more, rest = c :: more → inside c = false)
    (ends' : ∀ c more, rest' = c :: more → inside c = false)
    (same : front ++ rest = front' ++ rest') : front = front' ∧ rest = rest' := by
  induction front generalizing front' with
  | nil =>
      cases front' with
      | nil => exact ⟨rfl, same⟩
      | cons first more =>
          have outside := ends first (more ++ rest') same
          rw [all' first List.mem_cons_self] at outside
          cases outside
  | cons first more ih =>
      cases front' with
      | nil =>
          have outside := ends' first (more ++ rest) same.symm
          rw [all first List.mem_cons_self] at outside
          cases outside
      | cons first' more' =>
          obtain ⟨rfl, tails⟩ := List.cons.inj same
          obtain ⟨rfl, rests⟩ := ih (fun c member => all c (List.mem_cons_of_mem _ member))
            (fun c member => all' c (List.mem_cons_of_mem _ member)) tails
          exact ⟨rfl, rests⟩

end Cuts

/-! ## The parts of a key -/

/-- The digits of a count. -/
def digits (count : Nat) : List Char := (toString count).toList

/-- A count is written in decimal. -/
theorem digits_eq (count : Nat) : digits count = Nat.toDigits 10 count := by
  simp [digits]

/-- Each character of a written count is a digit. -/
theorem isDigit_of_mem_digits {count : Nat} {c : Char} (member : c ∈ digits count) : c.isDigit := by
  rw [digits_eq] at member
  exact Nat.isDigit_of_mem_toDigits (by decide) (by decide) member

/-- A written count has at least one digit. -/
theorem digits_ne_nil (count : Nat) : digits count ≠ [] := by
  rw [digits_eq]
  exact Nat.toDigits_ne_nil

/-- A count starts with a digit. -/
theorem exists_digit_first (count : Nat) : ∃ c more, digits count = c :: more ∧ c.isDigit := by
  cases shape : digits count with
  | nil => exact absurd shape (digits_ne_nil count)
  | cons c more => exact ⟨c, more, rfl, isDigit_of_mem_digits (shape ▸ List.mem_cons_self)⟩

/-- Counts written alike are equal. -/
theorem digits_injective {count count' : Nat} (same : digits count = digits count') :
    count = count' := by
  rw [digits_eq, digits_eq] at same
  rw [← Nat.ofDigitChars_ten_toDigits (n := count), same, Nat.ofDigitChars_ten_toDigits]

/-- A written count has no NUL in it. -/
theorem nul_notMem_digits (count : Nat) : nul ∉ digits count := fun member =>
  absurd (isDigit_of_mem_digits member) (by decide)

/-- An identifier holds letters, digits and underscores only. -/
theorem isNameRest_of_mem {name : String} (valid : isIdentifier name) {c : Char}
    (member : c ∈ name.toList) : isNameRest c := by
  unfold isIdentifier at valid
  split at valid
  · simp_all
  · rename_i first rest shape
    simp only [Bool.and_eq_true, List.all_eq_true] at valid
    rw [shape, List.mem_cons] at member
    rcases member with rfl | later
    · have start := valid.1
      simp only [isNameStart, isNameRest, Char.isAlphanum, Bool.or_eq_true] at start ⊢
      rcases start with letter | line
      · exact Or.inl (Or.inl letter)
      · exact Or.inr line
    · exact valid.2 c later

/-- A letter or an underscore is no digit. -/
theorem isDigit_of_isNameStart {c : Char} (start : isNameStart c) : c.isDigit = false := by
  have letters : c.isAlpha = (decide ('A'.val ≤ c.val ∧ c.val ≤ 'Z'.val) ||
      (decide ('a'.val ≤ c.val) && decide (c.val ≤ 'z'.val))) := rfl
  simp only [isNameStart, letters, Bool.or_eq_true, Bool.and_eq_true, decide_eq_true_eq,
    UInt32.le_iff_toNat_le] at start
  simp only [Char.isDigit, Bool.and_eq_false_iff, decide_eq_false_iff_not, UInt32.le_iff_toNat_le,
    ge_iff_le]
  rcases start with letter | rfl
  · have upper : 'A'.val.toNat = 65 ∧ 'a'.val.toNat = 97 ∧ '9'.val.toNat = 57 := by decide
    omega
  · decide

/-- An identifier starts with no digit. -/
theorem noDigitFirst_of_isIdentifier {name : String} (valid : isIdentifier name)
    (rest : List Char) : NoDigitFirst (name.toList ++ rest) := by
  intro c more shape
  unfold isIdentifier at valid
  split at valid
  · cases valid
  · rename_i first others spelling
    rw [spelling, List.cons_append] at shape
    obtain ⟨rfl, -⟩ := List.cons.inj shape
    simp only [Bool.and_eq_true] at valid
    exact isDigit_of_isNameStart valid.1

/-- An identifier has no NUL in it. -/
theorem nul_notMem_name {name : String} (valid : isIdentifier name) : nul ∉ name.toList :=
  fun member => absurd (isNameRest_of_mem valid member) (by decide)

/-- An identifier has no brace in it. -/
theorem brace_notMem_name {name : String} (valid : isIdentifier name) : '\x7d' ∉ name.toList :=
  fun member => absurd (isNameRest_of_mem valid member) (by decide)

/-- A packing is written without the character that ends parts. -/
theorem nul_notMem_tag (packing : Packing) : nul ∉ packing.tag.toList := by
  cases packing with
  | natural => decide
  | packed bytes =>
      simp only [Packing.tag, String.toList_append, List.mem_append, not_or]
      exact ⟨by decide, nul_notMem_digits bytes⟩

/-- A packing starts with a letter. -/
theorem noDigitFirst_tag (packing : Packing) (rest : List Char) :
    NoDigitFirst (packing.tag.toList ++ rest) := by
  intro c more shape
  cases packing with
  | natural =>
      obtain ⟨rfl, -⟩ := List.cons.inj shape
      decide
  | packed bytes =>
      rw [Packing.tag, String.toList_append, List.append_assoc] at shape
      obtain ⟨rfl, -⟩ := List.cons.inj shape
      decide

/-- A count is read in one way before anything that is no digit. -/
theorem digits_cut {count count' : Nat} {rest rest' : List Char} (stop : NoDigitFirst rest)
    (stop' : NoDigitFirst rest') (same : digits count ++ rest = digits count' ++ rest') :
    count = count' ∧ rest = rest' := by
  obtain ⟨counts, rests⟩ := cut_at_end Char.isDigit
    (fun _ member => isDigit_of_mem_digits member) (fun _ member => isDigit_of_mem_digits member)
    stop stop' same
  exact ⟨digits_injective counts, rests⟩

/-- A count is read in one way before the end of its part. -/
theorem count_cut {count count' : Nat} {rest rest' : List Char}
    (same : digits count ++ nul :: rest = digits count' ++ nul :: rest') :
    count = count' ∧ rest = rest' := by
  obtain ⟨counts, rests⟩ := cut_at_mark (nul_notMem_digits count) (nul_notMem_digits count') same
  exact ⟨digits_injective counts, rests⟩

/-- A packing is read in one way at the end of a key. -/
theorem tag_cut {packing packing' : Packing} {rest rest' : List Char} (stops : Stops rest)
    (stops' : Stops rest') (same : packing.tag.toList ++ rest = packing'.tag.toList ++ rest') :
    packing = packing' ∧ rest = rest' := by
  cases packing with
  | natural =>
      cases packing' with
      | natural => exact ⟨rfl, List.append_cancel_left same⟩
      | packed bytes =>
          rw [Packing.tag, Packing.tag, String.toList_append, List.append_assoc] at same
          cases (List.cons.inj same).1
  | packed bytes =>
      cases packing' with
      | natural =>
          rw [Packing.tag, Packing.tag, String.toList_append, List.append_assoc] at same
          cases (List.cons.inj same).1
      | packed bytes' =>
          simp only [Packing.tag, String.toList_append, List.append_assoc] at same
          obtain ⟨rfl, rests⟩ := digits_cut stops.noDigitFirst stops'.noDigitFirst
            (List.append_cancel_left same)
          exact ⟨rfl, rests⟩

/-! ## Whole keys -/

/-- A field's text, cut at the ends of its three parts. -/
theorem toList_fieldsKey_cons (name : String) (member : MemberTree) (count : Nat)
    (rest : List FieldTree) (after : List Char) :
    (fieldsKey (.mk name member count :: rest)).toList ++ after =
      name.toList ++ nul :: ((memberKey member).toList ++ nul ::
        (digits count ++ nul :: ((fieldsKey rest).toList ++ after))) := by
  simp [fieldsKey, Catalogue.fieldKey, Catalogue.keyEnd, digits, nul]

/-- The characters of a key are those of its fields and then those of the packing tag. -/
theorem toList_key (fields : List FieldTree) (packing : Packing) (after : List Char) :
    (key (.mk fields packing)).toList ++ after =
      (fieldsKey fields).toList ++ (packing.tag.toList ++ after) := by
  simp [key]

/-- A nested key stands in braces. -/
theorem toList_memberKey_record (tree : RecordTree) (after : List Char) :
    (memberKey (.record tree)).toList ++ after =
      '\x7b' :: (tree.key.toList ++ '\x7d' :: after) := by
  simp [memberKey]

/-- A star sets the key behind a pointer apart. -/
theorem toList_memberKey_pointer (tree : RecordTree) (after : List Char) :
    (memberKey (.pointer tree)).toList ++ after =
      '*' :: '\x7b' :: (tree.key.toList ++ '\x7d' :: after) := by
  simp [memberKey]

/-- What follows a count is no digit: the next field or the packing. -/
theorem noDigitFirst_fieldsKey {fields : List FieldTree} (readable : FieldsReadable fields)
    (packing : Packing) (after : List Char) :
    NoDigitFirst ((fieldsKey fields).toList ++ (packing.tag.toList ++ after)) := by
  cases fields with
  | nil => exact noDigitFirst_tag packing after
  | cons field rest =>
      obtain ⟨name, member, count⟩ := field
      rw [toList_fieldsKey_cons]
      exact noDigitFirst_of_isIdentifier readable.1 _

/-- A packing inside a longer key, or at its end, is no field. -/
theorem tag_ne_field {name : String} (valid : isIdentifier name) (packing : Packing)
    {rest after : List Char} (stops : Stops after) :
    packing.tag.toList ++ after ≠ name.toList ++ nul :: rest := by
  intro same
  rcases stops with rfl | ⟨more, rfl⟩
  · apply nul_notMem_tag packing
    rw [List.append_nil] at same
    simp [same]
  · have clean : nul ∉ packing.tag.toList ++ ['\x7d'] := by
      simp only [List.mem_append, List.mem_singleton, not_or]
      exact ⟨nul_notMem_tag packing, by decide⟩
    have front : packing.tag.toList ++ ['\x7d'] = name.toList :=
      (cut_at_mark clean (nul_notMem_name valid) (by simpa using same)).1
    apply brace_notMem_name valid
    simp [← front]

/-- A native name is no nested key, whatever it starts with: the part behind it would have to be a
count and the part behind that no count, but in a nested key it is the other way round. -/
theorem scalar_ne_nested {native : String} (clean : nul ∉ native.toList) {tree : RecordTree}
    (readable : Readable tree) (opening : List Char) (opens : nul ∉ opening) {count : Nat}
    {rest after : List Char} (stop : NoDigitFirst rest) :
    native.toList ++ nul :: (digits count ++ nul :: rest) ≠
      opening ++ (tree.key.toList ++ after) := by
  intro same
  obtain ⟨fields, packing⟩ := tree
  cases fields with
  | nil => exact readable.1 rfl
  | cons field others =>
      obtain ⟨name, member, count'⟩ := field
      obtain ⟨-, valid, memberReadable, -⟩ := readable
      rw [toList_key, toList_fieldsKey_cons, ← List.append_assoc] at same
      have openingClean : nul ∉ opening ++ name.toList := by
        simp only [List.mem_append, not_or]
        exact ⟨opens, nul_notMem_name valid⟩
      obtain ⟨-, inner⟩ := cut_at_mark clean openingClean same
      obtain ⟨digit, moreDigits, shape, isDigit⟩ := exists_digit_first count
      cases member with
      | scalar inside =>
          -- The count would be the native name, and a count would follow where none can.
          obtain ⟨-, behind⟩ := cut_at_mark (nul_notMem_digits count) memberReadable inner
          obtain ⟨digit', moreDigits', shape', isDigit'⟩ := exists_digit_first count'
          have noDigit := stop digit' _ (by rw [behind, shape', List.cons_append])
          rw [isDigit'] at noDigit
          cases noDigit
      | record inside =>
          -- The count would start with a brace.
          rw [shape, List.cons_append, toList_memberKey_record] at inner
          rw [(List.cons.inj inner).1] at isDigit
          exact absurd isDigit (by decide)
      | pointer inside =>
          rw [shape, List.cons_append, toList_memberKey_pointer] at inner
          rw [(List.cons.inj inner).1] at isDigit
          exact absurd isDigit (by decide)

mutual

/-- A key is read in one way off the front of a text: tree and rest are determined. -/
theorem key_cut : (tree tree' : RecordTree) → Readable tree → Readable tree' →
    ∀ rest rest', Stops rest → Stops rest' →
      tree.key.toList ++ rest = tree'.key.toList ++ rest' → tree = tree' ∧ rest = rest'
  | .mk fields packing, .mk fields' packing', readable, readable', rest, rest', stops, stops',
      same => by
    rw [toList_key, toList_key] at same
    obtain ⟨rfl, rfl, rests⟩ := fieldsKey_cut fields fields' readable.2 readable'.2 packing
      packing' rest rest' stops stops' same
    exact ⟨rfl, rests⟩

/-- The fields of a key are read in one way, and so is the packing behind them. -/
theorem fieldsKey_cut : (fields fields' : List FieldTree) → FieldsReadable fields →
    FieldsReadable fields' → ∀ (packing packing' : Packing) rest rest', Stops rest → Stops rest' →
      (fieldsKey fields).toList ++ (packing.tag.toList ++ rest) =
        (fieldsKey fields').toList ++ (packing'.tag.toList ++ rest') →
      fields = fields' ∧ packing = packing' ∧ rest = rest'
  | [], [], _, _, packing, packing', rest, rest', stops, stops', same => by
    obtain ⟨rfl, rests⟩ := tag_cut stops stops' same
    exact ⟨rfl, rfl, rests⟩
  | [], .mk name member count :: others, _, readable', packing, packing', rest, rest', stops, _,
      same => by
    rw [toList_fieldsKey_cons] at same
    exact absurd same (tag_ne_field readable'.1 packing stops)
  | .mk name member count :: others, [], readable, _, packing, packing', rest, rest', _, stops',
      same => by
    rw [toList_fieldsKey_cons] at same
    exact absurd same.symm (tag_ne_field readable.1 packing' stops')
  | .mk name member count :: others, .mk name' member' count' :: others', readable, readable',
      packing, packing', rest, rest', stops, stops', same => by
    rw [toList_fieldsKey_cons, toList_fieldsKey_cons] at same
    obtain ⟨valid, memberReadable, othersReadable⟩ := readable
    obtain ⟨valid', memberReadable', othersReadable'⟩ := readable'
    obtain ⟨names, behindName⟩ := cut_at_mark (nul_notMem_name valid) (nul_notMem_name valid') same
    obtain ⟨rfl, rfl, behindCount⟩ := memberKey_cut member member' memberReadable
      memberReadable' count count' _ _ (noDigitFirst_fieldsKey othersReadable packing rest)
      (noDigitFirst_fieldsKey othersReadable' packing' rest') behindName
    obtain ⟨rfl, rfl, rests⟩ := fieldsKey_cut others others' othersReadable othersReadable'
      packing packing' rest rest' stops stops' behindCount
    rw [String.toList_inj] at names
    exact ⟨by rw [names], rfl, rests⟩

/-- What a field holds is read in one way, and so is the count behind it. -/
theorem memberKey_cut : (member member' : MemberTree) → MemberReadable member →
    MemberReadable member' → ∀ (count count' : Nat) rest rest', NoDigitFirst rest →
      NoDigitFirst rest' →
      (memberKey member).toList ++ nul :: (digits count ++ nul :: rest) =
        (memberKey member').toList ++ nul :: (digits count' ++ nul :: rest') →
      member = member' ∧ count = count' ∧ rest = rest'
  | .scalar native, .scalar native', clean, clean', count, count', rest, rest', _, _, same => by
    obtain ⟨natives, behind⟩ := cut_at_mark clean clean' same
    obtain ⟨rfl, rests⟩ := count_cut behind
    rw [String.toList_inj] at natives
    exact ⟨by rw [natives], rfl, rests⟩
  | .scalar native, .record tree, clean, readable, count, count', rest, rest', stop, _, same => by
    rw [toList_memberKey_record] at same
    exact absurd same (scalar_ne_nested clean readable ['\x7b'] (by decide) stop)
  | .scalar native, .pointer tree, clean, readable, count, count', rest, rest', stop, _, same => by
    rw [toList_memberKey_pointer] at same
    exact absurd same (scalar_ne_nested clean readable ['*', '\x7b'] (by decide) stop)
  | .record tree, .scalar native, readable, clean, count, count', rest, rest', _, stop, same => by
    rw [toList_memberKey_record] at same
    exact absurd same.symm (scalar_ne_nested clean readable ['\x7b'] (by decide) stop)
  | .pointer tree, .scalar native, readable, clean, count, count', rest, rest', _, stop, same => by
    rw [toList_memberKey_pointer] at same
    exact absurd same.symm
      (scalar_ne_nested clean readable ['*', '\x7b'] (by decide) stop)
  | .record tree, .record tree', readable, readable', count, count', rest, rest', _, _, same => by
    rw [toList_memberKey_record, toList_memberKey_record] at same
    obtain ⟨rfl, rests⟩ := key_cut tree tree' readable readable' _ _ (Or.inr ⟨_, rfl⟩)
      (Or.inr ⟨_, rfl⟩) (List.cons.inj same).2
    obtain ⟨rfl, behind⟩ := count_cut (List.cons.inj (List.cons.inj rests).2).2
    exact ⟨rfl, rfl, behind⟩
  | .pointer tree, .pointer tree', readable, readable', count, count', rest, rest', _, _, same => by
    rw [toList_memberKey_pointer, toList_memberKey_pointer] at same
    obtain ⟨rfl, rests⟩ := key_cut tree tree' readable readable' _ _ (Or.inr ⟨_, rfl⟩)
      (Or.inr ⟨_, rfl⟩) (List.cons.inj (List.cons.inj same).2).2
    obtain ⟨rfl, behind⟩ := count_cut (List.cons.inj (List.cons.inj rests).2).2
    exact ⟨rfl, rfl, behind⟩
  | .record tree, .pointer tree', _, _, _, _, _, _, _, _, same => by
    rw [toList_memberKey_record, toList_memberKey_pointer] at same
    exact absurd (List.cons.inj same).1 (by decide)
  | .pointer tree, .record tree', _, _, _, _, _, _, _, _, same => by
    rw [toList_memberKey_record, toList_memberKey_pointer] at same
    exact absurd (List.cons.inj same).1 (by decide)

end

/-- No two trees that can be written share a key. -/
theorem key_injective {tree tree' : RecordTree} (readable : Readable tree)
    (readable' : Readable tree') (same : tree.key = tree'.key) : tree = tree' :=
  (key_cut tree tree' readable readable' [] [] (Or.inl rfl) (Or.inl rfl) (by rw [same])).1

end TypeBridge.RecordTree
