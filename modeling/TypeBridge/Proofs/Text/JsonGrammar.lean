import Mathlib.Computability.Language
import Mathlib.Data.List.DropRight
import TypeBridge.Text.Json

/-!
# The grammar of JSON texts

The tokens of JSON as languages, and the readers of `Json.Reader` as what takes them from the front
of a text: a reader answers exactly if the text starts with a token of its language, and leaves what
stands behind that token (`expect_eq_some_iff`, `stringLiteral_eq_some_iff`,
`choiceLiteral_eq_some_iff`, `naturalLiteral_eq_some_iff`). Blanks in front belong to a token.
-/

namespace TypeBridge.Text.Json

open Reader

variable {l m : Language Char} {text rest middle word digits : List Char} {c : Char} {n : Nat}

/-! ## Texts that start with a text of a language -/

/-- A text starts with one of a language, and the rest stands behind it. -/
def Leads (language : Language Char) (text rest : List Char) : Prop :=
  ∃ front ∈ language, front ++ rest = text

/-- A text starts with a fixed text if the rest is what stands behind that. -/
theorem leads_singleton : Leads {word} text rest ↔ word ++ rest = text := by
  constructor
  · rintro ⟨_, rfl, same⟩
    exact same
  · exact fun same => ⟨word, rfl, same⟩

/-- A text starts with one of two languages in a row if the rest of the first starts with one of the
second. -/
theorem leads_mul :
    Leads (l * m) text rest ↔ ∃ middle, Leads l text middle ∧ Leads m middle rest := by
  constructor
  · rintro ⟨_, ⟨first, inFirst, second, inSecond, rfl⟩, rfl⟩
    exact ⟨second ++ rest, ⟨first, inFirst, (List.append_assoc ..).symm⟩, second, inSecond, rfl⟩
  · rintro ⟨_, ⟨first, inFirst, rfl⟩, second, inSecond, rfl⟩
    exact ⟨first ++ second, ⟨first, inFirst, second, inSecond, rfl⟩, List.append_assoc ..⟩

/-- A text starts with one of either language if it starts with one of the two. -/
theorem leads_add : Leads (l + m) text rest ↔ Leads l text rest ∨ Leads m text rest := by
  constructor
  · rintro ⟨front, inLeft | inRight, same⟩
    · exact .inl ⟨front, inLeft, same⟩
    · exact .inr ⟨front, inRight, same⟩
  · rintro (⟨front, inside, same⟩ | ⟨front, inside, same⟩)
    · exact ⟨front, .inl inside, same⟩
    · exact ⟨front, .inr inside, same⟩

/-- A text with nothing behind it is one of the language itself. -/
theorem leads_nil : Leads l text [] ↔ text ∈ l := by
  constructor
  · rintro ⟨front, inside, rfl⟩
    rwa [List.append_nil]
  · exact fun inside => ⟨text, inside, List.append_nil text⟩

/-- What stands behind is no longer than the text. -/
theorem Leads.length_le (leads : Leads l text rest) : rest.length ≤ text.length := by
  obtain ⟨front, -, rfl⟩ := leads
  rw [List.length_append]
  exact Nat.le_add_left ..

/-! ## Blanks and marks -/

/-- Blanks, as many as one likes. -/
def gap : Language Char := {text | ∀ c ∈ text, isGap c}

/-- A fixed word, after any blanks. -/
def token (word : List Char) : Language Char := gap * {word}

/-- A fixed character, after any blanks. -/
def mark (c : Char) : Language Char := token [c]

/-- Nothing is left behind the blanks exactly if there are only blanks. -/
theorem skipGap_eq_nil_iff : skipGap text = [] ↔ text ∈ gap := List.dropWhile_eq_nil_iff

/-- Whether a text starts with a character that is no blank. -/
def IsSolid (text : List Char) : Prop := text.head?.map isGap = some false

instance : Decidable (IsSolid text) := inferInstanceAs (Decidable (_ = _))

/-- A fixed word may stand after any blanks. -/
theorem mem_token {lead : List Char} (blank : lead ∈ gap) (word : List Char) :
    lead ++ word ∈ token word :=
  Language.append_mem_mul blank rfl

/-- Skipping stops at the first character that is no blank. -/
theorem skipGap_append_solid {lead : List Char} (blank : lead ∈ gap) (solid : IsSolid word) :
    skipGap (lead ++ (word ++ rest)) = word ++ rest := by
  cases word with
  | nil => cases solid
  | cons c word =>
      rw [skipGap, List.dropWhile_append_of_pos blank, List.cons_append,
        List.dropWhile_cons_of_neg (by simpa [IsSolid] using solid)]

/-- A token that is solid leads a text if its word stands behind the blanks of that text. -/
theorem leads_token (solid : IsSolid word) :
    Leads (token word) text rest ↔ skipGap text = word ++ rest := by
  constructor
  · rintro ⟨_, ⟨lead, blank, _, rfl, rfl⟩, rfl⟩
    rw [List.append_assoc]
    exact skipGap_append_solid blank solid
  · intro same
    refine ⟨text.takeWhile isGap ++ word, ⟨_, fun d member => ?_, _, rfl, rfl⟩, ?_⟩
    · exact List.mem_takeWhile_imp member
    · rw [List.append_assoc, ← same, skipGap, List.takeWhile_append_dropWhile]

/-- A character is read exactly where it stands after any blanks. -/
theorem expect_eq_some_iff (solid : IsSolid [c]) :
    expect c text = some rest ↔ Leads (mark c) text rest := by
  rw [mark, leads_token solid, expect]
  split
  · rename_i same
    simp [same]
  · rename_i first others same
    by_cases first = c <;> simp_all

/-- A mark takes up at least its own character. -/
theorem Leads.length_lt (leads : Leads (mark c) text rest) : rest.length < text.length := by
  obtain ⟨_, ⟨lead, -, _, rfl, rfl⟩, rfl⟩ := leads
  simp only [List.length_append, List.length_singleton]
  omega

/-- A text that starts with one mark starts with no other. -/
theorem expect_eq_none {other : Char} (solid : IsSolid [other]) (differ : other ≠ c)
    (leads : Leads (mark other) text rest) : expect c text = none := by
  rw [expect, (leads_token solid).mp leads]
  exact if_neg differ

/-- A word is read exactly where it stands after any blanks. -/
theorem expectWord_eq_some_iff (solid : IsSolid word) :
    expectWord word text = some rest ↔ Leads (token word) text rest := by
  rw [leads_token solid, expectWord]
  simp only [List.isPrefixOf_iff_prefix]
  constructor
  · intro read
    split at read
    · rename_i starts
      obtain ⟨more, same⟩ := starts
      rw [← same, List.drop_left] at read
      rw [← same, Option.some.inj read]
    · cases read
  · intro same
    rw [same, if_pos (List.prefix_append ..), List.drop_left]

/-! ## String literals -/

/-- How a character may be spelled in a string literal. -/
inductive Spells (c : Char) : List Char → Prop where
  | plain (visible : 0x20 ≤ c.toNat) (unquoted : c ≠ '"') (unescaped : c ≠ '\\') : Spells c [c]
  | letter {letter : Char} (escape : escaped? letter = some c) : Spells c ['\\', letter]
  | code {d₁ d₂ d₃ d₄ : Char} (value : hexValue4? d₁ d₂ d₃ d₄ = some c.toNat) :
      Spells c ['\\', 'u', d₁, d₂, d₃, d₄]
  | pair {d₁ d₂ d₃ d₄ e₁ e₂ e₃ e₄ : Char} {high low : Nat}
      (first : hexValue4? d₁ d₂ d₃ d₄ = some high) (isHigh : isHighSurrogate high)
      (second : hexValue4? e₁ e₂ e₃ e₄ = some low) (isLow : isLowSurrogate low)
      (value : joinSurrogates high low = c.toNat) :
      Spells c ['\\', 'u', d₁, d₂, d₃, d₄, '\\', 'u', e₁, e₂, e₃, e₄]

/-- The spellings of a character. -/
def character (c : Char) : Language Char := {spelling | Spells c spelling}

/-- The spellings of some characters with a quote behind them. -/
def closed : List Char → Language Char
  | [] => {['"']}
  | c :: content => character c * closed content

/-- The string literals of a text. -/
def quoted (content : String) : Language Char := mark '"' * closed content.toList

/-- The ways to write a word of a fixed choice: as a string literal, or as an object with the word
as its only key and null as the value. -/
def choice (word : String) : Language Char :=
  quoted word + mark '\x7b' * quoted word * mark ':' * token "null".toList * mark '\x7d'

/-- A number in decimal digits, after any blanks. -/
def numeral (n : Nat) : Language Char := token (Nat.toDigits 10 n)

/-- A hexadecimal digit is worth less than sixteen. -/
theorem value?_lt (value : Hex.value? c = some n) : n < 0x10 := by
  simp only [Hex.value?, Char.le_def, UInt32.le_iff_toNat_le] at value
  have digit : c.toNat = c.val.toNat := rfl
  have bounds : '9'.val.toNat = 0x39 ∧ 'f'.val.toNat = 0x66 ∧ 'F'.val.toNat = 0x46 :=
    ⟨rfl, rfl, rfl⟩
  split at value
  · cases value
    omega
  · split at value
    · cases value
      omega
    · split at value
      · cases value
        omega
      · cases value

/-- Four hexadecimal digits are worth less than the sixteenth power of two. -/
theorem hexValue4?_lt {d₁ d₂ d₃ d₄ : Char} (value : hexValue4? d₁ d₂ d₃ d₄ = some n) :
    n < 0x10000 := by
  simp only [hexValue4?, Option.bind_eq_bind, Option.bind_eq_some_iff, Option.pure_def,
    Option.some.injEq] at value
  obtain ⟨v₁, first, v₂, second, v₃, third, v₄, fourth, rfl⟩ := value
  have := value?_lt first
  have := value?_lt second
  have := value?_lt third
  have := value?_lt fourth
  omega

/-- No character is half of a surrogate pair. -/
theorem not_isSurrogate (c : Char) : ¬ isHighSurrogate c.toNat ∧ ¬ isLowSurrogate c.toNat := by
  have valid : c.toNat < 0xD800 ∨ 0xDFFF < c.toNat ∧ c.toNat < 0x110000 := c.valid
  simp only [isHighSurrogate, isLowSurrogate, Bool.and_eq_true, decide_eq_true_eq]
  omega

/-- A code that is one of a character is the code of its character. -/
theorem toNat_ofNat (valid : n.isValidChar) : (Char.ofNat n).toNat = n := by
  rw [Char.ofNat, dif_pos valid]
  rfl

/-- Four digits that are no surrogate are the code of a character. -/
theorem toNat_ofNat_code (small : n < 0x10000) (noHigh : ¬ isHighSurrogate n)
    (noLow : ¬ isLowSurrogate n) : (Char.ofNat n).toNat = n := by
  simp only [isHighSurrogate, isLowSurrogate, Bool.and_eq_true, decide_eq_true_eq] at noHigh noLow
  refine toNat_ofNat ?_
  unfold Nat.isValidChar
  omega

/-- Two surrogates in a row are joined to the code of a character. -/
theorem toNat_ofNat_pair {high low : Nat} (isHigh : isHighSurrogate high)
    (isLow : isLowSurrogate low) :
    (Char.ofNat (joinSurrogates high low)).toNat = joinSurrogates high low := by
  simp only [isHighSurrogate, isLowSurrogate, Bool.and_eq_true, decide_eq_true_eq] at isHigh isLow
  refine toNat_ofNat ?_
  unfold Nat.isValidChar joinSurrogates
  omega

/-- A spelled character is read as that character. -/
theorem stringBody_append {spelling : List Char} (spells : Spells c spelling) (rest : List Char) :
    stringBody (spelling ++ rest) =
      (stringBody rest).map fun (body, after) => (c :: body, after) := by
  cases spells with
  | plain visible unquoted unescaped =>
      rw [List.singleton_append, stringBody, if_neg (by simp [unescaped, visible])]
      · exact unquoted
      · exact fun _ _ _ _ _ escape _ => unescaped escape
      · exact fun _ _ escape _ => unescaped escape
  | letter escape =>
      simp only [List.cons_append, List.nil_append]
      rw [stringBody, escape]
      rintro _ _ _ _ _ rfl -
      cases escape
  | code value =>
      obtain ⟨noHigh, noLow⟩ := not_isSurrogate c
      simp only [List.cons_append, List.nil_append]
      rw [stringBody, value]
      simp only [if_neg noHigh, if_neg noLow, Char.ofNat_toNat]
  | pair first isHigh second isLow value =>
      simp only [List.cons_append, List.nil_append]
      rw [stringBody, first]
      simp only [if_pos isHigh, second, if_pos isLow, value, Char.ofNat_toNat]

/-- A spelled character stands before what is read behind it. -/
theorem leads_spelled {spelling tail content : List Char} (spells : Spells c spelling)
    (behind : ∀ {content}, stringBody tail = some (content, rest) →
      Leads (closed content) tail rest)
    (read : ((stringBody tail).map fun (body, after) => (c :: body, after)) =
      some (content, rest)) :
    Leads (closed content) (spelling ++ tail) rest := by
  obtain ⟨⟨body, after⟩, later, same⟩ := Option.map_eq_some_iff.mp read
  cases same
  exact leads_mul.mpr ⟨tail, ⟨spelling, spells, rfl⟩, behind later⟩

/-- What is read of a string literal, up to its closing quote, is spelled in the text. -/
theorem leads_of_stringBody {content : List Char} (read : stringBody text = some (content, rest)) :
    Leads (closed content) text rest := by
  fun_induction stringBody text generalizing content with
  | case1 => cases read
  | case2 =>
      cases read
      exact leads_singleton.mpr rfl
  | case5 _ _ _ _ _ first isHigh _ _ _ _ _ _ second isLow ih =>
      exact leads_spelled
        (.pair first isHigh second isLow (toNat_ofNat_pair isHigh isLow).symm) ih read
  | case9 _ _ _ _ more _ value noHigh noLow ih =>
      refine leads_spelled (.code ?_) ih read
      rw [toNat_ofNat_code (hexValue4?_lt value) noHigh noLow, value]
  | case11 letter more _ c escape ih => exact leads_spelled (.letter escape) ih read
  | case13 c more unquoted _ _ visible ih =>
      rw [not_or, Nat.not_lt] at visible
      exact leads_spelled (.plain visible.1 unquoted visible.2) ih read
  -- In all other cases the text is refused.
  | _ => cases read

/-- The body of a string literal is read exactly where one of its spellings stands. -/
theorem stringBody_eq_some_iff {content : List Char} : stringBody text = some (content, rest) ↔
    Leads (closed content) text rest := by
  refine ⟨leads_of_stringBody, fun leads => ?_⟩
  induction content generalizing text with
  | nil =>
      rw [← leads_singleton.mp leads]
      rfl
  | cons c content ih =>
      obtain ⟨middle, ⟨spelling, spells, rfl⟩, later⟩ := leads_mul.mp leads
      rw [stringBody_append spells, ih later]
      rfl

/-- A string literal is read exactly where one of its spellings stands. -/
theorem stringLiteral_eq_some_iff {content : String} :
    stringLiteral text = some (content, rest) ↔ Leads (quoted content) text rest := by
  rw [quoted, leads_mul]
  simp only [stringLiteral, Option.bind_eq_bind, Option.bind_eq_some_iff]
  constructor
  · rintro ⟨middle, opened, ⟨body, after⟩, read, same⟩
    cases same
    rw [String.toList_ofList]
    exact ⟨middle, (expect_eq_some_iff (by decide)).mp opened, stringBody_eq_some_iff.mp read⟩
  · rintro ⟨middle, opened, read⟩
    refine ⟨middle, (expect_eq_some_iff (by decide)).mpr opened, (content.toList, rest),
      stringBody_eq_some_iff.mpr read, ?_⟩
    rw [String.ofList_toList]
    rfl

/-- A text that may stand in a string literal as it is. -/
def IsPlain (text : String) : Prop := ∀ c ∈ text.toList, 0x20 ≤ c.toNat ∧ c ≠ '"' ∧ c ≠ '\\'

instance : DecidablePred IsPlain := fun text => List.decidableBAll _ text.toList

/-- Characters that need no escape may stand in a literal as they are. -/
theorem mem_closed {content : List Char}
    (plain : ∀ c ∈ content, 0x20 ≤ c.toNat ∧ c ≠ '"' ∧ c ≠ '\\') :
    content ++ ['"'] ∈ closed content := by
  induction content with
  | nil => exact rfl
  | cons c content ih =>
      obtain ⟨⟨visible, unquoted, unescaped⟩, later⟩ := List.forall_mem_cons.mp plain
      exact ⟨[c], .plain visible unquoted unescaped, content ++ ['"'], ih later, rfl⟩

/-- A plain text between quotes is a literal of itself. -/
theorem mem_quoted {lead : List Char} {content : String} (blank : lead ∈ gap)
    (plain : IsPlain content) : lead ++ ['"'] ++ (content.toList ++ ['"']) ∈ quoted content :=
  Language.append_mem_mul (mem_token blank _) (mem_closed plain)

/-! ## Words of a fixed choice -/

/-- A string literal does not start like an object. -/
theorem expect_quoted {content : String} (leads : Leads (quoted content) text rest) :
    expect '\x7b' text = none := by
  obtain ⟨middle, opened, -⟩ := leads_mul.mp leads
  exact expect_eq_none (by decide) (by decide) opened

/-- A word of a fixed choice is read exactly where one of its two forms stands. -/
theorem choiceLiteral_eq_some_iff {content : String} :
    choiceLiteral text = some (content, rest) ↔ Leads (choice content) text rest := by
  rw [choice, leads_add]
  constructor
  · intro read
    unfold choiceLiteral at read
    split at read
    · exact .inl (stringLiteral_eq_some_iff.mp read)
    · rename_i body opened
      simp only [Option.bind_eq_bind, Option.bind_eq_some_iff] at read
      obtain ⟨⟨word, t₁⟩, key, t₂, colon, t₃, null, t₄, closed, same⟩ := read
      cases same
      refine .inr ?_
      simp only [mul_assoc, leads_mul]
      exact ⟨body, (expect_eq_some_iff (by decide)).mp opened, t₁,
        stringLiteral_eq_some_iff.mp key, t₂, (expect_eq_some_iff (by decide)).mp colon, t₃,
        (expectWord_eq_some_iff (by decide)).mp null, (expect_eq_some_iff (by decide)).mp closed⟩
  · rintro (leads | leads)
    · rw [choiceLiteral, expect_quoted leads]
      exact stringLiteral_eq_some_iff.mpr leads
    · simp only [mul_assoc, leads_mul] at leads
      obtain ⟨body, opened, t₁, key, t₂, colon, t₃, null, closed⟩ := leads
      rw [choiceLiteral, (expect_eq_some_iff (by decide)).mpr opened]
      simp only [Option.bind_eq_bind, Option.bind_eq_some_iff]
      exact ⟨(content, t₁), stringLiteral_eq_some_iff.mpr key, t₂,
        (expect_eq_some_iff (by decide)).mpr colon, t₃,
        (expectWord_eq_some_iff (by decide)).mpr null, rest,
        (expect_eq_some_iff (by decide)).mpr closed, rfl⟩

/-! ## Numbers -/

theorem digitsValue_append (digits : List Char) (c : Char) :
    digitsValue (digits ++ [c]) = digitsValue digits * 10 + (c.toNat - 0x30) := by
  rw [digitsValue, List.foldl_append]
  rfl

/-- A number is what its decimal digits are worth. -/
theorem digitsValue_toDigits (n : Nat) : digitsValue (Nat.toDigits 10 n) = n := by
  have same := Nat.ofDigitChars_ten_toDigits (n := n)
  rw [Nat.ofDigitChars_eq_foldl] at same
  simpa [digitsValue, Nat.mul_comm] using same

/-- A digit is the one of its value. -/
theorem toDigits_digit (digit : c.isDigit) :
    c.toNat - 0x30 < 10 ∧ Nat.toDigits 10 (c.toNat - 0x30) = [c] := by
  have bounds : 0x30 ≤ c.toNat ∧ c.toNat ≤ 0x39 := Char.isDigit_iff_toNat.mp digit
  have small : c.toNat - 0x30 < 10 := by omega
  refine ⟨small, ?_⟩
  rw [Nat.toDigits_of_lt_base small, List.singleton_inj]
  refine Char.toNat_inj.mp ?_
  rw [Nat.toNat_digitChar_of_lt_ten small]
  omega

/-- Digits of which the first is not needlessly zero are those of their value. -/
theorem toDigits_digitsValue (digits : List Char) (all : ∀ c ∈ digits, c.isDigit)
    (some : digits ≠ []) (noZero : ∀ c more, digits ≠ '0' :: c :: more) :
    Nat.toDigits 10 (digitsValue digits) = digits := by
  induction digits using List.reverseRecOn with
  | nil => exact absurd rfl some
  | append_singleton digits c ih =>
      obtain ⟨small, last⟩ := toDigits_digit (all c (by simp))
      rw [digitsValue_append]
      cases digits with
      | nil =>
          rw [show digitsValue [] = 0 from rfl, Nat.zero_mul, Nat.zero_add, last, List.nil_append]
      | cons d digits =>
          have before := ih (fun c member => all c (List.mem_append_left _ member)) nofun
            fun e more same => noZero e (more ++ [c]) (by rw [same]; rfl)
          have positive : 0 < digitsValue (d :: digits) := by
            refine Nat.pos_of_ne_zero fun zero => ?_
            rw [zero, Nat.toDigits_zero] at before
            cases before
            exact noZero c [] rfl
          rw [Nat.mul_comm, ← Nat.toDigits_append_toDigits (by decide) positive small, before, last]

/-- No number of several digits is written with a zero in front. -/
theorem toDigits_ne_zero_cons (n : Nat) (more : List Char) :
    Nat.toDigits 10 n ≠ '0' :: c :: more := by
  induction n using Nat.strongRecOn generalizing c more with
  | ind n ih =>
      intro same
      by_cases small : n < 10
      · rw [Nat.toDigits_of_lt_base small] at same
        cases congrArg List.length same
      · rw [Nat.toDigits_of_base_le (by decide) (by omega)] at same
        cases front : Nat.toDigits 10 (n / 10) with
        | nil => exact Nat.toDigits_ne_nil front
        | cons d others =>
            rw [front, List.cons_append] at same
            obtain ⟨rfl, -⟩ := List.cons.inj same
            cases others with
            | nil =>
                have zero := digitsValue_toDigits (n / 10)
                rw [front, show digitsValue ['0'] = 0 from rfl] at zero
                omega
            | cons e others => exact ih (n / 10) (by omega) others front

/-- The digits of a number are digits. -/
theorem isDigit_of_mem_toDigits : ∀ c ∈ Nat.toDigits 10 n, c.isDigit :=
  fun _ member => Nat.isDigit_of_mem_toDigits (by decide) (by decide) member

theorem not_isGap_of_isDigit (digit : c.isDigit) : isGap c = false := by
  refine Bool.eq_false_iff.mpr fun blank => ?_
  have cases : ((c = ' ' ∨ c = '\n') ∨ c = '\t') ∨ c = '\r' := by simpa [isGap] using blank
  rcases cases with ((rfl | rfl) | rfl) | rfl <;> cases digit

/-- A numeral starts with a digit, which is no blank. -/
theorem isSolid_toDigits (n : Nat) : IsSolid (Nat.toDigits 10 n) := by
  cases digits : Nat.toDigits 10 n with
  | nil => exact absurd digits Nat.toDigits_ne_nil
  | cons c more =>
      have digit := isDigit_of_mem_toDigits c (digits ▸ List.mem_cons_self)
      exact congrArg some (not_isGap_of_isDigit digit)

/-- A number is read up to a character that is no digit. -/
theorem naturalLiteral_eq_some_iff : naturalLiteral text = some (n, rest) ↔
    Leads (numeral n) text rest ∧ rest.dropWhile Char.isDigit = rest := by
  rw [numeral, leads_token (isSolid_toDigits n)]
  simp only [naturalLiteral]
  -- The reader takes all digits that there are, so that a digit behind those of the number would
  -- make it another number.
  constructor
  · intro read
    have whole := List.takeWhile_append_dropWhile (p := Char.isDigit) (l := skipGap text)
    split at read
    · cases read
    · cases read
    · rename_i some noZero
      cases read
      rw [toDigits_digitsValue _ (fun _ => List.mem_takeWhile_imp) some noZero, whole]
      exact ⟨rfl, List.dropWhile_idempotent ..⟩
  · rintro ⟨same, ends⟩
    have none : rest.takeWhile Char.isDigit = [] := by
      have whole := List.takeWhile_append_dropWhile (p := Char.isDigit) (l := rest)
      rwa [ends, List.append_left_eq_self] at whole
    rw [same, List.takeWhile_append_of_pos isDigit_of_mem_toDigits, none, List.append_nil,
      List.dropWhile_append_of_pos isDigit_of_mem_toDigits, ends]
    split
    · rename_i digits
      exact absurd digits Nat.toDigits_ne_nil
    · rename_i digits
      exact absurd digits (toDigits_ne_zero_cons n _)
    · rw [digitsValue_toDigits]

/-- A number ends before a mark. -/
theorem dropWhile_isDigit_of_mark (noDigit : ¬ c.isDigit)
    (leads : Leads (mark c) text rest) : text.dropWhile Char.isDigit = text := by
  obtain ⟨_, ⟨lead, blank, _, rfl, rfl⟩, rfl⟩ := leads
  cases lead with
  | nil => exact List.dropWhile_cons_of_neg noDigit
  | cons d lead =>
      refine List.dropWhile_cons_of_neg fun digit => ?_
      exact absurd (blank d List.mem_cons_self) (by simp [not_isGap_of_isDigit digit])

end TypeBridge.Text.Json
