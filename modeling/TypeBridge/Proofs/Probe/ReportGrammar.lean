import TypeBridge.Proofs.Probe.Reporting
import TypeBridge.Proofs.Text.JsonGrammar

/-!
# The grammar of reports

The texts of a report as a language. `Record.readAll` answers exactly on them, with the records that
they are texts of (`readAll_eq_some_iff`), and refuses what goes on behind them
(`readAll_of_leads`). How a word of a fixed choice is written is left to a parameter.
-/

namespace TypeBridge

open Text.Json Text.Json.Reader

/-- A word is read as a signage exactly when it is how that signage is written. -/
theorem Signage.parse?_eq_some_iff {text : String} {signage : Signage} :
    parse? text = some signage ↔ text = signage.render := by
  constructor
  · intro parsed
    unfold parse? at parsed
    split at parsed <;> cases parsed <;> rfl
  · rintro rfl
    cases signage <;> rfl

/-- A word is read as a numeric kind exactly when it is how that kind is written. -/
theorem NumericKind.parse?_eq_some_iff {text : String} {kind : NumericKind} :
    parse? text = some kind ↔ text = kind.render := by
  constructor
  · intro parsed
    unfold parse? at parsed
    split at parsed <;> cases parsed <;> rfl
  · rintro rfl
    cases kind <;> rfl

namespace Probe

variable {word : String → Language Char} {text rest : List Char} {record : Record}
  {records : List Record}

/-- A system is read exactly where a text leads with a spelling of its name. -/
theorem readSystem_eq_some_iff {system : TypeSystem} :
    readSystem text = some (system, rest) ↔ Leads (choice system.render) text rest := by
  rw [← choiceLiteral_eq_some_iff]
  simp only [readSystem, Option.bind_eq_bind, Option.bind_eq_some_iff]
  constructor
  · rintro ⟨⟨name, after⟩, read, known⟩
    dsimp only at known
    split at known <;> cases known <;> exact read
  · intro read
    refine ⟨_, read, ?_⟩
    cases system <;> rfl

namespace Record

/-- A record whose size is a machine word. -/
def Small (record : Record) : Prop := record.size < 2 ^ 64

instance : Decidable record.Small := inferInstanceAs (Decidable (_ < _))

/-- The texts of a record. -/
def texts (word : String → Language Char) (record : Record) : Language Char :=
  mark '[' * word record.system.render * mark ',' * quoted record.name * mark ',' *
    word record.signage.render * mark ',' * word record.kind.render * mark ',' *
    numeral record.size * mark ']'

/-- The texts of some records up to the bracket that closes their array. -/
def listing (word : String → Language Char) : List Record → Language Char
  | [] => mark ']'
  | [record] => record.texts word * mark ']'
  | record :: others => record.texts word * mark ',' * listing word others

/-- The texts of an array of records. -/
def reports (word : String → Language Char) (records : List Record) : Language Char :=
  mark '[' * listing word records * gap

/-! ## One record -/

/-- A record is read exactly where a text leads with one of its spellings and its sizes are
small. -/
theorem read_eq_some_iff : read text = some (record, rest) ↔
    Leads (record.texts choice) text rest ∧ record.Small := by
  dsimp only [read, Option.bind_eq_bind, Option.pure_def]
  simp only [texts, mul_assoc, leads_mul, ↓Option.bind_eq_some_iff, Prod.exists,
    Option.ite_none_right_eq_some, Option.some.injEq]
  simp only [readSystem_eq_some_iff, stringLiteral_eq_some_iff, choiceLiteral_eq_some_iff,
    naturalLiteral_eq_some_iff, Signage.parse?_eq_some_iff, NumericKind.parse?_eq_some_iff]
  simp (disch := decide) only [expect_eq_some_iff]
  constructor
  · rintro ⟨t₁, opened, system, t₂, native, t₃, comma₁, name, t₄, named, t₅, comma₂,
      _, t₆, signed, signage, rfl, t₇, comma₃, _, t₈, kinded, kind, rfl, t₉,
      comma₄, size, t₁₀, ⟨sized, -⟩, small, t₁₁, closed, ⟨⟩⟩
    exact ⟨⟨t₁, opened, t₂, native, t₃, comma₁, t₄, named, t₅, comma₂, t₆, signed, t₇, comma₃, t₈,
      kinded, t₉, comma₄, t₁₀, sized, closed⟩, small⟩
  · rintro ⟨⟨t₁, opened, t₂, native, t₃, comma₁, t₄, named, t₅, comma₂, t₆, signed, t₇, comma₃, t₈,
      kinded, t₉, comma₄, t₁₀, sized, closed⟩, small⟩
    -- The bracket ends the digits of the size.
    have ends := dropWhile_isDigit_of_mark (by decide) closed
    exact ⟨t₁, opened, _, t₂, native, t₃, comma₁, _, t₄, named, t₅, comma₂, _, t₆, signed, _, rfl,
      t₇, comma₃, _, t₈, kinded, _, rfl, t₉, comma₄, _, t₁₀, ⟨sized, ends⟩, small, rest, closed,
      rfl⟩

/-! ## All records -/

/-- Behind the first record stands the bracket that closes the array or, after a comma, the listing
of the others. -/
theorem leads_listing_cons : Leads (listing word (record :: records)) text rest ↔
    ∃ middle, Leads (record.texts word) text middle ∧
      (records = [] ∧ Leads (mark ']') middle rest ∨ records ≠ [] ∧
        ∃ after, Leads (mark ',') middle after ∧ Leads (listing word records) after rest) := by
  cases records with
  | nil => simp only [listing, leads_mul, true_and, ne_eq, not_true, false_and, or_false]
  | cons =>
      simp only [listing, mul_assoc, leads_mul, List.cons_ne_nil, false_and, false_or, ne_eq,
        not_false_iff, true_and]

/-- A listing of records starts with the bracket of the first one. -/
theorem leads_mark_of_listing (some : records ≠ [])
    (leads : Leads (listing word records) text rest) : ∃ middle, Leads (mark '[') text middle := by
  cases records with
  | nil => exact absurd rfl some
  | cons record others =>
      obtain ⟨_, first, -⟩ := leads_listing_cons.mp leads
      simp only [texts, mul_assoc] at first
      obtain ⟨middle, opened, -⟩ := leads_mul.mp first
      exact ⟨middle, opened⟩

/-- A text that leads with a list of records is at least as long as the list. -/
theorem length_le_of_listing (leads : Leads (listing word records) text rest) :
    records.length ≤ text.length := by
  induction records generalizing text with
  | nil => exact Nat.zero_le _
  | cons record others ih =>
      obtain ⟨middle, first, last | ⟨-, after, comma, later⟩⟩ := leads_listing_cons.mp leads
      · obtain ⟨rfl, closed⟩ := last
        exact Nat.one_le_of_lt (closed.length_lt.trans_le first.length_le)
      · exact Nat.succ_le_of_lt ((ih later).trans_lt (comma.length_lt.trans_le first.length_le))

/-- The rest of a list of records, once read, has at least one record. -/
theorem readRest_ne_nil {fuel : Nat} (read : readRest fuel text = some (records, rest)) :
    records ≠ [] := by
  cases fuel with
  | zero => cases read
  | succ fuel =>
      obtain ⟨⟨record, middle⟩, first, behind⟩ := Option.bind_eq_some_iff.mp read
      dsimp only at behind
      split at behind <;>
        · obtain ⟨_, -, same⟩ := Option.bind_eq_some_iff.mp behind
          cases same
          exact List.cons_ne_nil _ _

/-- Records that are read are listed in the text. -/
theorem leads_of_readRest {fuel : Nat} (read : readRest fuel text = some (records, rest)) :
    Leads (listing choice records) text rest ∧ ∀ record ∈ records, record.Small := by
  induction fuel generalizing text records with
  | zero => cases read
  | succ fuel ih =>
      obtain ⟨⟨record, middle⟩, first, behind⟩ := Option.bind_eq_some_iff.mp read
      obtain ⟨first, small⟩ := read_eq_some_iff.mp first
      dsimp only at behind
      split at behind
      · rename_i after comma
        obtain ⟨⟨others, _⟩, later, same⟩ := Option.bind_eq_some_iff.mp behind
        cases same
        obtain ⟨leads, smalls⟩ := ih later
        have some : others ≠ [] := readRest_ne_nil later
        exact ⟨leads_listing_cons.mpr ⟨middle, first,
          .inr ⟨some, after, (expect_eq_some_iff (by decide)).mp comma, leads⟩⟩,
          List.forall_mem_cons.mpr ⟨small, smalls⟩⟩
      · obtain ⟨_, closed, same⟩ := Option.bind_eq_some_iff.mp behind
        cases same
        exact ⟨leads_listing_cons.mpr ⟨middle, first,
          .inl ⟨rfl, (expect_eq_some_iff (by decide)).mp closed⟩⟩,
          List.forall_mem_singleton.mpr small⟩

/-- Records that are listed are read. The bracket behind the last one is no comma, so that the
reader does not go on. -/
theorem readRest_of_leads {fuel : Nat} (some : records ≠ []) (fits : records.length ≤ fuel)
    (leads : Leads (listing choice records) text rest) (smalls : ∀ record ∈ records, record.Small) :
    readRest fuel text = .some (records, rest) := by
  induction records generalizing text fuel with
  | nil => exact absurd rfl some
  | cons record others ih =>
      obtain ⟨fuel, rfl⟩ := Nat.exists_eq_succ_of_ne_zero (Nat.ne_of_gt (Nat.zero_lt_of_lt fits))
      obtain ⟨small, smalls⟩ := List.forall_mem_cons.mp smalls
      obtain ⟨middle, first, behind⟩ := leads_listing_cons.mp leads
      refine Option.bind_eq_some_iff.mpr
        ⟨(record, middle), read_eq_some_iff.mpr ⟨first, small⟩, ?_⟩
      dsimp only
      rcases behind with ⟨rfl, closed⟩ | ⟨more, after, comma, later⟩
      · rw [expect_eq_none (by decide) (by decide) closed,
          (expect_eq_some_iff (by decide)).mpr closed]
        rfl
      · rw [(expect_eq_some_iff (by decide)).mpr comma]
        dsimp only
        rw [ih more (Nat.le_of_succ_le_succ fits) later smalls]
        rfl

/-- What follows the array decides on whether a text is a report. -/
theorem readAll_of_leads (leads : Leads (mark '[' * listing choice records) text rest)
    (small : ∀ record ∈ records, record.Small) :
    readAll text = if (skipGap rest).isEmpty then some records else none := by
  obtain ⟨body, opened, leads⟩ := leads_mul.mp leads
  have shorter := opened.length_lt
  rw [readAll, (expect_eq_some_iff (by decide)).mpr opened]
  dsimp only [Option.bind_eq_bind, Option.bind_some]
  by_cases empty : records = []
  · subst empty
    rw [(expect_eq_some_iff (by decide)).mpr leads]
  · obtain ⟨_, first⟩ := leads_mark_of_listing empty leads
    have fits : records.length ≤ text.length := (length_le_of_listing leads).trans shorter.le
    rw [expect_eq_none (by decide) (by decide) first, readRest_of_leads empty fits leads small]
    rfl

/-- A text is a report exactly when it leads with a list of records and only gaps follow. -/
theorem mem_reports_iff : text ∈ reports word records ↔
    ∃ rest, Leads (mark '[' * listing word records) text rest ∧ (skipGap rest).isEmpty := by
  rw [← leads_nil, reports, leads_mul]
  simp only [leads_nil, ← skipGap_eq_nil_iff, List.isEmpty_iff]

/-- Records are read exactly from the reports of them. -/
theorem readAll_eq_some_iff : readAll text = some records ↔
    text ∈ reports choice records ∧ ∀ record ∈ records, record.Small := by
  rw [mem_reports_iff]
  constructor
  · intro read
    obtain ⟨body, opened, behind⟩ := Option.bind_eq_some_iff.mp read
    have opened := (expect_eq_some_iff (by decide)).mp opened
    split at behind
    · rename_i rest closed
      obtain ⟨blank, same⟩ := Option.ite_none_right_eq_some.mp behind
      cases same
      have closed := (expect_eq_some_iff (by decide)).mp closed
      exact ⟨⟨rest, leads_mul.mpr ⟨body, opened, closed⟩, blank⟩, nofun⟩
    · obtain ⟨⟨others, rest⟩, listed, behind⟩ := Option.bind_eq_some_iff.mp behind
      obtain ⟨blank, same⟩ := Option.ite_none_right_eq_some.mp behind
      cases same
      obtain ⟨listed, small⟩ := leads_of_readRest listed
      exact ⟨⟨rest, leads_mul.mpr ⟨body, opened, listed⟩, blank⟩, small⟩
  · rintro ⟨⟨rest, leads, blank⟩, small⟩
    rw [readAll_of_leads leads small, if_pos blank]

end Record

end Probe

end TypeBridge
