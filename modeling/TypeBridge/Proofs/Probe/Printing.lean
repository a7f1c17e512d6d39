import TypeBridge.Proofs.Probe.ReportGrammar

/-!
# What a probe prints is read

A report is read exactly if its text is an array of records about the types asked about
(`report_read_exactly`); what a probe prints for some types is such a text, and is refused for every
other request and with anything but blanks behind it.
-/

namespace TypeBridge.Probe

open Text.Json Text.Json.Reader
open Language (append_mem_mul)

variable {lead rest : List Char} {name : String} {signage : Signage} {kind : NumericKind}
  {size : Nat}

/-- What is printed of a type: its name, sign, kind and size. -/
abbrev Printed := String × Signage × NumericKind × Nat

/-- The record that is printed for a type. -/
def Printed.record : Printed → Record
  | (name, signage, kind, size) => ⟨.native, name, signage, kind, size⟩

/-- A type whose name and size can be printed. -/
def Printed.IsPlain (type : Printed) : Prop := Text.Json.IsPlain type.1 ∧ type.record.Small

/-! ## Printed records -/

/-- A plain word in quotes, after any blanks, is a way to write a choice. -/
theorem mem_choice (blank : lead ∈ gap) (plain : Text.Json.IsPlain name) :
    lead ++ ['"'] ++ (name.toList ++ ['"']) ∈ choice name :=
  .inl (mem_quoted blank plain)

theorem noBlank : [] ∈ gap := nofun

theorem oneBlank : [' '] ∈ gap := List.forall_mem_singleton.mpr rfl

theorem oneBreak : ['\n'] ∈ gap := List.forall_mem_singleton.mpr rfl

/-- The words for signs are plain. -/
theorem isPlain_signage (signage : Signage) : Text.Json.IsPlain signage.render := by
  cases signage <;> decide

/-- The words for kinds of numbers are plain. -/
theorem isPlain_kind (kind : NumericKind) : Text.Json.IsPlain kind.render := by
  cases kind <;> decide

/-- The characters of a printed record, part by part. -/
theorem toList_printRecord (name signage kind size : String) (last : Bool) :
    (printRecord name signage kind size last).toList =
      ' ' :: ' ' :: '[' :: '"' :: ("native".toList ++ '"' :: ',' :: ' ' :: '"' :: (name.toList ++
        '"' :: ',' :: ' ' :: '"' :: (signage.toList ++ '"' :: ',' :: ' ' :: '"' :: (kind.toList ++
          '"' :: ',' :: ' ' :: (size.toList ++
            ']' :: ((if last then [] else [',']) ++ ['\n'])))))) := by
  unfold printRecord
  cases last <;> simp

/-- The line of a record starts with a text of the record. -/
theorem leads_printRecord (blank : lead ∈ gap) (plain : Text.Json.IsPlain name) (last : Bool)
    (rest : List Char) :
    Leads (Record.texts choice (Printed.record (name, signage, kind, size)))
      (lead ++ ((printRecord name signage.render kind.render (toString size) last).toList ++ rest))
      ((if last then [] else [',']) ++ '\n' :: rest) := by
  have opening : lead ++ [' ', ' '] ∈ gap :=
    List.forall_mem_append.mpr ⟨blank, List.forall_mem_cons.mpr ⟨rfl, oneBlank⟩⟩
  have comma : [] ++ [','] ∈ mark ',' := mem_token noBlank _
  have native : [] ++ ['"'] ++ ("native".toList ++ ['"']) ∈ choice "native" :=
    mem_choice noBlank (by decide)
  have named := append_mem_mul (append_mem_mul (append_mem_mul (append_mem_mul
    (mem_token opening ['[']) native) comma) (mem_quoted oneBlank plain)) comma
  have described := append_mem_mul (append_mem_mul (append_mem_mul named
    (mem_choice oneBlank (isPlain_signage signage))) comma)
    (mem_choice oneBlank (isPlain_kind kind))
  have line := append_mem_mul (append_mem_mul (append_mem_mul described comma)
    (mem_token oneBlank (Nat.toDigits 10 size))) (mem_token noBlank [']'])
  refine ⟨_, line, ?_⟩
  rw [toList_printRecord]
  simp

/-- A record is printed in front of the others, with a comma behind it. -/
theorem printRecords_cons (type : Printed) {others : List Printed} (some : others ≠ []) :
    printRecords (type :: others) = printRecord type.1 type.2.1.render type.2.2.1.render
      (toString type.2.2.2) false ++ printRecords others := by
  obtain ⟨name, signage, kind, size⟩ := type
  rw [printRecords]
  exact some

/-- The lines of some records are a listing of them, once their array is closed. -/
theorem leads_printRecords (types : List Printed) (plain : ∀ type ∈ types, type.IsPlain)
    (blank : lead ∈ gap) (rest : List Char) :
    Leads (Record.listing choice (types.map Printed.record))
      (lead ++ ((printRecords types).toList ++ ']' :: rest)) rest := by
  induction types generalizing lead with
  | nil => exact ⟨_, mem_token blank [']'], by simp [printRecords]⟩
  | cons type others ih =>
      obtain ⟨own, later⟩ := List.forall_mem_cons.mp plain
      obtain ⟨name, signage, kind, size⟩ := type
      refine Record.leads_listing_cons.mpr ?_
      cases others with
      | nil =>
          exact ⟨_, leads_printRecord blank own.1 true _,
            .inl ⟨rfl, _, mem_token oneBreak [']'], rfl⟩⟩
      | cons next others =>
          rw [printRecords_cons _ (List.cons_ne_nil _ _), String.toList_append, List.append_assoc]
          exact ⟨_, leads_printRecord blank own.1 false _,
            .inr ⟨List.cons_ne_nil _ _, _, ⟨_, mem_token noBlank [','], rfl⟩, ih later oneBreak⟩⟩

/-- What a probe prints is the array of its records, with a line break behind it. -/
theorem leads_print {types : List Printed} (plain : ∀ type ∈ types, type.IsPlain)
    (more : List Char) :
    Leads (mark '[' * Record.listing choice (types.map Printed.record))
      ((print types).toList ++ more) ('\n' :: more) := by
  have lines := leads_printRecords types plain oneBreak ('\n' :: more)
  refine leads_mul.mpr ⟨_, ⟨_, mem_token noBlank ['['], ?_⟩, lines⟩
  unfold print
  simp

/-! ## Printed reports -/

variable {types : List Printed} {requested : List String} {facts : List (TypeName × TypeInfo)}

/-- The facts that are printed of a type. -/
def Printed.fact : Printed → TypeName × TypeInfo
  | (name, signage, kind, size) => (.native name, ⟨signage, kind, some size⟩)

/-- Only blanks may stand behind what a probe prints. -/
theorem readAll_print (plain : ∀ type ∈ types, type.IsPlain) (more : String) :
    Record.readAll (print types ++ more).toList =
      if more.toList.all isGap then some (types.map Printed.record) else none := by
  have small : ∀ record ∈ types.map Printed.record, record.Small :=
    List.forall_mem_map.mpr fun type member => (plain type member).2
  have blank : (skipGap ('\n' :: more.toList)).isEmpty = more.toList.all isGap := by
    rw [Bool.eq_iff_iff, List.isEmpty_iff, skipGap_eq_nil_iff, List.all_eq_true]
    exact List.forall_mem_cons.trans (and_iff_right rfl)
  rw [String.toList_append, Record.readAll_of_leads (leads_print plain more.toList) small, blank]

/-- What was printed is read back when nothing stands behind it. -/
theorem readAll_print_alone (plain : ∀ type ∈ types, type.IsPlain) :
    Record.readAll (print types).toList = some (types.map Printed.record) := by
  simpa using readAll_print plain ""

/-- The records of printed types are about the names asked for exactly if these are their names. -/
theorem about_map_record :
    About requested (types.map Printed.record) ↔ requested = types.map (·.1) := by
  have names : (types.map Printed.record).map (·.name) = types.map (·.1) := List.map_map
  constructor
  · intro about
    rw [← about.names, names]
  · rintro rfl
    exact ⟨List.forall_mem_map.mpr fun _ _ => rfl, names⟩

/-- What a probe prints for some types answers the request for these types and no other. -/
theorem parse_print_eq_ok_iff (plain : ∀ type ∈ types, type.IsPlain) :
    parse (print types) requested = .ok facts ↔
      requested = types.map (·.1) ∧ facts = types.map Printed.fact := by
  have same : (types.map Printed.record).map Record.fact = types.map Printed.fact := List.map_map
  rw [parse_eq_ok_iff, readAll_print_alone plain, ← same, ← about_map_record]
  constructor
  · rintro ⟨_, ⟨⟩, about, same⟩
    exact ⟨about, same⟩
  · exact fun ⟨about, same⟩ => ⟨_, rfl, about, same⟩

/-- What stands behind a printed report does no harm exactly if it is blank. -/
theorem parse_print_append (plain : ∀ type ∈ types, type.IsPlain) (more : String) :
    parse (print types ++ more) requested =
      if more.toList.all isGap then parse (print types) requested else .error .unparseable := by
  unfold parse
  rw [readAll_print plain more, readAll_print_alone plain]
  by_cases blank : more.toList.all isGap
  · rw [if_pos blank, if_pos blank]
  · rw [if_neg blank, if_neg blank]

/-- A report is taken for facts exactly if it is an array of records about the types asked about, in
their order; a word of a fixed choice may also be the only key of an object with the value null.
What a probe prints for some types is read as their facts, by the request for these types and no
other, and with blanks behind it only. -/
theorem report_read_exactly :
    (∀ (output : String) requested facts, parse output requested = .ok facts ↔
      ∃ records, output.toList ∈ Record.reports choice records ∧ About requested records ∧
        (∀ record ∈ records, record.size < 2 ^ 64) ∧ facts = records.map Record.fact) ∧
    ∀ types : List Printed,
      (∀ type ∈ types, Text.Json.IsPlain type.1 ∧ type.2.2.2 < 2 ^ 64) →
      (∀ requested facts, parse (print types) requested = .ok facts ↔
        requested = types.map (·.1) ∧ facts = types.map Printed.fact) ∧
      ∀ (more : String) requested, parse (print types ++ more) requested =
        if more.toList.all isGap then parse (print types) requested else .error .unparseable := by
  constructor
  · intro output requested facts
    rw [parse_eq_ok_iff]
    constructor
    · rintro ⟨records, read, about, same⟩
      obtain ⟨inside, small⟩ := Record.readAll_eq_some_iff.mp read
      exact ⟨records, inside, about, small, same⟩
    · rintro ⟨records, inside, about, small, same⟩
      exact ⟨records, Record.readAll_eq_some_iff.mpr ⟨inside, small⟩, about, same⟩
  · intro types plain
    exact ⟨fun _ _ => parse_print_eq_ok_iff plain, fun more _ => parse_print_append plain more⟩

/-- Two types, as a probe prints them. -/
def twoTypes : List Printed := [("int", .signed, .integer, 4), ("double", .signed, .float, 8)]

/-- The report of a run on two types is read back, and with a warning behind it it is not. -/
theorem report_read_exactly_twoTypes :
    (∀ type ∈ twoTypes, Text.Json.IsPlain type.1 ∧ type.2.2.2 < 2 ^ 64) ∧
    parse (print twoTypes) ["int", "double"] = .ok [(.native "int", ⟨.signed, .integer, some 4⟩),
      (.native "double", ⟨.signed, .float, some 8⟩)] ∧
    parse (print twoTypes ++ "warning") ["int", "double"] = .error .unparseable := by
  have plain : ∀ type ∈ twoTypes, Text.Json.IsPlain type.1 ∧ type.2.2.2 < 2 ^ 64 := by decide
  obtain ⟨read, appended⟩ := report_read_exactly.2 twoTypes plain
  exact ⟨plain, (read _ _).mpr ⟨rfl, rfl⟩, (appended "warning" _).trans (if_neg (by decide))⟩

/-- A report in which a word stands as the only key of an object. -/
def keyedReport : String := "[[\x7b\"native\":null\x7d,\"int\",\"signed\",\"integer\",4]]"

/-- Not all reports that are read hold string literals in the places of words. -/
theorem keyedReport_read : ¬ ∀ (output : String) requested, (parse output requested).isOk ↔
    ∃ records, output.toList ∈ Record.reports quoted records ∧ About requested records ∧
      ∀ record ∈ records, record.size < 2 ^ 64 := by
  intro claim
  have read : (parse keyedReport ["int"]).isOk := by decide
  obtain ⟨records, inside, about, -⟩ := (claim _ _).mp read
  have leads := leads_nil.mpr inside
  cases records with
  | nil => cases about.names
  | cons record others =>
      cases others with
      | cons => cases congrArg List.length about.names
      | nil =>
          simp only [Record.reports, Record.listing, Record.texts, quoted, mul_assoc, leads_mul]
            at leads
          obtain ⟨t₁, outer, t₂, inner, t₃, quote, -⟩ := leads
          have refused : ((expect '[' keyedReport.toList).bind (expect '[')).bind (expect '"') =
              none := by decide
          rw [(expect_eq_some_iff (by decide)).mpr outer, Option.bind_some,
            (expect_eq_some_iff (by decide)).mpr inner, Option.bind_some,
            (expect_eq_some_iff (by decide)).mpr quote] at refused
          cases refused

end TypeBridge.Probe
