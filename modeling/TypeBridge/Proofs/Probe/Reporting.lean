import TypeBridge.Probe.Report
import TypeBridge.Proofs.Ensures

/-!
# What a report is taken for

A probe's output is of use exactly if it holds one record for each type asked about, in the order
in which they were asked about (`parse_eq_ok_iff`).
-/

namespace TypeBridge.Probe

variable {records : List Record} {requested : List String} {facts : List (TypeName × TypeInfo)}

/-- What a record states about the native type that it names. -/
def Record.fact (record : Record) : TypeName × TypeInfo :=
  (.native record.name, ⟨record.signage, record.kind, some record.size⟩)

/-- Records about some types: one for each, in their order. -/
structure About (requested : List String) (records : List Record) : Prop where
  natives : ∀ record ∈ records, record.system = .native
  names : records.map (·.name) = requested

theorem answers_eq_ok_iff (count : records.length = requested.length) :
    answers records requested = .ok facts ↔
      About requested records ∧ facts = records.map Record.fact := by
  induction records generalizing requested facts with
  | nil =>
      cases List.length_eq_zero_iff.mp count.symm
      constructor
      · intro answered
        exact ⟨⟨nofun, rfl⟩, (Except.ok.inj answered).symm⟩
      · rintro ⟨-, rfl⟩
        rfl
  | cons record records ih =>
      cases requested with
      | nil => cases count
      | cons name requested =>
          have shorter := Nat.succ.inj count
          constructor
          · intro answered
            obtain ⟨fact, first, answered⟩ := exists_of_bind_ok answered
            obtain ⟨rest, others, answered⟩ := exists_of_bind_ok answered
            obtain ⟨about, rfl⟩ := (ih shorter).mp others
            unfold Record.answer at first
            split at first
            · rename_i native
              refine ⟨⟨?_, ?_⟩, ?_⟩
              · exact List.forall_mem_cons.mpr ⟨native.1, about.natives⟩
              · rw [List.map_cons, native.2, about.names]
              · rw [← Except.ok.inj answered, ← Except.ok.inj first]
                rfl
            · cases first
          · rintro ⟨about, rfl⟩
            obtain ⟨native, natives⟩ := List.forall_mem_cons.mp about.natives
            obtain ⟨same, names⟩ := List.cons.inj about.names
            have first : record.answer name = .ok record.fact := if_pos ⟨native, same⟩
            have others := (ih shorter).mpr ⟨⟨natives, names⟩, rfl⟩
            simp [answers, first, others, bind, Except.bind, pure, Except.pure]

/-- A report is of use exactly if its records are about the types asked about; it is taken for what
they state. -/
theorem parse_eq_ok_iff {output : String} : parse output requested = .ok facts ↔
    ∃ records, Record.readAll output.toList = some records ∧ About requested records ∧
      facts = records.map Record.fact := by
  unfold parse
  cases read : Record.readAll output.toList with
  | none => exact ⟨nofun, fun ⟨_, absurd, _⟩ => nomatch absurd⟩
  | some records =>
      by_cases count : records.length = requested.length
      · simp only [count, if_true, answers_eq_ok_iff count]
        constructor
        · exact fun ⟨about, same⟩ => ⟨records, rfl, about, same⟩
        · rintro ⟨_, ⟨⟩, about, same⟩
          exact ⟨about, same⟩
      · simp only [count, if_false]
        refine ⟨nofun, ?_⟩
        rintro ⟨_, ⟨⟩, about, -⟩
        exact absurd (by rw [← about.names, List.length_map]) count

end TypeBridge.Probe
