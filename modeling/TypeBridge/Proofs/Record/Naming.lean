import TypeBridge.Proofs.Record.Requests
import TypeBridge.Proofs.Types.Unchanged

/-!
# Scalars of composites that are entered

When a composite is entered, each scalar in it is named in the session as it is then.
`Session.Named` says so of one scalar, between two states of the registry; `create_notes` says that
the log of a request to enter a composite holds only scalars that were named on the way.
-/

namespace TypeBridge

/-! ## Scalars that were named -/

/-- The type string that a registry has for a scalar. -/
def Registry.typeString (registry : Registry) (scalar : ResolvedScalar) : String :=
  ((registry.info? scalar.arrayLib).bind TypeInfo.typeString?).getD ("|V" ++ toString scalar.size)

/-- Between two states of a registry a request for a scalar was answered, in a session that calls
lead to. -/
inductive Session.Named (first last : Registry) (name : TypeName) (scalar : ResolvedScalar) :
    String → Prop where
  | answered {unsized : List String} {session after : Session} {machine : Machine}
      {bench bench' : Workbench} (reached : Session.Reached unsized session)
      (before : first.Begins session.registry) (behind : after.registry.Begins last)
      (ran : (Session.resolve machine name).run (session, bench) = (.ok scalar, after, bench')) :
      Named first last name scalar (after.registry.typeString scalar)

namespace Session.Named

variable {first first' last last' registry : Registry} {name : TypeName}
  {scalar : ResolvedScalar} {typeString : String}

theorem mono (begins : first'.Begins first) (ends : last.Begins last')
    (named : Named first last name scalar typeString) :
    Named first' last' name scalar typeString := by
  cases named with
  | answered reached before behind ran =>
      exact .answered reached (begins.trans before) (behind.trans ends) ran

/-- The type string of a scalar is that of facts which give the scalar its size. -/
theorem exists_info (named : Named first last name scalar typeString) :
    ∃ info : TypeInfo, info.typeString? = some typeString ∧ info.size = some scalar.size := by
  cases named with
  | @answered unsized session after machine bench bench' reached before behind ran =>
      obtain ⟨-, sized, registered, pointers⟩ := Session.resolve_arrayLib reached.steady ran
      obtain ⟨size, known⟩ := Option.isSome_iff_exists.mp sized
      have scalarSize : scalar.size = size := by
        rw [ResolvedScalar.size, known, Option.getD_some]
      cases pointer : name.isPointer with
      | false =>
          rw [if_neg (by simp [pointer])] at registered
          refine ⟨scalar.info, ?_, by rw [known, scalarSize]⟩
          rw [Registry.typeString, registered, Option.bind_some, TypeInfo.typeString?, known]
          rfl
      | true =>
          rw [if_pos pointer] at registered
          refine ⟨.unsigned TypeInfo.wordSize, ?_, ?_⟩
          · rw [Registry.typeString, registered]
            rfl
          · rw [ResolvedScalar.size, pointers pointer]
            rfl

/-- What was answered while the registry stayed as it was is what the registry calls the scalar. -/
theorem names (named : Named registry registry name scalar typeString) :
    registry.Names name scalar ∧ typeString = registry.typeString scalar := by
  cases named with
  | @answered unsized session after machine bench bench' reached before behind ran =>
      have begins := (Session.resolve_appends machine name).of_run ran
      have unchanged := before.eq_of_between (begins.trans behind)
      have unchanged' := (before.trans begins).eq_of_between behind
      have names := Session.names_of_resolve reached.steady ran (unchanged'.trans unchanged.symm)
      rw [unchanged] at names
      exact ⟨names, by rw [unchanged']⟩

/-- In the array library a scalar goes by a registered name. -/
theorem arrayLib (named : Named registry registry name scalar typeString) :
    scalar.arrayLib.system = .arrayLib ∧ registry.info? scalar.arrayLib =
      some (if name.isPointer then .unsigned TypeInfo.wordSize else scalar.info) := by
  cases named with
  | @answered unsized session after machine bench bench' reached before behind ran =>
      have begins := (Session.resolve_appends machine name).of_run ran
      have unchanged := (before.trans begins).eq_of_between behind
      obtain ⟨inside, -, registered, -⟩ := Session.resolve_arrayLib reached.steady ran
      exact ⟨inside, unchanged ▸ registered⟩

end Session.Named

/-! ## Logs of named scalars -/

/-- What a field of a composite holds was resolved, and if it is a scalar, as some answers tell. -/
inductive MemberType.AnsweredBy (answers : TypeName → ResolvedScalar → String → Prop) :
    MemberType → ResolvedType → Prop where
  | scalar {name : TypeName} {scalar : ResolvedScalar} {typeString : String}
      (answered : answers name scalar typeString) :
      AnsweredBy answers (.scalar name) (.scalar scalar typeString)
  | composite (child : Composite) (id : Nat) : AnsweredBy answers (.composite child) (.record id)
  | pointer (child : Composite) (id : Nat) : AnsweredBy answers (.pointer child) (.pointer id)

theorem MemberType.AnsweredBy.mono {answers answers' : TypeName → ResolvedScalar → String → Prop}
    (all : ∀ name scalar typeString, answers name scalar typeString →
      answers' name scalar typeString)
    {type : MemberType} {resolved : ResolvedType} (answered : type.AnsweredBy answers resolved) :
    type.AnsweredBy answers' resolved := by
  cases answered with
  | scalar answered => exact .scalar (all _ _ _ answered)
  | composite => exact .composite _ _
  | pointer => exact .pointer _ _

/-- The scalars of all that was entered were resolved as some answers tell. -/
def EntryLog.AnsweredBy (answers : TypeName → ResolvedScalar → String → Prop) (log : EntryLog) :
    Prop :=
  ∀ entered ∈ log, List.Forall₂
    (fun declared resolved => declared.type.AnsweredBy answers resolved.type)
    entered.1.fields entered.2

theorem EntryLog.answeredBy_nil (answers : TypeName → ResolvedScalar → String → Prop) :
    EntryLog.AnsweredBy answers [] :=
  List.forall_mem_nil _

theorem EntryLog.AnsweredBy.mono {answers answers' : TypeName → ResolvedScalar → String → Prop}
    {log : EntryLog} (all : ∀ name scalar typeString, answers name scalar typeString →
      answers' name scalar typeString)
    (answered : log.AnsweredBy answers) : log.AnsweredBy answers' :=
  fun entered member => (answered entered member).imp fun _ _ => .mono all

namespace Catalogue

variable {catalogue : Catalogue} {composite : Composite} {log : EntryLog}

/-- What is noted in a session: calls lead to the session behind it, types were only added, and the
scalars of what was entered were named in between. -/
structure Notes (log : EntryLog) (session : Session)
    (after : EntryLog × Catalogue × Session × Workbench) : Prop where
  reached : ∃ unsized, Session.Reached unsized after.2.2.1
  begins : session.registry.Begins after.2.2.1.registry
  added : ∃ added, after.1 = added ++ log ∧
    EntryLog.AnsweredBy (Session.Named session.registry after.2.2.1.registry) added

namespace Notes

variable {session : Session} {middle after : EntryLog × Catalogue × Session × Workbench}

theorem refl (reached : ∃ unsized, Session.Reached unsized session) (bench : Workbench) :
    Notes log session (log, catalogue, session, bench) :=
  ⟨reached, .refl _, [], rfl, EntryLog.answeredBy_nil _⟩

theorem trans (start : Notes log session middle) (rest : Notes middle.1 middle.2.2.1 after) :
    Notes log session after where
  reached := rest.reached
  begins := start.begins.trans rest.begins
  added := by
    obtain ⟨earlier, sameMiddle, answered⟩ := start.added
    obtain ⟨later, same, answered'⟩ := rest.added
    refine ⟨later ++ earlier, by rw [same, sameMiddle, List.append_assoc], ?_⟩
    refine List.forall_mem_append.mpr ⟨?_, ?_⟩
    · exact answered'.mono fun _ _ _ => .mono start.begins (.refl _)
    · exact answered.mono fun _ _ _ => .mono (.refl _) rest.begins

end Notes

/-- Naming a scalar in a catalogue is naming it in the session. -/
theorem resolveScalar_notes (machine : Machine) (name : TypeName) (log : EntryLog)
    (catalogue : Catalogue) {session : Session} (bench : Workbench)
    (reached : ∃ unsized, Session.Reached unsized session) :
    (Step.onSecond (resolveScalar machine name) : LoggedStep (ResolvedScalar × String)).Ensures
      (log, catalogue, session, bench)
      (fun answer after => Notes log session after ∧
        Session.Named session.registry after.2.2.1.registry name answer.1 answer.2)
      (fun _ after => Notes log session after) := by
  obtain ⟨unsized, reached⟩ := reached
  have next := reached.resolve machine name bench
  have appends := Session.resolve_appends machine name
  refine Step.Ensures.onSecond ?_
  rw [resolveScalar]
  refine Step.Ensures.bind
    (fun scalar after => (Session.resolve machine name).run (session, bench) = (.ok scalar, after.2))
    (Step.Ensures.onSecond (Step.Ensures.widen ((Step.Ensures.ran _ _).mono_failed ?_))) ?_
  · rintro fault ⟨after, bench'⟩ ran
    rw [ran] at next
    exact ⟨⟨unsized, next⟩, appends.of_run ran, [], rfl, EntryLog.answeredBy_nil _⟩
  · rintro scalar ⟨catalogue', after, bench'⟩ ran
    apply Step.Ensures.bind_get
    refine Step.Ensures.pure ⟨?_, .answered reached (.refl _) (.refl _) ran⟩
    rw [ran] at next
    exact ⟨⟨unsized, next⟩, appends.of_run ran, [], rfl, EntryLog.answeredBy_nil _⟩

/-- A composite is noted with the fields that it is entered with. -/
theorem enterLogged_notes {overflow : Overflow} {parts : List Piece} {session : Session}
    {state : EntryLog × Catalogue × Session × Workbench} (notes : Notes log session state)
    (answered : List.Forall₂ (fun declared (part : Piece) => declared.type.AnsweredBy
      (Session.Named session.registry state.2.2.1.registry) part.field.type)
      composite.fields parts) :
    (enterLogged overflow composite parts).Ensures state
      (fun _ after => Notes log session after) (fun _ after => Notes log session after) := by
  obtain ⟨log', catalogue, session', bench⟩ := state
  refine Step.Ensures.bind (fun _ after => after.1 = log' ∧ after.2.2 = (session', bench))
    (Step.Ensures.onSecond (Step.Ensures.onFirst ⟨fun _ _ => ⟨rfl, rfl⟩, fun _ _ => ?_⟩)) ?_
  · exact ⟨notes.reached, notes.begins, notes.added⟩
  · rintro id ⟨_, catalogue', rest⟩ ⟨rfl, rfl⟩
    refine Step.Ensures.bind (fun _ after => Notes log session after) (Step.Ensures.modify ?_)
      fun _ _ notes => Step.Ensures.pure notes
    obtain ⟨added, same, before⟩ := notes.added
    refine ⟨notes.reached, notes.begins, (composite, parts.map (·.field)) :: added,
      congrArg _ same, List.forall_mem_cons.mpr ⟨?_, before⟩⟩
    exact List.forall₂_map_right_iff.mpr answered

mutual

/-- What is noted when a composite is entered. -/
theorem createLogged_notes (machine : Machine) : (composite : Composite) →
    ∀ log catalogue session bench, (∃ unsized, Session.Reached unsized session) →
      (createLogged machine composite).Ensures (log, catalogue, session, bench)
        (fun _ after => Notes log session after) (fun _ after => Notes log session after)
  | .mk fields packing, log, catalogue, session, bench, reached => by
    rw [createLogged]
    apply Step.Ensures.bind_get
    dsimp only
    cases catalogue.lookup (.mk fields packing) with
    | some id => exact Step.Ensures.pure (.refl reached bench)
    | none =>
        by_cases filled : fields.isEmpty
        · rw [if_pos filled]
          exact Step.Ensures.bind_fail (.refl reached bench)
        · rw [if_neg filled]
          refine Step.Ensures.bind_ofExcept (fun _ _ => ?_) fun _ _ => .refl reached bench
          refine Step.Ensures.bind _
            (createFieldsLogged_notes machine fields log catalogue session bench reached) ?_
          rintro parts after ⟨notes, answered⟩
          exact enterLogged_notes notes answered

/-- What is noted when fields are resolved. -/
theorem createFieldsLogged_notes (machine : Machine) : (fields : List Field) →
    ∀ log catalogue session bench, (∃ unsized, Session.Reached unsized session) →
      (createFieldsLogged machine fields).Ensures (log, catalogue, session, bench)
        (fun parts after => Notes log session after ∧
          List.Forall₂ (fun declared (part : Piece) => declared.type.AnsweredBy
            (Session.Named session.registry after.2.2.1.registry) part.field.type) fields parts)
        (fun _ after => Notes log session after)
  | [], log, catalogue, session, bench, reached => by
    rw [createFieldsLogged]
    exact Step.Ensures.pure ⟨.refl reached bench, .nil⟩
  | .mk name type count :: others, log, catalogue, session, bench, reached => by
    rw [createFieldsLogged]
    refine Step.Ensures.bind_ofExcept (fun _ _ => ?_) fun _ _ => .refl reached bench
    refine Step.Ensures.bind _
      (createMemberLogged_notes machine type log catalogue session bench reached) ?_
    rintro ⟨resolved, size, align, part⟩ ⟨log₁, catalogue₁, session₁, bench₁⟩ ⟨notes₁, answered⟩
    refine Step.Ensures.bind _ ((createFieldsLogged_notes machine others log₁ catalogue₁ session₁
      bench₁ notes₁.reached).mono_failed fun _ _ notes => notes₁.trans notes) ?_
    rintro parts ⟨log₂, catalogue₂, session₂, bench₂⟩ ⟨notes₂, answeredOthers⟩
    refine Step.Ensures.pure ⟨notes₁.trans notes₂, .cons ?_ ?_⟩
    · exact answered.mono fun _ _ _ => .mono (.refl _) notes₂.begins
    · exact answeredOthers.imp fun _ _ => .mono fun _ _ _ => .mono notes₁.begins (.refl _)

/-- What is noted when it is resolved what a field holds. -/
theorem createMemberLogged_notes (machine : Machine) : (type : MemberType) →
    ∀ log catalogue session bench, (∃ unsized, Session.Reached unsized session) →
      (createMemberLogged machine type).Ensures (log, catalogue, session, bench)
        (fun answer after => Notes log session after ∧
          type.AnsweredBy (Session.Named session.registry after.2.2.1.registry) answer.1)
        (fun _ after => Notes log session after)
  | .scalar name, log, catalogue, session, bench, reached => by
    rw [createMemberLogged]
    refine Step.Ensures.bind _ (resolveScalar_notes machine name log catalogue bench reached) ?_
    rintro ⟨scalar, typeString⟩ after ⟨notes, named⟩
    exact Step.Ensures.pure ⟨notes, .scalar named⟩
  | .composite child, log, catalogue, session, bench, reached => by
    rw [createMemberLogged]
    refine Step.Ensures.bind _ (createLogged_notes machine child log catalogue session bench
      reached) fun id after notes => ?_
    apply Step.Ensures.bind_get
    exact Step.Ensures.pure ⟨notes, .composite child _⟩
  | .pointer child, log, catalogue, session, bench, reached => by
    rw [createMemberLogged]
    refine Step.Ensures.bind _ (createLogged_notes machine child log catalogue session bench
      reached) fun id after notes => ?_
    apply Step.Ensures.bind_get
    exact Step.Ensures.pure ⟨notes, .pointer child _⟩

end

/-- Behind a request to enter a composite the session is one that calls lead to, its registry was
only added to, and the scalars of what was entered were named in between. -/
theorem create_notes (machine : Machine) (composite : Composite) (log : EntryLog)
    (catalogue : Catalogue) (rest : Session × Workbench)
    (reached : ∃ unsized, Session.Reached unsized rest.1) :
    Notes log rest.1 (logAfter machine composite log catalogue rest,
      ((create machine composite).run (catalogue, rest)).2) := by
  have notes := Step.Ensures.of_run (fun after => Notes log rest.1 after)
    (createLogged_notes machine composite log catalogue rest.1 rest.2 reached) rfl
  rw [← (erases_createLogged machine composite log (catalogue, rest)).2]
  exact notes

end Catalogue

end TypeBridge
