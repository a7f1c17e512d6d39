import TypeBridge.Proofs.Probe.Probing
import TypeBridge.Proofs.Types.FamilyRows
import TypeBridge.Proofs.Types.Growing
import TypeBridge.Proofs.Types.Spelling
import TypeBridge.Scripted.Compiler
import TypeBridge.Types.Session

/-!
# Learning native names

`Session.Learning` lists all that can come of asking for native names: nothing is missing, the probe
of the missing ones fails and the session stays as it was, or its facts are all taken in. Every call
of `ensureNative` is one of these (`ensureNative_learning`). If what is noted as probed is
registered, the names probed are exactly those wanted that are not registered
(`ensureNative_exact`).
-/

namespace TypeBridge.Session

variable {machine : Machine} {session : Session} {bench : Workbench} {names : List String}
  {text : String} {facts : List (TypeName × TypeInfo)}

/-- The native names that a request wants known: the built-in ones, then those asked for in normal
form. Nothing is to be known of pointers. -/
def wanted (names : List String) : List String :=
  Builtin.nativeNames ++ ((names.map TypeName.native).filter (!·.isPointer)).map (·.text)

/-- The wanted names that are not registered, each once. -/
def unregistered (session : Session) (names : List String) : List String :=
  ((wanted names).filter fun text => !session.registry.contains (.native text)).eraseDups

/-- Whatever is noted as probed is registered. -/
def Known (session : Session) : Prop :=
  ∀ text ∈ session.probed, session.registry.contains (.native text)

instance (session : Session) : Decidable session.Known :=
  inferInstanceAs (Decidable (∀ text ∈ session.probed, session.registry.contains (.native text)))

/-! ## Names that are missing -/

/-- The built-in names are in normal form, and none of them is a pointer. -/
theorem wanted_eq (names : List String) : wanted names =
    (((Builtin.nativeNames ++ names).map TypeName.native).filter (!·.isPointer)).map (·.text) := by
  have builtin : ((Builtin.nativeNames.map TypeName.native).filter (!·.isPointer)).map (·.text) =
      Builtin.nativeNames := by decide +kernel
  rw [List.map_append, List.filter_append, List.map_append, builtin, wanted]

/-- A wanted name spells itself, and is no pointer. -/
theorem native_of_mem_wanted (member : text ∈ wanted names) :
    (TypeName.native text).text = text ∧ (TypeName.native text).isPointer = false := by
  rw [wanted_eq] at member
  obtain ⟨name, listed, rfl⟩ := List.mem_map.mp member
  obtain ⟨spelled, plain⟩ := List.mem_filter.mp listed
  obtain ⟨spelling, -, rfl⟩ := List.mem_map.mp spelled
  rw [TypeName.native_text]
  exact ⟨rfl, by simpa using plain⟩

/-- The names collected are the texts of the unknown types, each once. -/
theorem collectMissing_eq (session : Session) (types : List TypeName) (before : List String) :
    session.collectMissing types before.eraseDups =
      (before ++ (types.filter session.isUnknown).map (·.text)).eraseDups := by
  induction types generalizing before with
  | nil => simp [collectMissing]
  | cons name rest ih =>
      cases unknown : session.isUnknown name with
      | false => simp [collectMissing, unknown, ih]
      | true =>
          have step : session.collectMissing (name :: rest) before.eraseDups =
              session.collectMissing rest (before ++ [name.text]).eraseDups := by
            by_cases listed : name.text ∈ before
            · simp [collectMissing, unknown, Registry.eraseDups_concat, listed]
            · simp [collectMissing, unknown, Registry.eraseDups_concat, listed]
          rw [step, ih, List.filter_cons_of_pos unknown, List.map_cons, List.append_assoc,
            List.singleton_append]

/-- The missing names are the wanted ones that are neither noted nor registered. -/
theorem missing_eq (session : Session) (names : List String) : session.missing names =
    ((wanted names).filter fun text =>
      !session.probed.contains text && !session.registry.contains (.native text)).eraseDups := by
  have collected := session.collectMissing_eq
    ((Builtin.nativeNames ++ names).map TypeName.native) []
  rw [List.nil_append] at collected
  rw [missing, ← List.eraseDups_nil, collected, wanted_eq,
    List.filter_map (f := TypeName.text), List.filter_filter]
  congr 2
  refine List.filter_congr fun name member => ?_
  obtain ⟨spelling, -, rfl⟩ := List.mem_map.mp member
  simp only [isUnknown, Function.comp, TypeName.native_text]
  cases (TypeName.native spelling).isPointer <;> simp

/-- If all that is noted is registered, the missing names are the unregistered ones. -/
theorem Known.missing_eq (known : session.Known) (names : List String) :
    session.missing names = session.unregistered names := by
  rw [Session.missing_eq, unregistered]
  congr 1
  refine List.filter_congr fun text _ => ?_
  cases registered : session.registry.contains (.native text) with
  | true => simp
  | false =>
      have unnoted : text ∉ session.probed := by
        intro noted
        simp [known text noted] at registered
      simp [unnoted]

/-- A missing name is wanted and neither noted nor registered. -/
theorem mem_missing : text ∈ session.missing names ↔
    text ∈ wanted names ∧ text ∉ session.probed ∧
      session.registry.contains (.native text) = false := by
  rw [missing_eq, List.mem_eraseDups, List.mem_filter]
  simp

theorem nodup_eraseDups (texts : List String) : texts.eraseDups.Nodup := by
  induction texts using List.reverseRecOn with
  | nil => exact List.nodup_nil
  | append_singleton texts last ih =>
      rw [Registry.eraseDups_concat]
      split
      · exact ih
      · rename_i absent
        exact List.nodup_append.mpr ⟨ih, by simp, fun text member other single same =>
          absent (by simpa [same, List.mem_singleton.mp single] using member)⟩

/-! ## Facts that are taken in -/

/-- Facts that can be taken in: sizes of types that are neither noted nor registered, each once. -/
structure Fresh (session : Session) (facts : List (TypeName × TypeInfo)) : Prop where
  once : (facts.map (·.1.text)).Nodup
  unnoted : ∀ fact ∈ facts, fact.1.text ∉ session.probed
  unknown : ∀ fact ∈ facts, session.registry.info? fact.1 = none
  sized : ∀ fact ∈ facts, fact.2.size.isSome

/-- A session that has taken in some facts. -/
def noting (session : Session) (facts : List (TypeName × TypeInfo)) : Session :=
  { session with
    registry := facts.foldl (fun registry (name, info) => registry.insert name info)
      session.registry
    probed := session.probed ++ facts.map (·.1.text)
    maps := [] }

theorem run_onRegistry {α : Type} (step : Step Registry TypeFault α) (session : Session) :
    (onRegistry step).run session =
      ((step.run session.registry).1,
        { session with registry := (step.run session.registry).2 }) := rfl

/-- A new type with a size is registered. -/
theorem register_new (session : Session) {name : TypeName} {info : TypeInfo}
    (unknown : session.registry.info? name = none) (sized : info.size.isSome) :
    (register name info).run session =
      (.ok true, { session with registry := session.registry.insert name info, maps := [] }) := by
  have inserted : (Registry.register name info).run session.registry =
      (.ok true, session.registry.insert name info) := by
    simp [Step.run, Registry.register, unknown, Option.ne_none_iff_isSome.mpr sized]
  rw [register, Step.run_bind, run_onRegistry, inserted]
  rfl

theorem markProbed_new (unnoted : text ∉ session.probed) :
    session.markProbed text = { session with probed := session.probed ++ [text] } := by
  simp [markProbed, unnoted]

/-- Facts can be taken in one after the other. -/
theorem noting_cons (session : Session) (fact : TypeName × TypeInfo)
    (rest : List (TypeName × TypeInfo)) :
    (session.noting [fact]).noting rest = session.noting (fact :: rest) := by
  simp [noting]

/-- Facts that can be taken in still can behind the first of them. -/
theorem Fresh.behind {fact : TypeName × TypeInfo} (fresh : session.Fresh (fact :: facts)) :
    (session.noting [fact]).Fresh facts := by
  obtain ⟨apart, once⟩ := List.nodup_cons.mp fresh.once
  refine ⟨once, ?_, ?_, fun later member => fresh.sized later (List.mem_cons_of_mem _ member)⟩
  · intro later member noted
    rcases List.mem_append.mp noted with before | now
    · exact fresh.unnoted later (List.mem_cons_of_mem _ member) before
    · exact apart (List.mem_map.mpr ⟨later, member, List.mem_singleton.mp now⟩)
  · intro later member
    refine Registry.info?_insert_eq_none ?_ (fresh.unknown later (List.mem_cons_of_mem _ member))
    intro same
    exact apart (List.mem_map.mpr ⟨later, member, congrArg TypeName.text same⟩)

/-- Facts about missing names are all taken in. -/
theorem learn_run (fresh : session.Fresh facts) (some : facts ≠ []) :
    (learn facts).run session = (.ok (), session.noting facts) := by
  induction facts generalizing session with
  | nil => exact absurd rfl some
  | cons fact rest ih =>
      obtain ⟨name, info⟩ := fact
      have first : (learn ((name, info) :: rest)).run session =
          (learn rest).run (session.noting [(name, info)]) := by
        have inserted := register_new { session with probed := session.probed ++ [name.text] }
          (fresh.unknown _ List.mem_cons_self) (fresh.sized _ List.mem_cons_self)
        simp only [learn, Step.run_bind, Step.run_modify,
          markProbed_new (fresh.unnoted _ List.mem_cons_self), inserted]
        rfl
      rw [first]
      by_cases last : rest = []
      · rw [last]
        rfl
      · rw [ih fresh.behind last, noting_cons]

/-! ## Asking for native names -/

/-- What can come of asking for some missing names. -/
inductive Learning (machine : Machine) (session : Session) (bench : Workbench)
    (missing : List String) : Except TypeFault Unit × Session × Workbench → Prop
  /-- Nothing is missing: nothing is started and nothing changes. -/
  | idle (none : missing = []) : Learning machine session bench missing (.ok (), session, bench)
  /-- The probe of the missing names failed: what is known of types stays as it was. -/
  | failed {after : Workbench} {fault : TypeFault} (some : missing ≠ [])
      (took : Probe.Took machine session.config session.probeHeaders missing bench after
        (.error fault)) :
      Learning machine session bench missing (.error fault, session, after)
  /-- The facts that the probe of the missing names reported are all taken in. -/
  | learned {after : Workbench} {facts : List (TypeName × TypeInfo)} (some : missing ≠ [])
      (took : Probe.Took machine session.config session.probeHeaders missing bench after
        (.ok facts))
      (named : facts.map (·.1) = missing.map TypeName.native) :
      Learning machine session bench missing (.ok (), session.noting facts, after)

/-- A fact that was asked for is about a type that was asked about. -/
theorem exists_of_named {texts : List String} {fact : TypeName × TypeInfo}
    (named : facts.map (·.1) = texts.map TypeName.native) (member : fact ∈ facts) :
    ∃ text ∈ texts, fact.1 = .native text := by
  have listed : fact.1 ∈ texts.map TypeName.native := named ▸ List.mem_map_of_mem member
  obtain ⟨text, asked, same⟩ := List.mem_map.mp listed
  exact ⟨text, asked, same.symm⟩

/-- A fact that was asked for is about a native type in normal form. -/
theorem native_of_named {texts : List String} {fact : TypeName × TypeInfo}
    (named : facts.map (·.1) = texts.map TypeName.native) (member : fact ∈ facts) :
    TypeName.native fact.1.text = fact.1 := by
  obtain ⟨text, -, same⟩ := exists_of_named named member
  rw [same, TypeName.native_text]

/-- Facts reported about missing names can be taken in. -/
theorem fresh_of_named (named : facts.map (·.1) = (session.missing names).map TypeName.native)
    (sized : ∀ fact ∈ facts, fact.2.size.isSome) : session.Fresh facts := by
  have texts : facts.map (·.1.text) = session.missing names := by
    have spelled := congrArg (List.map TypeName.text) named
    rw [List.map_map, List.map_map] at spelled
    refine spelled.trans ((List.map_congr_left fun text member => ?_).trans (List.map_id _))
    exact (native_of_mem_wanted (mem_missing.mp member).1).1
  refine ⟨?_, ?_, ?_, sized⟩
  · rw [texts, missing_eq]
    exact nodup_eraseDups _
  · intro fact member
    have listed : fact.1.text ∈ session.missing names := texts ▸ List.mem_map_of_mem member
    exact (mem_missing.mp listed).2.1
  · intro fact member
    obtain ⟨text, listed, same⟩ := exists_of_named named member
    have unregistered := (mem_missing.mp listed).2.2
    rw [same, Registry.info?_eq_none_iff]
    simpa [Registry.contains] using unregistered

/-- Every request for native names ends in one of these ways. -/
theorem ensureNative_learning (machine : Machine) (session : Session) (names : List String)
    (bench : Workbench) : Learning machine session bench (session.missing names)
      ((ensureNative machine names).run (session, bench)) := by
  by_cases none : session.missing names = []
  · have ran : (ensureNative machine names).run (session, bench) = (.ok (), session, bench) := by
      simp [ensureNative, Step.run_bind, none]
    rw [ran]
    exact .idle none
  · have took := Probe.probe_course machine session.config session.probeHeaders none bench
    cases probed : (Probe.probe machine session.config session.probeHeaders
        (session.missing names)).run bench with
    | mk result after =>
        rw [probed] at took
        cases result with
        | error fault =>
            have ran : (ensureNative machine names).run (session, bench) =
                (.error fault, session, after) := by
              simp [ensureNative, Step.run_bind, Step.run_onSecond, none, probed]
            rw [ran]
            exact .failed none took
        | ok facts =>
            obtain ⟨named, sized⟩ := took.named
            have some : facts ≠ [] := by
              rintro rfl
              exact none (List.map_eq_nil_iff.mp named.symm)
            have ran : (ensureNative machine names).run (session, bench) =
                (.ok (), session.noting facts, after) := by
              simp [ensureNative, Step.run_bind, Step.run_onSecond, Step.run_onFirst, none, probed,
                learn_run (fresh_of_named named sized) some]
            rw [ran]
            exact .learned none took named

/-! ## Names that are settled -/

/-- Nothing is to be asked about the wanted names of a request. -/
def Settled (session : Session) (names : List String) : Prop :=
  ∀ text ∈ wanted names, text ∈ session.probed ∨ session.registry.contains (.native text)

theorem settled_iff : session.Settled names ↔ session.missing names = [] := by
  rw [List.eq_nil_iff_forall_not_mem]
  refine forall_congr' fun text => ?_
  rw [mem_missing]
  by_cases noted : text ∈ session.probed
  · simp [noted]
  · simp [noted]

/-- A request about settled names starts nothing and changes nothing. -/
theorem Settled.run_ensureNative (settled : session.Settled names) (machine : Machine)
    (bench : Workbench) :
    (ensureNative machine names).run (session, bench) = (.ok (), session, bench) := by
  simp [ensureNative, Step.run_bind, settled_iff.mp settled]

/-- A request settles at most the names that another one, and what it names, settles. -/
theorem Settled.of_mem {again : List String} (settled : session.Settled names)
    (listed : ∀ name ∈ again, name ∈ Builtin.nativeNames ++ names ∨ name ∈ wanted names) :
    session.Settled again := by
  intro text member
  refine settled text ?_
  rcases List.mem_append.mp member with builtin | requested
  · exact List.mem_append_left _ builtin
  · obtain ⟨name, listed', rfl⟩ := List.mem_map.mp requested
    obtain ⟨spelled, plain⟩ := List.mem_filter.mp listed'
    obtain ⟨spelling, asked, rfl⟩ := List.mem_map.mp spelled
    rcases listed spelling asked with before | normal
    · rw [wanted_eq]
      exact List.mem_map_of_mem (List.mem_filter.mpr ⟨List.mem_map_of_mem before, plain⟩)
    · rw [(native_of_mem_wanted normal).1]
      exact normal

/-- Taking in facts registers the types that they are about. -/
theorem contains_noting {name : TypeName} : (session.noting facts).registry.contains name ↔
    session.registry.contains name ∨ name ∈ facts.map (·.1) := by
  induction facts generalizing session with
  | nil => simp [noting]
  | cons fact rest ih =>
      have first : (session.noting [fact]).registry.contains name ↔
          session.registry.contains name ∨ name = fact.1 :=
        Registry.contains_insert.trans (or_congr_right eq_comm)
      rw [← noting_cons, ih, first, List.map_cons, List.mem_cons, or_assoc]

/-- A request that goes well settles its names. -/
theorem Learning.settled {after : Session} {last : Workbench}
    (learning : Learning machine session bench (session.missing names) (.ok (), after, last)) :
    after.Settled names := by
  cases learning with
  | idle none => exact settled_iff.mpr none
  | learned some took named =>
      intro text member
      rw [contains_noting, named]
      by_cases missing : text ∈ session.missing names
      · exact .inr (.inr (List.mem_map_of_mem missing))
      · by_cases noted : text ∈ session.probed
        · exact .inl (List.mem_append_left _ noted)
        · have registered : session.registry.contains (.native text) := by
            by_contra unregistered
            exact missing (mem_missing.mpr ⟨member, noted, by simpa using unregistered⟩)
          exact .inr (.inl registered)

/-- A request registers no other types than the missing ones. -/
theorem Learning.contains {result : Except TypeFault Unit} {after : Session} {last : Workbench}
    {missing : List String} {name : TypeName}
    (learning : Learning machine session bench missing (result, after, last))
    (registered : after.registry.contains name) :
    session.registry.contains name ∨ name ∈ missing.map TypeName.native := by
  cases learning with
  | idle => exact .inl registered
  | failed => exact .inl registered
  | learned some took named => exact named ▸ contains_noting.mp registered

/-- Taking in facts about missing names leaves everything noted registered. -/
theorem Learning.known {result : Except TypeFault Unit} {after : Session} {last : Workbench}
    {missing : List String} (known : session.Known)
    (learning : Learning machine session bench missing (result, after, last)) : after.Known := by
  cases learning with
  | idle => exact known
  | failed => exact known
  | learned some took named =>
      intro text noted
      rw [contains_noting]
      rcases List.mem_append.mp noted with before | now
      · exact .inl (known text before)
      · obtain ⟨fact, member, rfl⟩ := List.mem_map.mp now
        rw [native_of_named named member]
        exact .inr (List.mem_map_of_mem member)

/-- A request for native names is exact. Only the wanted names that are not registered are asked
about, all in one program and in their order; the session stays as it was unless the probe
succeeds, and then all its facts are taken in. Those names are settled then. -/
theorem ensureNative_exact (known : session.Known) (machine : Machine) (names : List String)
    (bench : Workbench) :
    let ran := (ensureNative machine names).run (session, bench)
    Learning machine session bench (session.unregistered names) ran ∧ ran.2.1.Known ∧
      (ran.1 = .ok () → ∀ later again,
        (∀ name ∈ again, name ∈ Builtin.nativeNames ++ names ∨ name ∈ session.unregistered names) →
        (ensureNative later again).run ran.2 = (.ok (), ran.2)) := by
  intro ran
  have learning := ensureNative_learning machine session names bench
  have settles : ran.1 = .ok () → ran.2.1.Settled names := by
    intro ok
    rw [show (ensureNative machine names).run (session, bench) = (.ok (), ran.2) from
      Prod.ext ok rfl] at learning
    exact learning.settled
  refine ⟨known.missing_eq names ▸ learning, learning.known known, ?_⟩
  intro ok later again listed
  refine ((settles ok).of_mem fun name member => ?_).run_ensureNative later _
  exact (listed name member).imp_right fun unregistered =>
    (List.mem_filter.mp (List.mem_eraseDups.mp unregistered)).1

/-- A session that was told the facts about all built-in names. -/
def wordSession : Session :=
  ((registerNatives Scripted.wordTypes).run (.start (.standardFor .linux))).2

/-- A session that was told these facts as its first. -/
def toldFirst (facts : List (String × TypeInfo)) : Session :=
  ((registerNatives facts).run (.start (.standardFor .linux))).2

/-- A machine whose compiler always leaves a program, and whose programs all print one text. -/
def printing (text : String) : Machine where
  start job files :=
    let written := job.args.getLast?.elim files fun output =>
      (files.write output (.octets [])).toOption.getD files
    (.ok (.ended ⟨.exited 0, Text.Utf8.encode text, []⟩), written)
  overflow := .caught

/-- A name that is spelled twice is asked about once; one that is known is not asked about. -/
theorem ensureNative_exact_wordSession :
    let machine := printing "[[\"native\", \"int16_t\", \"signed\", \"integer\", 2]]"
    let bench : Workbench := .fresh "/tmp" .empty
    wordSession.Known ∧ ∃ after,
      (ensureNative machine ["int16_t", "short", " int16_t "]).run (wordSession, bench) =
        (.ok (), after) ∧
      Learning machine wordSession bench ["int16_t"] (.ok (), after) ∧ after.1.Known ∧
      ∀ machine, (ensureNative machine ["int16_t"]).run after = (.ok (), after) := by
  intro machine bench
  have facts : wordSession.Known ∧
      wordSession.unregistered ["int16_t", "short", " int16_t "] = ["int16_t"] ∧
      ((ensureNative machine ["int16_t", "short", " int16_t "]).run
        (wordSession, bench)).1.isOk := by
    decide +kernel
  obtain ⟨known, missing, good⟩ := facts
  obtain ⟨⟨⟩, after, ran⟩ := Step.exists_of_run_isOk good
  obtain ⟨learning, after', again⟩ := ensureNative_exact known machine
    ["int16_t", "short", " int16_t "] bench
  rw [ran] at learning after' again
  rw [missing] at learning again
  exact ⟨known, after, ran, learning, after', fun machine => again rfl machine _ fun _ => .inr⟩

end TypeBridge.Session
