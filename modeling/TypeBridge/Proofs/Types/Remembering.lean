import TypeBridge.Proofs.Types.Sessions

/-!
# What sessions remember

A session notes the names that are not to be probed and stores the maps that it built. The stored
maps never matter: a map is what would be built anew (`typeMap_fresh`). The noted names do: facts
without a size are refused after their name was noted, so that it is neither registered nor ever
asked about. `known_iff` says which names that concerns.
-/

namespace TypeBridge.Session

variable {unsized : List String} {session : Session} {text : String}

/-! ## Noted names -/

/-- The facts about a settled name are those that are registered. -/
theorem run_nativeInfo (settled : session.Settled [text]) (machine : Machine) (bench : Workbench) :
    (nativeInfo machine text).run (session, bench) =
      ((session.registry.info? (.native text)).elim (.error (.unregistered (.native text))) .ok,
        session, bench) := by
  rw [nativeInfo, Step.run_bind, settled.run_ensureNative machine bench]
  exact run_registeredInfo _ _

/-- Whatever is noted is registered exactly if the names are for which facts without a size were
handed over. A request for native names that goes well registers all of them but such names, unless
they were registered before; asking for the facts about a name answers with what is registered. -/
theorem known_iff (reached : Reached unsized session) :
    (session.Known ↔ ∀ text ∈ unsized, session.registry.contains (.native text)) ∧
    ∀ machine names bench after,
      (ensureNative machine names).run (session, bench) = (.ok (), after) →
      ∀ text ∈ wanted names,
        (after.1.registry.contains (.native text) ↔
          session.registry.contains (.native text) ∨ text ∉ unsized) ∧
        ∀ machine, (nativeInfo machine text).run after =
          ((after.1.registry.info? (.native text)).elim (.error (.unregistered (.native text))) .ok,
            after) := by
  refine ⟨⟨fun known text listed => known text (reached.traced.noted text listed), ?_⟩, ?_⟩
  · intro registered text noted
    exact (reached.excused text noted).elim id (registered text)
  · rintro machine names bench ⟨after, last⟩ ran text member
    have learning := ensureNative_learning machine session names bench
    rw [ran] at learning
    have settled := learning.settled
    have changes : Changes unsized session after := learning.changes
    refine ⟨⟨?_, ?_⟩, ?_⟩
    · intro registered
      refine (learning.contains registered).imp_right fun asked unsized => ?_
      obtain ⟨name, missing, same⟩ := List.mem_map.mp asked
      have spelled := congrArg TypeName.text same
      rw [(native_of_mem_wanted (mem_missing.mp missing).1).1, (native_of_mem_wanted member).1]
        at spelled
      exact (mem_missing.mp missing).2.1 (spelled ▸ reached.traced.noted text unsized)
    · rintro (registered | sized)
      · exact changes.grows.contains registered
      · rcases settled text member with noted | registered
        · exact (changes.excused reached.excused text noted).resolve_right sized
        · exact registered
    · intro machine
      refine run_nativeInfo (settled.of_mem fun name asked => .inr ?_) machine last
      rw [List.mem_singleton.mp asked]
      exact member

/-- A session that was told of a type without its size. -/
def refusedSession : Session :=
  ((registerNative "int16_t" ⟨.signed, .integer, none⟩).run wordSession).2

/-- The name is spelled as it was given, wanted and noted, so that nothing is missing, and nothing is
registered under it. -/
theorem facts_refusedSession : (TypeName.native "int16_t").text = "int16_t" ∧
    "int16_t" ∈ wanted ["int16_t"] ∧ "int16_t" ∈ refusedSession.probed ∧
    refusedSession.missing ["int16_t"] = [] ∧
    refusedSession.registry.info? (.native "int16_t") = none := by decide +kernel

theorem reached_refusedSession : Reached ["int16_t"] refusedSession := by
  have next := reached_wordSession.registerNative "int16_t" ⟨.signed, .integer, none⟩
  rw [if_neg (by decide), facts_refusedSession.1] at next
  exact next

theorem wanted_int16 : "int16_t" ∈ wanted ["int16_t"] := facts_refusedSession.2.1

theorem settled_refusedSession : refusedSession.Settled ["int16_t"] :=
  settled_iff.mpr facts_refusedSession.2.2.2.1

theorem unregistered_refusedSession :
    refusedSession.registry.info? (.native "int16_t") = none := facts_refusedSession.2.2.2.2

/-- Facts without a size are refused, but nothing is ever asked about the name again. -/
theorem known_iff_refusedSession : Reached ["int16_t"] refusedSession ∧ ¬refusedSession.Known ∧
    ∀ machine bench,
      (ensureNative machine ["int16_t"]).run (refusedSession, bench) =
        (.ok (), refusedSession, bench) ∧
      (nativeInfo machine "int16_t").run (refusedSession, bench) =
        (.error (.unregistered (.native "int16_t")), refusedSession, bench) := by
  refine ⟨reached_refusedSession, fun known => ?_, fun machine bench => ?_⟩
  · have registered := (known_iff reached_refusedSession).1.mp known "int16_t" List.mem_cons_self
    simp [Registry.contains_iff, unregistered_refusedSession] at registered
  · have ran := settled_refusedSession.run_ensureNative machine bench
    have info := ((known_iff reached_refusedSession).2 machine _ bench _ ran _ wanted_int16).2
      machine
    rw [unregistered_refusedSession] at info
    exact ⟨ran, info⟩

/-- Not all that is noted is registered, and not all that was asked about is known. -/
theorem forgets_refusedSession :
    (¬ ∀ unsized session, Reached unsized session → session.Known) ∧
    ¬ ∀ unsized session, Reached unsized session → ∀ machine names bench after,
      (ensureNative machine names).run (session, bench) = (.ok (), after) →
      ∀ text ∈ wanted names, after.1.registry.contains (.native text) ∧
        ∃ info, ((nativeInfo machine text).run after).1 = .ok info := by
  constructor
  · intro claim
    have noted := facts_refusedSession.2.2.1
    have registered := claim _ _ reached_refusedSession "int16_t" noted
    simp [Registry.contains_iff, unregistered_refusedSession] at registered
  · intro claim
    obtain ⟨registered, -⟩ := claim _ _ reached_refusedSession (printing "") _
      (.fresh "/tmp" .empty) _ (settled_refusedSession.run_ensureNative _ _) _ wanted_int16
    simp [Registry.contains_iff, unregistered_refusedSession] at registered

/-! ## Stored maps -/

/-- The map into a system, built anew from what is registered. -/
def freshMap (machine : Machine) (target : TypeSystem) : SessionStep TypeMap := do
  ensureNative machine []
  let (session, _) ← Step.get
  Step.ofExcept (TypeMap.build session.registry target)

/-- Apart from what is stored, a stored map is one that is built anew. -/
theorem Coherent.storedMap (coherent : session.Coherent) (target : TypeSystem)
    (bench : Workbench) : ∃ maps, (storedMap target).run (session, bench) =
      (TypeMap.build session.registry target, { session with maps := maps }, bench) := by
  rw [Session.storedMap, Step.run_bind, Step.run_get]
  dsimp only
  cases stored : session.maps.lookup target with
  | some map =>
      obtain ⟨front, back, split, -⟩ := List.lookup_eq_some_iff.mp stored
      have built := coherent (target, map) (by simp [split])
      exact ⟨session.maps, by rw [built]; rfl⟩
  | none =>
      dsimp only
      rw [Step.run_onFirst, run_buildMap]
      cases built : TypeMap.build session.registry target with
      | error fault => exact ⟨session.maps, rfl⟩
      | ok map => exact ⟨(target, map) :: session.maps, rfl⟩

/-- Stored maps are those that would be built, and nobody can tell one that is stored from one that
is built anew. -/
theorem typeMap_fresh (reached : Reached unsized session) :
    session.Coherent ∧ ∀ machine target bench,
      let stored := (typeMap machine target).run (session, bench)
      let fresh := (freshMap machine target).run (session, bench)
      stored.1 = fresh.1 ∧ stored.2.1.forgetMaps = fresh.2.1.forgetMaps ∧
        stored.2.2 = fresh.2.2 := by
  refine ⟨reached.steady.coherent, fun machine target bench => ?_⟩
  have leads : Leads unsized (ensureNative machine []) := ensureNative_leads machine []
  rw [typeMap_eq, freshMap, Step.run_bind, Step.run_bind]
  cases ran : (ensureNative machine []).run (session, bench) with
  | mk result after =>
      cases result with
      | error fault => exact ⟨rfl, rfl, rfl⟩
      | ok _ =>
          have coherent := ((leads.of_run ran).steady reached.steady).coherent
          obtain ⟨maps, stored⟩ := coherent.storedMap target after.2
          refine ⟨?_, ?_, ?_⟩
          all_goals
            dsimp only
            rw [stored]
            rfl

/-- A session with a stored map. -/
def mappedSession : Session :=
  ((typeMap (printing "") .ffi).run (wordSession, .fresh "/tmp" .empty)).2.1

/-- A session that has kept a map answers the freshly built one. -/
theorem typeMap_fresh_mappedSession : Reached [] mappedSession ∧
    mappedSession.maps.map (·.1) = [.ffi] ∧ mappedSession.Coherent ∧
    ∀ machine target bench, ((typeMap machine target).run (mappedSession, bench)).1 =
      ((freshMap machine target).run (mappedSession, bench)).1 := by
  have reached : Reached [] mappedSession := reached_wordSession.typeMap _ _ _
  obtain ⟨coherent, fresh⟩ := typeMap_fresh reached
  refine ⟨reached, by decide +kernel, coherent, fun machine target bench => ?_⟩
  exact (fresh machine target bench).1

end TypeBridge.Session
