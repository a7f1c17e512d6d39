import TypeBridge.Proofs.Types.Resolving

/-!
# Mapping by way of another system

A map that is built leads every registered type to a type of its system with the same facts
(`TypeMap.get?_of_known`). What it leads to depends on the facts alone unless the type is of that
system already, so that a detour through a third system ends where the direct way does
(`TypeMap.get?_through`).
-/

namespace TypeBridge

namespace Registry

variable {registry : Registry} {target : TypeSystem} {name other via last : TypeName}
  {info : TypeInfo}

/-- The counterpart of a type of another system is the same for all types with its facts. -/
theorem Counterpart.unique (counterpart : registry.Counterpart target name info other)
    (again : registry.Counterpart target via info last) (outside : name.system ≠ target)
    (outside' : via.system ≠ target) : other = last := by
  cases counterpart with
  | own inside => exact absurd inside outside
  | other _ of stands =>
      cases again with
      | own inside => exact absurd inside outside'
      | other _ of' stands' =>
          cases of.symm.trans of'
          exact stands.unique stands'

end Registry

namespace TypeMap

variable {registry : Registry} {target source : TypeSystem} {map through : TypeMap}
  {name : TypeName} {info : TypeInfo}

/-- A map that is built lists the registered types, in the order of registration. -/
theorem names_built (sound : registry.Sound) (built : build registry target = .ok map) :
    registry.toList.map (·.1) = map.entries.map (·.1) := by
  rcases build_cases sound target with ⟨_, -, failed⟩ | ⟨clear, ⟨-, failed⟩ | ⟨none, made⟩⟩
  · cases failed.symm.trans built
  · cases failed.symm.trans built
  · cases made.symm.trans built
    rw [← List.forall₂_eq_eq_eq, List.forall₂_map_left_iff, List.forall₂_map_right_iff]
    exact (sound.paired clear none).imp fun _ _ pairs => pairs.1.symm

/-- A map that is built leads from every registered type to its counterpart. -/
theorem get?_of_known (sound : registry.Sound) (built : build registry target = .ok map)
    (known : registry.info? name = some info) :
    ∃ other, map.get? name = some other ∧ registry.Counterpart target name info other := by
  have listed : name ∈ map.entries.map (·.1) := by
    obtain ⟨entry, present, rfl, -⟩ := Registry.exists_of_info? known
    rw [← names_built sound built, Registry.toList, List.map_map]
    exact List.mem_map_of_mem present
  cases found : map.get? name with
  | none =>
      obtain ⟨pair, member, same⟩ := List.mem_map.mp listed
      simpa [same] using List.lookup_eq_none_iff.mp found pair member
  | some other =>
      obtain ⟨info', known', counterpart⟩ := get?_built sound built found
      cases known.symm.trans known'
      exact ⟨other, rfl, counterpart⟩

/-- A map leads every registered type to a registered type of its system with the same facts, which
it leads to itself. Another map leads both to the same type, unless the first one is of its system
already. -/
theorem get?_through (reached : registry.Reached) (via : build registry source = .ok through)
    (built : build registry target = .ok map) (known : registry.info? name = some info) :
    ∃ between, through.get? name = some between ∧
      (name.isPointer = false → through.resolve name = .ok between) ∧
      between.system = source ∧ registry.info? between = some info ∧
      through.get? between = some between ∧
      (source ≠ target → name.system ≠ target →
        ∃ other, map.get? name = some other ∧ map.get? between = some other) := by
  have sound := reached.sound
  obtain ⟨between, found, counterpart⟩ := get?_of_known sound via known
  obtain ⟨inside, same, -⟩ := counterpart.agrees sound known
  refine ⟨between, found, fun plain => ?_, inside, same, ?_, fun apart outside => ?_⟩
  · rw [resolve, if_neg (by simp [plain]), found]
  · obtain ⟨fixed, found', counterpart'⟩ := get?_of_known sound via same
    rw [found', (counterpart'.agrees sound same).2.2 inside]
  · obtain ⟨other, direct, counterpart⟩ := get?_of_known sound built known
    obtain ⟨last, onward, counterpart'⟩ := get?_of_known sound built same
    refine ⟨other, direct, ?_⟩
    rw [onward, counterpart.unique counterpart' outside (by rwa [inside])]

/-- One integer in each system, and a second name for it in one of them. -/
def oneInteger : Registry :=
  ((Registry.register (.native "int") (.signed 4)).run
    ((Registry.register (.ffi "c_int") (.signed 4)).run
      ((Registry.register (.ffi "c_int32") (.signed 4)).run
        ((Registry.register (.arrayLib "int32") (.signed 4)).run .empty).2).2).2).2

/-- The second name comes by the native one to the integer of the array library. -/
theorem get?_through_oneInteger :
    oneInteger.Reached ∧ ∃ through map, build oneInteger .native = .ok through ∧
      build oneInteger .arrayLib = .ok map ∧
      oneInteger.info? (.ffi "c_int") = some (.signed 4) ∧
      ∃ between other, through.get? (.ffi "c_int") = some between ∧ between.system = .native ∧
        map.get? (.ffi "c_int") = some other ∧ map.get? between = some other := by
  have reached : oneInteger.Reached :=
    .register (.register (.register (.register .empty _ _) _ _) _ _) _ _
  have known : oneInteger.info? (.ffi "c_int") = some (.signed 4) := by decide +kernel
  obtain ⟨through, via⟩ : ∃ through, build oneInteger .native = .ok through :=
    exists_of_isOk (by decide +kernel)
  obtain ⟨map, built⟩ : ∃ map, build oneInteger .arrayLib = .ok map :=
    exists_of_isOk (by decide +kernel)
  obtain ⟨between, found, -, inside, -, -, onward⟩ := get?_through reached via built known
  obtain ⟨other, direct, last⟩ := onward (by decide) (by decide)
  exact ⟨reached, through, map, via, built, known, between, other, found, inside, direct, last⟩

end TypeMap

end TypeBridge
