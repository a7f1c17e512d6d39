import Mathlib.Logic.Relation
import TypeBridge.Proofs.Types.Growing
import TypeBridge.Types.Session

/-!
# Changes of a session

A `Session.Change` is the smallest that happens to a session: a header, a noted name, a new type, a
preference or a stored map. Whatever one change keeps, any number of them keep (`Changes`):
registries stay sound and grow, the stored maps are those that would be built, and names are noted
for good.
-/

namespace TypeBridge.Session

open Relation (ReflTransGen)

variable {unsized : List String} {session before after : Session} {text : String}

/-- The smallest change of a session. A name that is noted is registered, or is one of those for
which facts without a size were handed over. -/
inductive Change (unsized : List String) (session : Session) : Session → Prop
  | headed (header : String) : Change unsized session (session.addProbeHeader header)
  | noted (text : String)
      (excused : session.registry.contains (.native text) ∨ text ∈ unsized) :
      Change unsized session (session.markProbed text)
  | inserted (name : TypeName) (info : TypeInfo) (unknown : session.registry.info? name = none)
      (sized : info.size.isSome) :
      Change unsized session
        { session with registry := session.registry.insert name info, maps := [] }
  | preferred (place : Nat) :
      Change unsized session
        { session with registry := session.registry.markPreferred place, maps := [] }
  | stored (target : TypeSystem) (map : TypeMap)
      (built : TypeMap.build session.registry target = .ok map) :
      Change unsized session { session with maps := (target, map) :: session.maps }

/-- Any number of changes. -/
def Changes (unsized : List String) : Session → Session → Prop := ReflTransGen (Change unsized)

/-- More excuses allow the same changes. -/
theorem Changes.mono {more : List String} (changes : Changes unsized before after)
    (all : ∀ text ∈ unsized, text ∈ more) : Changes more before after := by
  refine ReflTransGen.mono (fun session after change => ?_) _ _ changes
  rcases change with (⟨header⟩ | ⟨text, excused⟩ | ⟨name, info, unknown, sized⟩ | ⟨place⟩ |
    ⟨target, map, built⟩)
  · exact .headed header
  · exact .noted text (excused.imp_right (all text))
  · exact .inserted name info unknown sized
  · exact .preferred place
  · exact .stored target map built

/-- What is noted behind a note is what was noted, and the name of the note. -/
theorem mem_markProbed {other : String} :
    other ∈ (session.markProbed text).probed ↔ other ∈ session.probed ∨ other = text := by
  unfold markProbed
  split
  · rename_i known
    have member : text ∈ session.probed := by simpa using known
    exact ⟨.inl, fun listed => listed.elim id fun same => same ▸ member⟩
  · simp

/-- A note leaves the registry alone. -/
theorem registry_markProbed (session : Session) (text : String) :
    (session.markProbed text).registry = session.registry := by
  unfold markProbed
  split
  · rfl
  · rfl

/-! ## What every change keeps -/

/-- What every change keeps holds behind any number of them. -/
theorem Changes.preserves (kept : Session → Prop) (changes : Changes unsized before after)
    (each : ∀ {before after}, Change unsized before after → kept before → kept after)
    (holds : kept before) : kept after := by
  induction changes with
  | refl => exact holds
  | tail _ change ih => exact each change ih

/-- The stored maps are those that would be built. -/
def Coherent (session : Session) : Prop :=
  ∀ stored ∈ session.maps, TypeMap.build session.registry stored.1 = .ok stored.2

/-- What is noted is registered, or is one of some names. -/
def Excused (unsized : List String) (session : Session) : Prop :=
  ∀ text ∈ session.probed, session.registry.contains (.native text) ∨ text ∈ unsized

/-- Every name stands once with a size, and the stored maps are those that would be built. -/
structure Steady (session : Session) : Prop where
  sound : session.registry.Sound
  coherent : session.Coherent

/-- The registry grows with a change. -/
theorem Change.grows (change : Change unsized before after) :
    before.registry.Grows after.registry := by
  cases change with
  | headed header => exact .refl _
  | noted text excused => exact registry_markProbed before text ▸ .refl _
  | inserted name info unknown sized => exact Registry.grows_insert unknown info
  | preferred place => exact Registry.grows_markPreferred _ place
  | stored target map built => exact .refl _

/-- It grows with a sequence of changes. -/
theorem Changes.grows (changes : Changes unsized before after) :
    before.registry.Grows after.registry :=
  changes.preserves (fun session => before.registry.Grows session.registry)
    (fun change grows => grows.trans change.grows) (.refl _)

/-- A change keeps a session steady. -/
theorem Change.steady (change : Change unsized before after) (steady : before.Steady) :
    after.Steady := by
  cases change with
  | headed header => exact ⟨steady.sound, steady.coherent⟩
  | noted text excused =>
      have kept : (before.markProbed text).maps = before.maps := by
        unfold markProbed
        split
        · rfl
        · rfl
      refine ⟨registry_markProbed before text ▸ steady.sound, ?_⟩
      rw [Coherent, kept, registry_markProbed]
      exact steady.coherent
  | inserted name info unknown sized => exact ⟨steady.sound.insert unknown sized, nofun⟩
  | preferred place => exact ⟨steady.sound.markPreferred place, nofun⟩
  | stored target map built =>
      exact ⟨steady.sound, List.forall_mem_cons.mpr ⟨built, steady.coherent⟩⟩

/-- A sequence of changes keeps a session steady. -/
theorem Changes.steady (changes : Changes unsized before after) (steady : before.Steady) :
    after.Steady :=
  changes.preserves _ Change.steady steady

/-- A change keeps every name that is noted registered or excused. -/
theorem Change.excused (change : Change unsized before after) (excused : before.Excused unsized) :
    after.Excused unsized := by
  cases change with
  | headed header => exact excused
  | noted text excuse =>
      intro other listed
      rw [registry_markProbed]
      rcases mem_markProbed.mp listed with earlier | rfl
      · exact excused other earlier
      · exact excuse
  | inserted name info unknown sized =>
      exact fun text listed =>
        (excused text listed).imp_left (Registry.grows_insert unknown info).contains
  | preferred place =>
      exact fun text listed =>
        (excused text listed).imp_left (Registry.grows_markPreferred ..).contains
  | stored target map built => exact excused

/-- A sequence of changes does so, too. -/
theorem Changes.excused (changes : Changes unsized before after)
    (excused : before.Excused unsized) : after.Excused unsized :=
  changes.preserves _ Change.excused excused

/-- A noted name stays noted. -/
theorem Change.probed (change : Change unsized before after) (noted : text ∈ before.probed) :
    text ∈ after.probed := by
  cases change with
  | noted other excused => exact mem_markProbed.mpr (.inl noted)
  | _ => exact noted

/-- What was noted stays noted. -/
theorem Changes.probed (changes : Changes unsized before after) (noted : text ∈ before.probed) :
    text ∈ after.probed :=
  changes.preserves (fun session => text ∈ session.probed) Change.probed noted

end TypeBridge.Session
