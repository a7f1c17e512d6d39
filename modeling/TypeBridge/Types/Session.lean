import TypeBridge.Probe.Run
import TypeBridge.Types.TypeMap

/-!
# Type sessions

A `Session` gathers what is known of types while code is generated: the registry, the names that
need no probing any more, and the maps built so far. `ensureNative` probes the native names that are
not yet known, all in one program; `typeMap` builds a map once and keeps it until the registry
changes; `resolve` names a scalar in all three systems.
-/

namespace TypeBridge

/-- What is known of types. -/
structure Session where
  config : BuildConfig
  registry : Registry
  /-- Headers for the probe programs to come. -/
  probeHeaders : List String
  /-- Native names that are not to be probed. -/
  probed : List String
  /-- The maps built since the registry changed. -/
  maps : List (TypeSystem × TypeMap)

/-- A scalar in all three systems, with its facts. -/
structure ResolvedScalar where
  native : TypeName
  arrayLib : TypeName
  ffi : TypeName
  info : TypeInfo
deriving Repr, DecidableEq

/-- The size of a scalar; zero if it is not known. -/
def ResolvedScalar.size (scalar : ResolvedScalar) : Nat := scalar.info.size.getD 0

/-- A step of a session on a workbench. -/
abbrev SessionStep := Step (Session × Workbench) TypeFault

namespace Session

/-- A session that knows the built-in types. -/
def start (config : BuildConfig) : Session := ⟨config, .fixed, [], [], []⟩

/-- One more header for the probe programs to come. -/
def addProbeHeader (session : Session) (header : String) : Session :=
  { session with probeHeaders := session.probeHeaders ++ [header] }

/-- Note that a native name needs no probing. -/
def markProbed (session : Session) (name : String) : Session :=
  if session.probed.contains name then session
  else { session with probed := session.probed ++ [name] }

/-- Forget the maps. -/
def forgetMaps (session : Session) : Session := { session with maps := [] }

/-- Run a step on the registry. -/
def onRegistry {α : Type} (step : Step Registry TypeFault α) : Step Session TypeFault α :=
  Step.within (·.registry) (fun registry session => { session with registry := registry }) step

/-- Register a type; a new one makes the maps stale. -/
def register (name : TypeName) (info : TypeInfo) : Step Session TypeFault Bool := do
  let inserted ← onRegistry (Registry.register name info)
  if inserted then Step.modify forgetMaps
  return inserted

/-- Register facts about a native type that come from elsewhere; it will not be probed. -/
def registerNative (spelling : String) (info : TypeInfo) : Step Session TypeFault Bool := do
  let name := TypeName.native spelling
  Step.modify (·.markProbed name.text)
  register name info

/-- Register facts about several native types in order. -/
def registerNatives : List (String × TypeInfo) → Step Session TypeFault Unit
  | [] => pure ()
  | (spelling, info) :: rest => do
    let _ ← registerNative spelling info
    registerNatives rest

/-- Prefer a type among its family. -/
def prefer (name : TypeName) : Step Session TypeFault Unit := do
  onRegistry (Registry.prefer name)
  Step.modify forgetMaps

/-- Whether a native type has to be probed: pointers never have. -/
def isUnknown (session : Session) (name : TypeName) : Bool :=
  !name.isPointer && !session.probed.contains name.text && !session.registry.contains name

/-- Add the names among some types that have to be probed to a list, each once. -/
def collectMissing (session : Session) : List TypeName → List String → List String
  | [], missing => missing
  | name :: rest, missing =>
    if session.isUnknown name && !missing.contains name.text then
      collectMissing session rest (missing ++ [name.text])
    else collectMissing session rest missing

/-- The built-in and the requested native names that have to be probed, each once. -/
def missing (session : Session) (names : List String) : List String :=
  session.collectMissing ((Builtin.nativeNames ++ names).map TypeName.native) []

/-- Take the facts that a probe found into the session. -/
def learn : List (TypeName × TypeInfo) → Step Session TypeFault Unit
  | [] => pure ()
  | (name, info) :: rest => do
    Step.modify (·.markProbed name.text)
    let _ ← register name info
    learn rest

/-- Probe the native names that are not known, together with the built-in ones. -/
def ensureNative (machine : Machine) (names : List String) : SessionStep Unit := do
  let (session, _) ← Step.get
  let missing := session.missing names
  if missing.isEmpty then return ()
  let facts ← Step.onSecond (Probe.probe machine session.config session.probeHeaders missing)
  Step.onFirst (learn facts)

/-- The facts about a registered type. -/
def registeredInfo (name : TypeName) : SessionStep TypeInfo := do
  let (session, _) ← Step.get
  match session.registry.info? name with
  | some info => return info
  | none => Step.fail (.unregistered name)

/-- The facts about a native type, probed if need be. -/
def nativeInfo (machine : Machine) (spelling : String) : SessionStep TypeInfo := do
  ensureNative machine [spelling]
  registeredInfo (TypeName.native spelling)

/-- Build a map and keep it. -/
def buildMap (target : TypeSystem) : Step Session TypeFault TypeMap := do
  let session ← Step.get
  let map ← Step.ofExcept (TypeMap.build session.registry target)
  Step.modify fun session => { session with maps := (target, map) :: session.maps }
  return map

/-- The map into a system. -/
def typeMap (machine : Machine) (target : TypeSystem) : SessionStep TypeMap := do
  ensureNative machine []
  let (session, _) ← Step.get
  match session.maps.lookup target with
  | some map => return map
  | none => Step.onFirst (buildMap target)

/-- The counterpart of a type in one system. -/
def counterpart (machine : Machine) (target : TypeSystem) (name : TypeName) :
    SessionStep TypeName := do
  let map ← typeMap machine target
  Step.ofExcept (map.resolve name)

/-- A scalar in all three systems. -/
def resolve (machine : Machine) (name : TypeName) : SessionStep ResolvedScalar := do
  if name.system = .native ∧ !name.isPointer then ensureNative machine [name.text]
  let info ← if name.isPointer then pure TypeInfo.pointer else registeredInfo name
  let native ← counterpart machine .native name
  let arrayLib ← counterpart machine .arrayLib name
  let ffi ← counterpart machine .ffi name
  return ⟨native, arrayLib, ffi, info⟩

end Session

end TypeBridge
