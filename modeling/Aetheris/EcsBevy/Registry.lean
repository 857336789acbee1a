import Aetheris.EcsBevy.Components
import Aetheris.Lib.Saturating

/-!
# Component replicators

A replicator turns a changed component into a `ReplicationEvent` and a `ComponentUpdate` back into
a component. `defaultReplicator` serves every replicated component; `inputCommandReplicator` is
inbound only and guards the `LatestInput` slot of a session agent with the tick windows of
`applyCommandUpdate`.

`Platform` collects what the engine takes from elsewhere: the MessagePack codec of the components,
the validation of input commands, a mask bit, the random number generator, and the orders in which
hash maps happen to be visited.
-/

namespace Aetheris

open Ecs

/-- The code and the environment around the ECS adapter. -/
structure Platform (F : Type) where
  /-- `rmp_serde::from_slice` at the type of the component. -/
  decode : (k : Comp) → Bytes → Option (CompVal F k)
  /-- `rmp_serde::to_vec` at the type of the component. -/
  encode : (k : Comp) → CompVal F k → Option Bytes
  decodeInput : Bytes → Option (InputCommand F)
  validateInput : InputCommand F → Bool
  actionUseTool : UInt32
  /-- The `i`-th draw from the generator with the given seed, in the range `lo..hi`. -/
  draw : UInt64 → Nat → F → F → F
  /-- How often each heading loop of `simulate` may go round. -/
  headingFuel : Nat
  /-- The order in which a visit of the identifier map meets its pairs. -/
  bimapOrder : List (NetworkId × Entity) → List (NetworkId × Entity)
  bimapOrder_perm : ∀ l, (bimapOrder l).Perm l

structure ComponentReplicator (F : Type) where
  kind : ComponentKind
  extract : World F → Entity → NetworkId → UInt64 → Option Nat → Option ReplicationEvent
  apply : World F → Entity → ComponentUpdate → World F

section

variable {F : Type} (P : Platform F)

/-! ## The default replicator -/

/-- `T::try_from(payload)`. The beam's input marker is skipped by the codec and comes back unset. -/
def tryFrom : (k : Comp) → Bytes → Option (CompVal F k)
  | .extractionBeam, payload =>
    (P.decode .extractionBeam payload).map fun b : ExtractionBeam F =>
      { b with lastSeenInputTick := none }
  | k, payload => P.decode k payload

/-- `DefaultReplicator::<T>::new(kind)`. -/
def defaultReplicator (k : Comp) (kind : ComponentKind) : ComponentReplicator F where
  kind := kind
  extract := fun w e networkId tick last => do
    let component ← w.get e k
    let changed ← w.ecs.changedAt e k
    -- without an earlier extraction everything counts as changed
    let isChanged := match last with
      | some last => decide (last < changed)
      | none => true
    if isChanged then
      let payload ← P.encode k component
      some ⟨networkId, kind, payload, tick⟩
    else none
  apply := fun w e update =>
    match tryFrom P k update.payload with
    | some component => if w.alive e then w.insert e [⟨k, component⟩] else w
    | none => w

/-! ## The input command replicator -/

def maxForwardTickJump : UInt64 := 600

/-- The command follows the last heard tick within the allowed jump. -/
def isValidJump (last tick : UInt64) : Bool :=
  decide (last < tick) && decide (tick ≤ last.satAdd maxForwardTickJump)

/-- `tick` lies within the allowed jump around the server tick. -/
def inServerWindow (server tick : UInt64) : Bool :=
  decide (tick ≤ server.satAdd maxForwardTickJump) &&
    decide (server.satSub maxForwardTickJump ≤ tick)

/-- Progression from the last heard tick, or resynchronisation with the server tick once the last
heard tick has left the window. -/
def acceptsTick (server last tick : UInt64) : Bool :=
  isValidJump last tick || (inServerWindow server tick && !inServerWindow server last)

/-- The entity has an owner and is a session agent. -/
def validateAccessGate (w : World F) (e : Entity) : Bool :=
  w.has e .networkOwner && w.has e .sessionAgent

def deserializeCommand (payload : Bytes) : Option (InputCommand F) :=
  match P.decodeInput payload with
  | some command => if P.validateInput command then some command else none
  | none => none

/-- The slot stored for the first command of an entity. -/
def firstInput (server : UInt64) (command : InputCommand F) : LatestInput F :=
  let capped := min command.tick (server.satAdd maxForwardTickJump)
  ⟨{ command with tick := capped }, capped⟩

def applyCommandUpdate (w : World F) (e : Entity) (command : InputCommand F) : World F :=
  let server := w.currentServerTick
  if w.alive e then
    match w.get e .latestInput with
    | some latest =>
      if acceptsTick server (LatestInput.lastClientTick latest) command.tick then
        w.modify e .latestInput fun _ : LatestInput F => ⟨command, command.tick⟩
      else w
    | none => w.insert e [⟨.latestInput, firstInput server command⟩]
  else w

def inputCommandKind : ComponentKind := ⟨128⟩

def inputCommandReplicator : ComponentReplicator F where
  kind := inputCommandKind
  extract := fun _ _ _ _ _ => none
  apply := fun w e update =>
    if validateAccessGate w e then
      match deserializeCommand P update.payload with
      | some command => applyCommandUpdate w e command
      | none => w
    else w

/-! ## The platform registry -/

structure ComponentDescriptor (F : Type) where
  kind : ComponentKind
  name : String
  replicator : ComponentReplicator F

/-- Registers a descriptor; `none` is the panic on a kind that is already there. -/
def ComponentRegistry.register (registry : List (ComponentDescriptor F))
    (d : ComponentDescriptor F) : Option (List (ComponentDescriptor F)) :=
  if registry.any (·.kind = d.kind) then none else some (registry ++ [d])

/-- The replicated components of the platform, with the kind each is registered under. The kinds
that the source names by constants of the protocol crate (the beam marker's replicator, 128 to 131
and 1024 to 1030) have the values that the comments of `register_platform_components` give. -/
def platformKinds : List (Comp × ComponentKind × String) :=
  [(.transform, ⟨1⟩, "Transform"), (.velocity, ⟨2⟩, "Velocity"),
    (.agentProperties, ⟨3⟩, "AgentProperties"), (.agentConfiguration, ⟨4⟩, "AgentConfiguration"),
    (.agentKind, ⟨5⟩, "AgentKind"), (.playerName, ⟨6⟩, "PlayerName"),
    (.factionTag, ⟨7⟩, "FactionTag"), (.resourceIntegrity, ⟨8⟩, "ResourceIntegrity"),
    (.resourceYield, ⟨9⟩, "ResourceYield"), (.dataDrop, ⟨10⟩, "DataDrop"),
    (.station, ⟨11⟩, "Station"), (.zoneGate, ⟨12⟩, "ZoneGate"),
    (.beamMarker, ⟨13⟩, "BeamMarker"), (.dockedState, ⟨14⟩, "DockedState"),
    (.extractionBeam, ⟨1024⟩, "ExtractionBeam"), (.dataStore, ⟨1025⟩, "DataStore"),
    (.resource, ⟨1026⟩, "Resource"), (.tool, ⟨1027⟩, "ToolComponent"),
    (.priorityPool, ⟨1028⟩, "PriorityPoolComponent"),
    (.integrityPool, ⟨1029⟩, "IntegrityPoolComponent"),
    (.dataDropComponent, ⟨1030⟩, "DataDropComponent"),
    (.workspaceDefinition, ⟨129⟩, "WorkspaceDefinition"),
    (.workspaceBounds, ⟨130⟩, "WorkspaceBounds"),
    (.workspaceMembership, ⟨131⟩, "WorkspaceMembership")]

def platformDescriptors : List (ComponentDescriptor F) :=
  platformKinds.map (fun (k, kind, name) => ⟨kind, name, defaultReplicator P k kind⟩) ++
    [⟨inputCommandKind, "InputCommand", inputCommandReplicator P⟩]

/-- `register_platform_components`, starting from an empty registry. -/
def registerPlatformComponents : Option (List (ComponentDescriptor F)) :=
  (platformDescriptors P).foldlM ComponentRegistry.register []

/-- Inserts a replicator into the map ordered by kind, replacing the one of the same kind. -/
def registerReplicator (r : ComponentReplicator F) :
    List (ComponentReplicator F) → List (ComponentReplicator F)
  | [] => [r]
  | x :: xs =>
    if r.kind.val < x.kind.val then r :: x :: xs
    else if r.kind = x.kind then r :: xs
    else x :: registerReplicator r xs

/-- The replicators of an adapter set up with the platform components. -/
def platformReplicators : List (ComponentReplicator F) :=
  ((registerPlatformComponents P).getD []).foldl (fun rs d => registerReplicator d.replicator rs) []

def findReplicator (rs : List (ComponentReplicator F)) (kind : ComponentKind) :
    Option (ComponentReplicator F) := rs.find? (·.kind = kind)

end

end Aetheris
