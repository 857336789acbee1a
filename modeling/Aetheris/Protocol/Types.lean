import Mathlib.Logic.Function.Basic

/-!
# Protocol types

The part of the `aetheris-protocol` crate the engine reads and writes: identifiers, the payload of
the components, input commands, events. Identifiers are natural numbers; counters whose machine
width the engine relies on keep it (`UInt16`, `UInt32`, `UInt64`).

`f32` is a parameter. `F32 F` lists the operations the engine performs on it and says nothing about
their results, so a theorem over an arbitrary `F` holds whatever the float arithmetic returns.
-/

namespace Aetheris

abbrev Bytes := List UInt8

/-- A monotonic clock reading. -/
abbrev Instant := Nat

structure ClientId where
  val : Nat
deriving DecidableEq, Repr

structure NetworkId where
  val : Nat
deriving DecidableEq, Repr

/-- An entity handle of the world behind the adapter. -/
structure LocalId where
  val : Nat
deriving DecidableEq, Repr

structure ComponentKind where
  val : UInt16
deriving DecidableEq, Repr

/-- The operations of `f32` the engine uses. -/
class F32 (F : Type) extends Add F, Sub F, Mul F, Div F, LT F, OfScientific F where
  decLt : DecidableRel (fun a b : F => a < b)
  neg : F → F
  ofU16 : UInt16 → F
  ofU64 : UInt64 → F
  /-- `x.round() as u16`. -/
  roundU16 : F → UInt16
  sqrt : F → F
  abs : F → F
  signum : F → F
  sin : F → F
  cos : F → F
  toRadians : F → F
  atan2 : F → F → F
  max : F → F → F
  remEuclid : F → F → F
  pi : F
  tau : F
  epsilon : F

instance F32.decidableLt {F : Type} [F32 F] : DecidableRel (fun a b : F => a < b) := F32.decLt

/-- `x.powi(2)`. -/
def F32.powi2 {F : Type} [F32 F] (x : F) : F := x * x

/-! ## Component payloads -/

structure Transform (F : Type) where
  x : F
  y : F
  z : F
  rotation : F
  entityType : UInt16

inductive AgentKind where
  | standard
  | heavy
  | carrier
deriving DecidableEq, Repr

structure AgentProperties where
  integrity : UInt16
  maxIntegrity : UInt16
  priority : UInt16
  maxPriority : UInt16
  energy : UInt16
  maxEnergy : UInt16
  priorityRegenPerS : UInt16
  energyRegenPerS : UInt16
deriving DecidableEq, Repr

-- Enumerations of the protocol crate that the engine stores and never looks into.
structure ToolId where
  tag : Nat
deriving DecidableEq, Repr

structure PayloadType where
  tag : Nat
deriving DecidableEq, Repr

structure ZoneId where
  tag : Nat
deriving DecidableEq, Repr

inductive InteractionBeamType where
  | pulseBeam
  | other (tag : Nat)
deriving DecidableEq, Repr

structure Tool where
  cooldownTicks : UInt16
  lastFiredTick : UInt64
deriving DecidableEq, Repr

structure PriorityPool where
  current : UInt16
  max : UInt16
deriving DecidableEq, Repr

structure IntegrityPool where
  current : UInt16
  max : UInt16
deriving DecidableEq, Repr

inductive WorkspaceAccessPolicy where
  | openAccess
  | other (tag : Nat)
deriving DecidableEq, Repr

structure WorkspaceDefinition where
  name : String
  capacity : UInt32
  access : WorkspaceAccessPolicy
  isTemplate : Bool
deriving DecidableEq, Repr

structure WorkspaceBounds (F : Type) where
  minX : F
  minY : F
  maxX : F
  maxY : F

inductive RespawnLocation (F : Type) where
  | coordinate (x y : F)
  | other (tag : Nat)
deriving DecidableEq

/-! ## Input commands -/

inductive PlayerInputKind (F : Type) where
  | move (x y : F)
  | toggleExtraction (target : NetworkId)
  /-- The remaining actions, which the engine ignores. -/
  | other (tag : Nat)

structure InputCommand (F : Type) where
  tick : UInt64
  actions : List (PlayerInputKind F)
  actionsMask : UInt32
  lastSeenInputTick : Option UInt64

/-! ## Entity types and their default vitals

The protocol crate defines these. The values are those of the listing in `docs/ENGINE_DESIGN.md`,
which still has the older names (interceptor for agent, dreadnought for heavy agent, and so on). -/

def entityTypeAgent : UInt16 := 1
def entityTypeAiAgent : UInt16 := 2
def entityTypeHeavyAgent : UInt16 := 3
def entityTypeCarrierAgent : UInt16 := 4
def entityTypeResource : UInt16 := 5
def entityTypeDataDrop : UInt16 := 6
def entityTypeTrainingTarget : UInt16 := 10
def entityTypeBeam : UInt16 := 20

/-- Integrity and priority a fresh entity of the given type starts with. -/
def getDefaultProperties (entityType : UInt16) : UInt16 × UInt16 :=
  if entityType = entityTypeAgent ∨ entityType = entityTypeAiAgent then (200, 100)
  else if entityType = entityTypeHeavyAgent then (1500, 500)
  else if entityType = entityTypeCarrierAgent then (600, 200)
  else if entityType = entityTypeResource then (500, 0)
  else if entityType = entityTypeTrainingTarget then (100, 50)
  else if entityType = entityTypeDataDrop ∨ entityType = entityTypeBeam then (1, 0)
  else (100, 100)

/-! ## Identifier allocation -/

/-- Hands out consecutive identifiers. The engine aborts when they run out, so a run never sees
one twice between two resets. -/
structure NetworkIdAllocator where
  first : Nat
  next : Nat
deriving DecidableEq, Repr

namespace NetworkIdAllocator

def new (first : Nat) : NetworkIdAllocator := ⟨first, first⟩

def allocate (a : NetworkIdAllocator) : NetworkId × NetworkIdAllocator :=
  (⟨a.next⟩, { a with next := a.next + 1 })

/-- Restarts from the first identifier. -/
def reset (a : NetworkIdAllocator) : NetworkIdAllocator := { a with next := a.first }

end NetworkIdAllocator

/-! ## Events -/

structure FragmentedEvent where
  messageId : UInt32
  fragmentIndex : UInt16
  totalFragments : UInt16
  payload : Bytes
deriving DecidableEq, Repr

structure ReplicationEvent where
  networkId : NetworkId
  componentKind : ComponentKind
  payload : Bytes
  tick : UInt64
deriving DecidableEq, Repr

structure ComponentUpdate where
  networkId : NetworkId
  componentKind : ComponentKind
  payload : Bytes
  tick : UInt64
deriving DecidableEq, Repr

inductive PlatformEvent where
  | resourceExhausted (networkId : NetworkId)
  | payloadCollected (networkId : NetworkId) (amount : UInt16)
  | termination (target : NetworkId)
  | interaction (source target : NetworkId) (amount : UInt16)
  | possession (networkId : NetworkId)
  | workspaceManifest (manifest : List (String × String))
deriving DecidableEq, Repr

/-- A reliable event before its recipient is known. -/
inductive WireEvent where
  | platformEvent (event : PlatformEvent)
  | entityDespawned (networkId : NetworkId)
deriving DecidableEq, Repr

inductive NetworkEvent (F : Type) where
  | clientConnected (client : ClientId)
  | clientDisconnected (client : ClientId)
  | disconnected (client : ClientId)
  | sessionClosed (client : ClientId)
  | streamReset (client : ClientId)
  | unreliableMessage (client : ClientId) (data : Bytes)
  | reliableMessage (client : ClientId) (data : Bytes)
  | fragment (client : ClientId) (fragment : FragmentedEvent)
  | ping (client : ClientId) (tick : UInt64)
  | pong (tick : UInt64)
  | auth (sessionToken : String)
  | clearWorld (client : ClientId)
  | startSession (client : ClientId)
  | requestWorkspaceManifest (client : ClientId)
  | platformEvent (client : ClientId) (event : PlatformEvent)
  | stressTest (client : ClientId) (count : UInt16) (rotate : Bool)
  | replicationBatch (client : ClientId) (events : List ReplicationEvent)
  | entitySpawned (client : ClientId) (networkId : NetworkId)
  | entityDespawned (client : ClientId) (networkId : NetworkId)
  | spawn (client : ClientId) (entityType : UInt16) (x y rot : F)

/-- The client an event is about. -/
def NetworkEvent.sender {F : Type} : NetworkEvent F → Option ClientId
  | .clientConnected c | .clientDisconnected c | .disconnected c | .sessionClosed c
  | .streamReset c | .unreliableMessage c _ | .reliableMessage c _ | .fragment c _ | .ping c _
  | .clearWorld c | .startSession c | .requestWorkspaceManifest c | .platformEvent c _
  | .stressTest c _ _ | .replicationBatch c _ | .entitySpawned c _ | .entityDespawned c _
  | .spawn c _ _ _ _ => some c
  | .pong _ | .auth _ => none

/-- Addresses a wire event to a client. -/
def WireEvent.intoNetworkEvent {F : Type} (e : WireEvent) (client : ClientId) : NetworkEvent F :=
  match e with
  | .platformEvent event => .platformEvent client event
  | .entityDespawned networkId => .entityDespawned client networkId

end Aetheris
