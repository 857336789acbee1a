import Aetheris.Lib.Ecs
import Aetheris.Protocol.Types
import Mathlib.Data.Finset.Insert
import Mathlib.Data.Fintype.Basic

/-!
# Components and world resources

`Comp` names the component types, `CompVal F` is the data each carries. The first block is
replicated (a client may receive it, and send it back for an entity it owns), the second block
never leaves the server.

A `World` is the component storage together with the resources the gameplay systems share. A
resource that a constructor may leave out is an `Option`: the systems look it up and skip their
work when it is absent.
-/

namespace Aetheris

open Ecs

/-! ## Component data -/

structure Velocity (F : Type) where
  dx : F
  dy : F
  dz : F

structure AgentConfiguration where
  agentKind : AgentKind
  toolIds : List ToolId
  toolCount : UInt8
  integrityTier : UInt8
  mobilityTier : UInt8
  priorityTier : UInt8
deriving DecidableEq, Repr

structure PlayerName where
  name : String
deriving DecidableEq, Repr

structure FactionTag where
  factionId : UInt8
deriving DecidableEq, Repr

structure ResourceIntegrity where
  integrity : UInt16
  maxIntegrity : UInt16
deriving DecidableEq, Repr

structure ResourceYield where
  payloadType : PayloadType
  payloadPerExhaust : UInt16
deriving DecidableEq, Repr

structure DataDrop where
  payloadType : PayloadType
  amount : UInt16
deriving DecidableEq, Repr

structure Station (F : Type) where
  position : F × F
  safeZoneRadius : F

structure ZoneGate (F : Type) where
  destinationZone : ZoneId
  activationRadius : F

structure BeamMarker (F : Type) where
  beamType : InteractionBeamType
  spawnPos : F × F
  maxRange : F
  owner : NetworkId
  lifetimeTicks : UInt32

structure DockedState where
  stationId : NetworkId
  dockedAtTick : UInt64
deriving DecidableEq, Repr

structure ExtractionBeam (F : Type) where
  active : Bool
  target : Option NetworkId
  extractionRange : F
  baseExtractionRate : UInt16
  /-- Not part of the payload: a decoded beam has `none` here. -/
  lastSeenInputTick : Option UInt64

structure DataStore where
  payloadCount : UInt16
  capacity : UInt16
deriving DecidableEq, Repr

structure Resource where
  payloadRemaining : UInt16
  totalCapacity : UInt16
deriving DecidableEq, Repr

/-- The amount lying in a data drop entity. -/
structure DataDropComponent where
  amount : UInt16
deriving DecidableEq, Repr

structure PhysicsBody (F : Type) where
  baseMass : F
  thrustForce : F
  maxVelocity : F
  turnRate : F
  drag : F
  massPerPayload : F

structure ResourceRespawn (F : Type) where
  delayTicks : UInt32
  remaining : UInt32
  x : F
  y : F
  totalCapacity : UInt16

structure PriorityRegenTimer where
  ticksUntilRegen : UInt16
deriving DecidableEq, Repr

structure RespawnTimer (F : Type) where
  delayTicks : UInt16
  location : RespawnLocation F
deriving DecidableEq

structure LatestInput (F : Type) where
  command : InputCommand F
  lastClientTick : UInt64

/-! ## The component family -/

inductive Comp where
  -- replicated
  | transform
  | velocity
  | agentProperties
  | agentConfiguration
  | agentKind
  | playerName
  | factionTag
  | resourceIntegrity
  | resourceYield
  | dataDrop
  | station
  | zoneGate
  | beamMarker
  | dockedState
  | extractionBeam
  | dataStore
  | resource
  | tool
  | priorityPool
  | integrityPool
  | dataDropComponent
  | workspaceDefinition
  | workspaceBounds
  | workspaceMembership
  -- server-only
  | networked
  | physicsBody
  | resourceRespawn
  | priorityRegenTimer
  | respawnTimer
  | latestInput
  | networkOwner
  | sessionAgent
  | trainingTarget
  | aiControlled
deriving DecidableEq, Repr

/-- The components a `DefaultReplicator` is registered for. -/
def Comp.replicated : List Comp :=
  [.transform, .velocity, .agentProperties, .agentConfiguration, .agentKind, .playerName,
    .factionTag, .resourceIntegrity, .resourceYield, .dataDrop, .station, .zoneGate, .beamMarker,
    .dockedState, .extractionBeam, .dataStore, .resource, .tool, .priorityPool, .integrityPool,
    .dataDropComponent, .workspaceDefinition, .workspaceBounds, .workspaceMembership]

def Comp.serverOnly : List Comp :=
  [.networked, .physicsBody, .resourceRespawn, .priorityRegenTimer, .respawnTimer, .latestInput,
    .networkOwner, .sessionAgent, .trainingTarget, .aiControlled]

instance : Fintype Comp :=
  Fintype.ofList (Comp.replicated ++ Comp.serverOnly) (by intro k; cases k <;> decide)

@[reducible] def CompVal (F : Type) : Comp → Type
  | .transform => Transform F
  | .velocity => Velocity F
  | .agentProperties => AgentProperties
  | .agentConfiguration => AgentConfiguration
  | .agentKind => AgentKind
  | .playerName => PlayerName
  | .factionTag => FactionTag
  | .resourceIntegrity => ResourceIntegrity
  | .resourceYield => ResourceYield
  | .dataDrop => DataDrop
  | .station => Station F
  | .zoneGate => ZoneGate F
  | .beamMarker => BeamMarker F
  | .dockedState => DockedState
  | .extractionBeam => ExtractionBeam F
  | .dataStore => DataStore
  | .resource => Resource
  | .tool => Tool
  | .priorityPool => PriorityPool
  | .integrityPool => IntegrityPool
  | .dataDropComponent => DataDropComponent
  | .workspaceDefinition => WorkspaceDefinition
  | .workspaceBounds => WorkspaceBounds F
  | .workspaceMembership => NetworkId
  | .networked => NetworkId
  | .physicsBody => PhysicsBody F
  | .resourceRespawn => ResourceRespawn F
  | .priorityRegenTimer => PriorityRegenTimer
  | .respawnTimer => RespawnTimer F
  | .latestInput => LatestInput F
  | .networkOwner => ClientId
  | .sessionAgent => Unit
  | .trainingTarget => Unit
  | .aiControlled => Unit

/-! ## The world -/

/-- A pending beam, spawned at the end of the gameplay stage. -/
structure BeamSpawn (F : Type) where
  pos : F × F
  vel : F × F
  owner : NetworkId

/-- Membership sets per workspace, and the workspace of each client with a session agent. -/
structure WorkspaceIndex where
  memberships : NetworkId → Finset Entity
  clientWorkspaces : ClientId → Option NetworkId

def WorkspaceIndex.empty : WorkspaceIndex := ⟨fun _ => ∅, fun _ => none⟩

structure World (F : Type) where
  ecs : Storage (CompVal F)
  serverTick : Option UInt64
  reliableEvents : Option (List (Option ClientId × WireEvent))
  beamSpawnRequests : Option (List (BeamSpawn F))
  workspaceIndex : Option WorkspaceIndex

namespace World

variable {F : Type}

/-- A world without entities and without resources. -/
def new : World F := ⟨Storage.empty, none, none, none, none⟩

def get (w : World F) (e : Entity) (k : Comp) : Option (CompVal F k) := w.ecs.get e k

def has (w : World F) (e : Entity) (k : Comp) : Bool := w.ecs.has e k

def alive (w : World F) (e : Entity) : Bool := w.ecs.alive e

/-- `get_mut`: applies `f` to a component, if the entity carries it, and marks it changed. -/
def modify (w : World F) (e : Entity) (k : Comp) (f : CompVal F k → CompVal F k) : World F :=
  { w with ecs := w.ecs.modify e k f }

/-- `entity_mut(e).insert(…)`. -/
def insert (w : World F) (e : Entity) (l : List (Σ k, CompVal F k)) : World F :=
  { w with ecs := w.ecs.insert e (bundle l) }

/-- The entity the next `spawn` creates. -/
def spawned (w : World F) : Entity := w.ecs.spawned

def spawn (w : World F) (l : List (Σ k, CompVal F k)) : World F :=
  { w with ecs := w.ecs.spawn (bundle l) }

def despawn (w : World F) (e : Entity) : World F := { w with ecs := w.ecs.despawn e }

/-- The entities carrying every component of `ks`, in query order. -/
def query (w : World F) (ks : List Comp) : List Entity :=
  w.ecs.entities.filter fun e => ks.all (w.has e)

/-- The current server tick, `0` when the resource is missing. -/
def currentServerTick (w : World F) : UInt64 := w.serverTick.getD 0

/-- Appends to the reliable queue, if the resource is there. -/
def pushReliable (w : World F) (evs : List (Option ClientId × WireEvent)) : World F :=
  { w with reliableEvents := w.reliableEvents.map (· ++ evs) }

/-- The reliable queue, empty when the resource is missing. -/
def reliableQueue (w : World F) : List (Option ClientId × WireEvent) := w.reliableEvents.getD []

variable (w : World F)

theorem pushReliable_nil : w.pushReliable [] = w := by
  simp [pushReliable]

theorem mem_reliableQueue_of_push {w : World F} {evs : List (Option ClientId × WireEvent)}
    {ev : Option ClientId × WireEvent} (h : ev ∈ (w.pushReliable evs).reliableQueue) :
    ev ∈ w.reliableQueue ∨ ev ∈ evs := by
  unfold pushReliable reliableQueue at h
  unfold reliableQueue
  cases hqueue : w.reliableEvents with
  | none =>
    rw [hqueue] at h
    cases h
  | some queue =>
    rw [hqueue] at h
    exact List.mem_append.mp h

/-! ### Reading after writing -/

variable {e e' : Entity} {k : Comp}

theorem alive_of_has {w : World F} (h : w.has e k = true) : w.alive e = true := by
  obtain ⟨v, hv⟩ := Option.isSome_iff_exists.mp h
  exact Storage.alive_of_get hv

theorem get_of_not_alive {w : World F} (h : w.alive e = false) (k : Comp) :
    w.get e k = none := Storage.get_of_not_alive h k

theorem get_modify_of_ne {k' : Comp} (f : CompVal F k → CompVal F k) (h : e' ≠ e ∨ k' ≠ k) :
    (w.modify e k f).get e' k' = w.get e' k' := Storage.get_modify_of_ne _ f h

theorem get_modify_self (e : Entity) (k : Comp) (f : CompVal F k → CompVal F k) :
    (w.modify e k f).get e k = (w.get e k).map f := Storage.get_modify_self _ e k f

theorem modify_congr {v : CompVal F k}
    {f g : CompVal F k → CompVal F k} (hv : w.get e k = some v) (h : f v = g v) :
    w.modify e k f = w.modify e k g := by
  unfold modify
  rw [Storage.modify_congr w.ecs hv h]

theorem modify_of_none (f : CompVal F k → CompVal F k)
    (h : w.get e k = none) : w.modify e k f = w := by
  unfold modify
  rw [Storage.modify_of_none w.ecs f h]

@[simp] theorem has_modify (w : World F) (e e' : Entity) (k k' : Comp)
    (f : CompVal F k → CompVal F k) : (w.modify e k f).has e' k' = w.has e' k' :=
  Storage.has_modify _ e e' k k' f

@[simp] theorem alive_modify (w : World F) (e e' : Entity) (k : Comp)
    (f : CompVal F k → CompVal F k) : (w.modify e k f).alive e' = w.alive e' :=
  Storage.alive_modify _ e e' k f

theorem get_insert (e e' : Entity) (l : List (Σ k, CompVal F k)) (k : Comp) :
    (w.insert e l).get e' k =
      if e' = e ∧ w.alive e = true then (bundle l k).or (w.get e k) else w.get e' k :=
  Storage.get_insert _ e e' (bundle l) k

theorem get_insert_of_ne {l : List (Σ k, CompVal F k)}
    (h : e' ≠ e ∨ ∀ c ∈ l, c.1 ≠ k) : (w.insert e l).get e' k = w.get e' k :=
  Storage.get_insert_of_ne _ _ (h.imp_right bundle_eq_none)

@[simp] theorem alive_insert (w : World F) (e e' : Entity) (l : List (Σ k, CompVal F k)) :
    (w.insert e l).alive e' = w.alive e' := Storage.alive_insert _ e e' _

theorem get_spawn (l : List (Σ k, CompVal F k)) (e : Entity) (k : Comp) :
    (w.spawn l).get e k = if e = w.spawned then bundle l k else w.get e k :=
  Storage.get_spawn _ _ e k

theorem alive_spawn (l : List (Σ k, CompVal F k)) (e : Entity) :
    (w.spawn l).alive e = (decide (e = w.spawned) || w.alive e) := Storage.alive_spawn _ _ e

theorem not_alive_spawned : w.alive w.spawned = false :=
  Storage.not_alive_spawned _

theorem get_despawn (e e' : Entity) (k : Comp) :
    (w.despawn e).get e' k = if e' = e then none else w.get e' k := Storage.get_despawn _ e e' k

theorem alive_despawn (e e' : Entity) :
    (w.despawn e).alive e' = (decide (e' ≠ e) && w.alive e') := Storage.alive_despawn _ e e'

theorem nodup_query (ks : List Comp) : (w.query ks).Nodup :=
  w.ecs.nodup.filter _

theorem mem_query {w : World F} {ks : List Comp} :
    e ∈ w.query ks ↔ w.alive e = true ∧ ∀ k ∈ ks, w.has e k = true := by
  simp [query, Storage.mem_entities, alive]

end World

end Aetheris
