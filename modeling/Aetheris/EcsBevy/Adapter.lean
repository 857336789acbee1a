import Aetheris.EcsBevy.Registry
import Aetheris.Lib.BiMap
import Aetheris.Protocol.Traits

/-!
# The world adapter

`BevyWorldAdapter` puts network identifiers on top of the component storage. Three stores have to
agree: the identifier map, the `Networked` and `NetworkOwner` components, and the owner cache that
`applyUpdates` consults before it looks at the component.
-/

namespace Aetheris

open Ecs

/-- The generator is a pure function of its seed and of how often it was drawn from. -/
structure DeterministicRng where
  seed : UInt64
  draws : Nat
deriving DecidableEq, Repr

structure BevyWorldAdapter (F : Type) where
  world : World F
  bimap : BiMap NetworkId Entity
  owners : NetworkId → Option ClientId
  replicators : List (ComponentReplicator F)
  allocator : NetworkIdAllocator
  lastExtractionTick : Option Nat
  tickRate : UInt64
  rng : DeterministicRng
  postSimulateHook : Option (World F → World F)

/-- The components of a workspace or of a freshly spawned entity. -/
abbrev Comps (F : Type) := List (Σ k, CompVal F k)

namespace BevyWorldAdapter

variable {F : Type}

/-! ## Construction -/

/-- `new`; `none` is the panic on a tick rate of zero. -/
def new (w : World F) (tickRate : UInt64) : Option (BevyWorldAdapter F) :=
  if 0 < tickRate then
    some
      { world :=
          { w with
            serverTick := some 0
            reliableEvents := some []
            beamSpawnRequests := some []
            workspaceIndex := some WorkspaceIndex.empty }
        bimap := BiMap.empty
        owners := fun _ => none
        replicators := []
        allocator := NetworkIdAllocator.new 1
        lastExtractionTick := none
        tickRate := tickRate
        rng := ⟨0xCAFEBABE, 0⟩
        postSimulateHook := none }
  else none

/-- `new_with_rng`: no check of the tick rate, and no `BeamSpawnRequests` resource. -/
def newWithRng (w : World F) (tickRate : UInt64) (rng : DeterministicRng) : BevyWorldAdapter F :=
  { world :=
      { w with
        serverTick := some 0
        reliableEvents := some []
        workspaceIndex := some WorkspaceIndex.empty }
    bimap := BiMap.empty
    owners := fun _ => none
    replicators := []
    allocator := NetworkIdAllocator.new 1
    lastExtractionTick := none
    tickRate := tickRate
    rng := rng
    postSimulateHook := none }

/-- `register_replicator`. -/
def addReplicator (a : BevyWorldAdapter F) (r : ComponentReplicator F) : BevyWorldAdapter F :=
  { a with replicators := registerReplicator r a.replicators }

def setPostSimulateHook (a : BevyWorldAdapter F) (hook : World F → World F) :
    BevyWorldAdapter F := { a with postSimulateHook := some hook }

/-! ## Identifiers -/

/-- `get_local_id`; the bits of a handle are its number. -/
def getLocalId (a : BevyWorldAdapter F) (n : NetworkId) : Option LocalId :=
  (a.bimap.getByLeft n).map fun e => ⟨e.id⟩

def getNetworkId (a : BevyWorldAdapter F) (l : LocalId) : Option NetworkId :=
  a.bimap.getByRight ⟨l.val⟩

/-! ## Client updates -/

/-- The last kind looked up by `applyUpdates`, with what the lookup returned. -/
structure ReplicatorCache (F : Type) where
  lastKind : Option ComponentKind
  lastReplicator : Option (ComponentReplicator F)

/-- The ownership check: the cached owner, else the component, which then fills the cache. -/
def authorize (a : BevyWorldAdapter F) (client : ClientId) (n : NetworkId) (e : Entity) :
    BevyWorldAdapter F × Bool :=
  match a.owners n with
  | some owner => (a, owner = client)
  | none =>
    match a.world.get e .networkOwner with
    | some owner =>
      let owner : ClientId := owner
      ({ a with owners := Function.update a.owners n (some owner) }, owner = client)
    | none => (a, false)

def resolveReplicator (a : BevyWorldAdapter F) (cache : ReplicatorCache F)
    (kind : ComponentKind) : ReplicatorCache F :=
  if cache.lastKind = some kind then cache else ⟨some kind, findReplicator a.replicators kind⟩

/-- One round of the loop of `apply_updates`. -/
def applyUpdate (st : BevyWorldAdapter F × ReplicatorCache F) (u : ClientId × ComponentUpdate) :
    BevyWorldAdapter F × ReplicatorCache F :=
  match st.1.bimap.getByLeft u.2.networkId with
  | none => st
  | some e =>
    let (a, isAuthorized) := st.1.authorize u.1 u.2.networkId e
    if isAuthorized then
      let cache := a.resolveReplicator st.2 u.2.componentKind
      match cache.lastReplicator with
      | some r => ({ a with world := r.apply a.world e u.2 }, cache)
      | none => (a, cache)
    else (a, st.2)

def applyUpdates (a : BevyWorldAdapter F) (updates : List (ClientId × ComponentUpdate)) :
    BevyWorldAdapter F :=
  (updates.foldl applyUpdate (a, ⟨none, none⟩)).1

/-! ## Ticks and extraction -/

def advanceTick (a : BevyWorldAdapter F) : BevyWorldAdapter F :=
  { a with
    world :=
      { a.world with
        ecs := a.world.ecs.advance
        serverTick := a.world.serverTick.map (·.satAdd 1) } }

def extractDeltas (P : Platform F) (a : BevyWorldAdapter F) :
    BevyWorldAdapter F × List ReplicationEvent :=
  let deltas := (P.bimapOrder a.bimap.pairs).flatMap fun (n, e) =>
    a.replicators.filterMap fun r =>
      r.extract a.world e n a.world.currentServerTick a.lastExtractionTick
  ({ a with lastExtractionTick := some a.world.ecs.tick }, deltas)

def extractReliableEvents (a : BevyWorldAdapter F) :
    BevyWorldAdapter F × List (Option ClientId × WireEvent) :=
  ({ a with world := { a.world with reliableEvents := a.world.reliableEvents.map fun _ => [] } },
    a.world.reliableQueue)

/-- `clear_trackers`, which also advances the change tick. -/
def postExtract (a : BevyWorldAdapter F) : BevyWorldAdapter F :=
  { a with world := { a.world with ecs := a.world.ecs.advance } }

/-! ## Spawning and despawning -/

def spawnNetworked (a : BevyWorldAdapter F) : BevyWorldAdapter F × NetworkId :=
  let (id, allocator) := a.allocator.allocate
  ({ a with
      world := a.world.spawn [⟨.networked, id⟩]
      bimap := a.bimap.insert id a.world.spawned
      allocator := allocator }, id)

/-- Gives the entity behind `n` to `client`, in the world and in the cache. -/
def setOwner (a : BevyWorldAdapter F) (n : NetworkId) (client : ClientId) (comps : Comps F) :
    BevyWorldAdapter F :=
  match a.bimap.getByLeft n with
  | some e =>
    { a with
      world := a.world.insert e (⟨.networkOwner, client⟩ :: comps)
      owners := Function.update a.owners n (some client) }
  | none => a

def spawnNetworkedFor [F32 F] (a : BevyWorldAdapter F) (client : ClientId) :
    BevyWorldAdapter F × NetworkId :=
  let (a, id) := a.spawnNetworked
  let transform : Transform F := ⟨0.0, 0.0, 0.0, 0.0, 0⟩
  let velocity : Velocity F := ⟨0.0, 0.0, 0.0⟩
  (a.setOwner id client [⟨.transform, transform⟩, ⟨.velocity, velocity⟩], id)

/-- Takes a despawned entity out of the workspace index; a session agent takes its client along. -/
def forgetEntity (index : WorkspaceIndex) (e : Entity) (isSessionAgent : Bool)
    (owner : Option ClientId) : WorkspaceIndex :=
  { memberships := fun n => (index.memberships n).erase e
    clientWorkspaces := match isSessionAgent, owner with
      | true, some client => Function.update index.clientWorkspaces client none
      | _, _ => index.clientWorkspaces }

def despawnNetworked (a : BevyWorldAdapter F) (n : NetworkId) :
    BevyWorldAdapter F × Except WorldError Unit :=
  match a.bimap.getByLeft n with
  | some e =>
    let w := { a.world with
      workspaceIndex := a.world.workspaceIndex.map fun index =>
        forgetEntity index e (a.world.has e .sessionAgent) (a.world.get e .networkOwner) }
    let a := { a with
      bimap := a.bimap.removeByLeft n
      owners := Function.update a.owners n none
      world := w }
    -- the maps are cleaned up in any case, also when the entity is gone already
    if w.alive e then
      ({ a with world := (w.despawn e).pushReliable [(none, .entityDespawned n)] }, .ok ())
    else (a, .error (.entityNotFound n))
  | none => (a, .error (.entityNotFound n))

/-! ## Spawning by kind -/

section Kinds

variable [F32 F]

def defaultThrustForce : F := 10000.0
def defaultMaxVelocity : F := 100.0
def defaultDrag : F := 2.0
def massPerPayload : F := 2.0

/-- The pools and the regeneration timer shared by everything that can be damaged. -/
def pools (kind : UInt16) : Comps F :=
  let (hp, priority) := getDefaultProperties kind
  [⟨.priorityPool, (⟨priority, priority⟩ : PriorityPool)⟩,
    ⟨.integrityPool, (⟨hp, hp⟩ : IntegrityPool)⟩,
    ⟨.priorityRegenTimer, (⟨0⟩ : PriorityRegenTimer)⟩]

def vitals (kind : UInt16) (energy priorityRegen energyRegen : UInt16) : AgentProperties :=
  let (hp, priority) := getDefaultProperties kind
  ⟨hp, hp, priority, priority, energy, energy, priorityRegen, energyRegen⟩

/-- What the three agent kinds have in common. -/
def agentComps (kind : UInt16) (agentKind : AgentKind) (properties : AgentProperties)
    (body : PhysicsBody F) (beam : ExtractionBeam F) (name : String) : Comps F :=
  [⟨.agentKind, agentKind⟩, ⟨.agentProperties, properties⟩, ⟨.physicsBody, body⟩,
    ⟨.dataStore, (⟨0, 500⟩ : DataStore)⟩, ⟨.extractionBeam, beam⟩,
    ⟨.playerName, (⟨name⟩ : PlayerName)⟩] ++ pools kind

/-- `ExtractionBeam::default()`. -/
def defaultBeam : ExtractionBeam F := ⟨false, none, 0.0, 0, none⟩

/-- The component tuples `spawn_kind` inserts for a kind, one list for each `insert`. -/
def kindComps (kind : UInt16) (x y : F) : List (Comps F) :=
  if kind = entityTypeAgent ∨ kind = entityTypeAiAgent then
    let name := if kind = entityTypeAiAgent then "AI Agent" else "Player"
    let body : PhysicsBody F :=
      ⟨100.0, defaultThrustForce, defaultMaxVelocity, 270.0, defaultDrag, massPerPayload⟩
    (agentComps kind .standard (vitals kind 100 5 10) body ⟨false, none, 15.0, 2, none⟩ name
        ++ [⟨.tool, (⟨30, 0⟩ : Tool)⟩])
      :: if kind = entityTypeAiAgent then [[⟨.aiControlled, ()⟩]] else []
  else if kind = entityTypeBeam then
    let marker : BeamMarker F := ⟨.pulseBeam, (x, y), 200.0, ⟨0⟩, 300⟩
    let velocity : Velocity F := ⟨0.0, 0.0, 0.0⟩
    let body : PhysicsBody F := ⟨1.0, 0.0, 1000.0, 0.0, 0.0, 0.0⟩
    [[⟨.beamMarker, marker⟩, ⟨.velocity, velocity⟩, ⟨.physicsBody, body⟩]]
  else if kind = entityTypeDataDrop then
    let body : PhysicsBody F := ⟨10.0, 0.0, 10.0, 0.0, 2.0, 0.0⟩
    [[⟨.dataDropComponent, (⟨0⟩ : DataDropComponent)⟩, ⟨.physicsBody, body⟩]]
  else if kind = entityTypeTrainingTarget then
    let body : PhysicsBody F := ⟨200.0, 0.0, 0.0, 0.0, 1.0, 0.0⟩
    [[⟨.trainingTarget, ()⟩, ⟨.agentKind, AgentKind.carrier⟩,
      ⟨.playerName, (⟨"Training Target"⟩ : PlayerName)⟩, ⟨.physicsBody, body⟩] ++ pools kind]
  else if kind = entityTypeHeavyAgent then
    let body : PhysicsBody F := ⟨400.0, 40000.0, 60.0, 60.0, defaultDrag, massPerPayload⟩
    [agentComps kind .heavy (vitals kind 300 15 20) body defaultBeam "Heavy Agent"]
  else if kind = entityTypeCarrierAgent then
    let body : PhysicsBody F := ⟨200.0, 25000.0, 80.0, 150.0, defaultDrag, massPerPayload⟩
    [agentComps kind .carrier (vitals kind 150 8 12) body defaultBeam "Carrier Agent"]
  else if kind = entityTypeResource then
    [[⟨.resource, (⟨100, 100⟩ : Resource)⟩,
      ⟨.resourceIntegrity, (⟨500, 500⟩ : ResourceIntegrity)⟩]]
  else []

def masterName : String := "Playground_Master"

/-- The identifier of the first mapped entity, in query order, that defines the master workspace. -/
def findMaster (a : BevyWorldAdapter F) : Option NetworkId :=
  (a.world.query [.workspaceDefinition]).findSome? fun e =>
    match a.world.get e .workspaceDefinition with
    | some d => if WorkspaceDefinition.name d = masterName then a.bimap.getByRight e else none
    | none => none

def masterComps (n : NetworkId) : Comps F :=
  let bounds : WorkspaceBounds F :=
    ⟨F32.neg 250.0, F32.neg 250.0, 250.0, 250.0⟩
  [⟨.workspaceDefinition, (⟨masterName, 0, .openAccess, false⟩ : WorkspaceDefinition)⟩,
    ⟨.workspaceBounds, bounds⟩, ⟨.workspaceMembership, n⟩]

/-- Creates the master workspace; the caller then puts the first resource into it. -/
def createMaster (a : BevyWorldAdapter F) : BevyWorldAdapter F × NetworkId :=
  let (a, n) := a.spawnNetworked
  match a.bimap.getByLeft n with
  | some e => ({ a with world := a.world.insert e (masterComps n) }, n)
  | none => (a, ⟨1⟩)

/-- The part of `spawn_kind` after the workspace is known: the entity, the components of its kind,
its membership and its identifier. -/
def placeKind (a : BevyWorldAdapter F) (n : NetworkId) (kind : UInt16) (x y rot : F)
    (master : NetworkId) : BevyWorldAdapter F :=
  let e := a.world.spawned
  let transform : Transform F := ⟨x, y, 0.0, rot, kind⟩
  let velocity : Velocity F := ⟨0.0, 0.0, 0.0⟩
  let w := a.world.spawn [⟨.networked, n⟩, ⟨.transform, transform⟩, ⟨.velocity, velocity⟩]
  let w := (kindComps kind x y).foldl (fun w comps => w.insert e comps) w
  let w := w.insert e [⟨.workspaceMembership, master⟩]
  { a with
    world :=
      { w with
        workspaceIndex := w.workspaceIndex.map fun index =>
          { index with
            memberships := Function.update index.memberships master
              (insert e (index.memberships master)) } }
    bimap := a.bimap.insert n e }

/-- `spawn_kind` with a bound on its nested calls. Only the first call can find no master
workspace, so two levels are enough (`spawnKindFuel_eq`). -/
def spawnKindFuel : Nat → BevyWorldAdapter F → UInt16 → F → F → F →
    BevyWorldAdapter F × NetworkId
  | 0, a, _, _, _, _ => (a, ⟨0⟩)
  | fuel + 1, a, kind, x, y, rot =>
    -- the identifier is taken before a workspace is looked for or created
    let (n, allocator) := a.allocator.allocate
    let a := { a with allocator := allocator }
    match a.findMaster with
    | some master => (a.placeKind n kind x y rot master, n)
    | none =>
      let (a, master) := a.createMaster
      let (a, _) := spawnKindFuel fuel a entityTypeResource 30.0 0.0 0.0
      (a.placeKind n kind x y rot master, n)

def spawnKind (a : BevyWorldAdapter F) (kind : UInt16) (x y rot : F) :
    BevyWorldAdapter F × NetworkId := spawnKindFuel 2 a kind x y rot

def spawnKindFor (a : BevyWorldAdapter F) (kind : UInt16) (x y rot : F) (client : ClientId) :
    BevyWorldAdapter F × NetworkId :=
  let (a, n) := a.spawnKind kind x y rot
  (a.setOwner n client [], n)

end Kinds

def getEntityWorkspace (a : BevyWorldAdapter F) (n : NetworkId) : Option NetworkId :=
  (a.bimap.getByLeft n).bind fun e => a.world.get e .workspaceMembership

def spawnSessionAgent [F32 F] (a : BevyWorldAdapter F) (kind : UInt16) (x y rot : F)
    (client : ClientId) : BevyWorldAdapter F × NetworkId :=
  let (a, n) := a.spawnKindFor kind x y rot client
  match a.bimap.getByLeft n with
  | some e =>
    let a := { a with world := a.world.insert e [⟨.sessionAgent, ()⟩] }
    -- the source expects a workspace here; `placeKind` has just stored one
    match a.getEntityWorkspace n with
    | some workspace =>
      ({ a with
          world :=
            { a.world with
              workspaceIndex := a.world.workspaceIndex.map fun index =>
                { index with
                  clientWorkspaces :=
                    Function.update index.clientWorkspaces client (some workspace) } } }, n)
    | none => (a, n)
  | none => (a, n)

/-! ## Stress test -/

section Stress

variable [F32 F] (P : Platform F)

/-- One number from the generator. -/
def drawRange (a : BevyWorldAdapter F) (lo hi : F) : BevyWorldAdapter F × F :=
  ({ a with rng := { a.rng with draws := a.rng.draws + 1 } }, P.draw a.rng.seed a.rng.draws lo hi)

def stressKinds : List UInt16 :=
  [entityTypeAgent, entityTypeHeavyAgent, entityTypeCarrierAgent, entityTypeResource,
    entityTypeDataDrop]

def stressSpawn (rotate : Bool) (a : BevyWorldAdapter F) (i : Nat) : BevyWorldAdapter F :=
  let (a, x) := a.drawRange P (F32.neg 20.0) 20.0
  let (a, y) := a.drawRange P (F32.neg 20.0) 20.0
  let (a, rot) := if rotate then a.drawRange P 0.0 F32.tau else (a, 0.0)
  (a.spawnKind (stressKinds.getD (i % stressKinds.length) 0) x y rot).1

def stressTest (a : BevyWorldAdapter F) (count : UInt16) (rotate : Bool) : BevyWorldAdapter F :=
  (List.range count.toNat).foldl (stressSpawn P rotate) a

end Stress

/-! ## Reliable events, clearing, workspaces -/

def queueReliableEvent (a : BevyWorldAdapter F) (client : Option ClientId)
    (event : PlatformEvent) : BevyWorldAdapter F :=
  { a with world := a.world.pushReliable [(client, .platformEvent event)] }

/-- `clear_world`: every networked entity and every resource tracker goes, and the identifiers
start again from the first. -/
def clearWorld (P : Platform F) (a : BevyWorldAdapter F) : BevyWorldAdapter F :=
  let ids := (P.bimapOrder a.bimap.pairs).map Prod.fst
  let a := ids.foldl (fun a id => (a.despawnNetworked id).1) a
  -- trackers have no identifier, so the loop above does not see them
  let w := (a.world.query [.resourceRespawn]).foldl World.despawn a.world
  { a with
    world := { w with workspaceIndex := w.workspaceIndex.map fun _ => WorkspaceIndex.empty }
    allocator := a.allocator.reset
    lastExtractionTick := none }

/-- The workspace in the index, else the master workspace. -/
def getClientWorkspace (P : Platform F) (a : BevyWorldAdapter F) (client : ClientId) :
    Option NetworkId :=
  match a.world.workspaceIndex.bind fun index => index.clientWorkspaces client with
  | some workspace => some workspace
  | none =>
    ((P.bimapOrder a.bimap.pairs).find? fun (_, e) =>
      match a.world.get e .workspaceDefinition with
      | some d => WorkspaceDefinition.name d = masterName
      | none => false).bind fun (_, e) => a.bimap.getByRight e

end BevyWorldAdapter

end Aetheris
