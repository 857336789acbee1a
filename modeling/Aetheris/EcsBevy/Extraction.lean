import Aetheris.EcsBevy.Components
import Aetheris.Lib.BiMap
import Aetheris.Lib.Saturating

/-!
# Extraction, exhaustion, respawn and collection

The payload economy: beams move payload from resources into data stores, exhausted resources leave
a respawn tracker, and agents collect data drops lying near them. Extraction and collection work in
two phases. The first reads the world and lists what is to happen, the second applies the list, and
only the transfers of the extraction look at the store again before they write it.
-/

namespace Aetheris

open Ecs

variable {F : Type} [F32 F]

/-- Squared distance in the plane. -/
def distSq (a b : Transform F) : F :=
  (a.x - b.x) * (a.x - b.x) + (a.y - b.y) * (a.y - b.y)

/-! ## Extraction -/

/-- An active beam whose target is mapped, with the data read from the agent. -/
structure ExtractionAttempt (F : Type) where
  agent : Entity
  target : Entity
  transform : Transform F
  store : DataStore
  beam : ExtractionBeam F

structure Transfer where
  agent : Entity
  resource : Entity
  amount : UInt16

/-- Reads one agent: an attempt, or a beam to disable because its target is unknown. -/
def collectAttempt (w : World F) (bimap : BiMap NetworkId Entity)
    (acc : List (ExtractionAttempt F) × List Entity) (e : Entity) :
    List (ExtractionAttempt F) × List Entity :=
  match w.get e .extractionBeam, w.get e .transform, w.get e .dataStore with
  | some beam, some transform, some store =>
    let beam : ExtractionBeam F := beam
    if beam.active then
      match beam.target.bind bimap.getByLeft with
      | some target => (acc.1 ++ [⟨e, target, transform, store, beam⟩], acc.2)
      -- no target, or one that is not mapped any more
      | none => (acc.1, acc.2 ++ [e])
    else acc
  | _, _, _ => acc

/-- The amount a beam takes at the given squared distance: a linear falloff, at least one. -/
def extractionAmount (beam : ExtractionBeam F) (dSq : F) : UInt16 :=
  let efficiency := F32.max (1.0 - F32.sqrt dSq / beam.extractionRange) 0.1
  max (F32.roundU16 (F32.ofU16 beam.baseExtractionRate * efficiency)) 1

/-- Checks one attempt against its target: range, room in the store, and every tenth tick only. -/
def validateAttempt (w : World F) (acc : List Transfer × List Entity)
    (a : ExtractionAttempt F) : List Transfer × List Entity :=
  match w.get a.target .resource, w.get a.target .transform with
  | some resource, some transform =>
    let resource : Resource := resource
    let dSq := distSq transform a.transform
    if a.beam.extractionRange * a.beam.extractionRange < dSq then (acc.1, acc.2 ++ [a.agent])
    else if a.store.capacity ≤ a.store.payloadCount then (acc.1, acc.2 ++ [a.agent])
    else if 0 < resource.payloadRemaining then
      -- an attempt that only waits for its tick keeps its beam
      if w.currentServerTick % 10 = 0 then
        (acc.1 ++ [⟨a.agent, a.target, extractionAmount a.beam dSq⟩], acc.2)
      else acc
    else acc
  | _, _ => (acc.1, acc.2 ++ [a.agent])

def disableBeam (w : World F) (e : Entity) : World F :=
  w.modify e .extractionBeam fun b : ExtractionBeam F => { b with active := false }

/-- Applies one transfer, bounded by what the resource still holds and by the room in the store. -/
def executeTransfer (w : World F) (t : Transfer) : World F :=
  match w.get t.agent .dataStore, w.get t.resource .resource with
  | some store, some resource =>
    let store : DataStore := store
    let resource : Resource := resource
    let amount := min (min t.amount resource.payloadRemaining)
      (store.capacity - store.payloadCount)
    if 0 < amount then
      (w.modify t.agent .dataStore fun s : DataStore =>
        { s with payloadCount := s.payloadCount + amount }).modify t.resource .resource
          fun r : Resource => { r with payloadRemaining := r.payloadRemaining - amount }
    else w
  -- the source unwraps here; both entities were read in the same call and nothing despawned them
  | _, _ => w

/-- The mapped resources with nothing left, with position and capacity for their tracker. -/
def exhaustedResources (w : World F) (bimap : BiMap NetworkId Entity) :
    List (Entity × NetworkId × ResourceRespawn F) :=
  (w.query [.resource, .transform]).filterMap fun e =>
    match w.get e .resource, w.get e .transform with
    | some resource, some transform =>
      let resource : Resource := resource
      let transform : Transform F := transform
      if resource.payloadRemaining = 0 then
        (bimap.getByRight e).map fun n =>
          (e, n, ⟨300, 301, transform.x, transform.y, resource.totalCapacity⟩)
      else none
    | _, _ => none

def spawnTracker (w : World F) (tracker : ResourceRespawn F) : World F :=
  w.spawn [⟨.resourceRespawn, tracker⟩]

def handleResourceExhaustion (w : World F) (bimap : BiMap NetworkId Entity) :
    World F × List Entity :=
  let exhausted := exhaustedResources w bimap
  let events := exhausted.map fun (_, n, _) =>
    ((none : Option ClientId), WireEvent.platformEvent (.resourceExhausted n))
  ((exhausted.map (·.2.2)).foldl spawnTracker (w.pushReliable events), exhausted.map (·.1))

/-- `process_extraction`: the new world and the resources to despawn. -/
def processExtraction (w : World F) (bimap : BiMap NetworkId Entity) : World F × List Entity :=
  let (attempts, unmapped) :=
    (w.query [.extractionBeam, .transform, .dataStore]).foldl (collectAttempt w bimap) ([], [])
  -- every attempt is checked against the world before any transfer
  let (transfers, disabled) := attempts.foldl (validateAttempt w) ([], unmapped)
  let w := disabled.foldl disableBeam w
  let w := transfers.foldl executeTransfer w
  handleResourceExhaustion w bimap

/-! ## Respawn -/

/-- One tracker counts down; at zero it asks for a resource and for its own removal. -/
def tickRespawn (acc : World F × List (F × F × UInt16) × List Entity) (e : Entity) :
    World F × List (F × F × UInt16) × List Entity :=
  match acc.1.get e .resourceRespawn with
  | some respawn =>
    let respawn : ResourceRespawn F := respawn
    let remaining := respawn.remaining.satSub 1
    let w := acc.1.modify e .resourceRespawn fun r : ResourceRespawn F =>
      { r with remaining := remaining }
    if remaining = 0 then
      (w, acc.2.1 ++ [(respawn.x, respawn.y, respawn.totalCapacity)], acc.2.2 ++ [e])
    else (w, acc.2)
  | none => acc

def processRespawn (w : World F) : World F × List (F × F × UInt16) :=
  let (w, toSpawn, toDespawn) := (w.query [.resourceRespawn]).foldl tickRespawn (w, [], [])
  (toDespawn.foldl World.despawn w, toSpawn)

/-! ## Collection -/

structure Claim where
  agent : Entity
  drop : Entity
  amount : UInt16
deriving DecidableEq, Repr

/-- The claim of agent `a` on drop `d`, if the drop is near and the store has room. -/
def claimBy (w : World F) (d : Entity) (drop : DataDropComponent) (dt : Transform F) (a : Entity) :
    Option Claim :=
  match w.get a .dataStore, w.get a .transform with
  | some store, some transform =>
    let store : DataStore := store
    if d = a then none
    else if distSq dt transform < 10.0 * 10.0 then
      let availableSpace := store.capacity.satSub store.payloadCount
      if 0 < availableSpace then some ⟨a, d, min drop.amount availableSpace⟩ else none
    else none
  | _, _ => none

/-- The first agent in query order that can take the drop claims it. -/
def claimOf (w : World F) (d : Entity) : Option Claim :=
  match w.get d .dataDropComponent, w.get d .transform with
  | some drop, some transform =>
    (w.query [.dataStore, .transform]).findSome? (claimBy w d drop transform)
  | _, _ => none

/-- Every claim of one call; all of them are read from the same world. -/
def collectClaims (w : World F) : List Claim :=
  (w.query [.dataDropComponent, .transform]).filterMap (claimOf w)

/-- The store takes the amount without being checked again. -/
def storePayload (w : World F) (c : Claim) : World F :=
  w.modify c.agent .dataStore fun s : DataStore => { s with payloadCount := s.payloadCount + c.amount }

/-- The drop loses the amount; the flag says that it is empty now. -/
def takeFromDrop (w : World F) (c : Claim) : World F × Bool :=
  match w.get c.drop .dataDropComponent with
  | some drop =>
    if DataDropComponent.amount drop ≤ c.amount then
      (w.modify c.drop .dataDropComponent fun _ : DataDropComponent => ⟨0⟩, true)
    else
      (w.modify c.drop .dataDropComponent fun d : DataDropComponent => ⟨d.amount - c.amount⟩, false)
  | none => (w, false)

def announceCollection (bimap : BiMap NetworkId Entity) (w : World F) (c : Claim) : World F :=
  match bimap.getByRight c.drop with
  | some n => w.pushReliable [(none, .platformEvent (.payloadCollected n c.amount))]
  | none => w

def applyClaim (bimap : BiMap NetworkId Entity) (acc : World F × List Entity) (c : Claim) :
    World F × List Entity :=
  if 0 < c.amount then
    let (w, emptied) := takeFromDrop (storePayload acc.1 c) c
    (announceCollection bimap w c, if emptied then acc.2 ++ [c.drop] else acc.2)
  else acc

/-- `process_payload_collection`: the new world and the drops to despawn. -/
def processPayloadCollection (w : World F) (bimap : BiMap NetworkId Entity) :
    World F × List Entity :=
  (collectClaims w).foldl (applyClaim bimap) (w, [])

end Aetheris
