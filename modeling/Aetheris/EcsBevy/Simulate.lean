import Aetheris.EcsBevy.Adapter
import Aetheris.EcsBevy.Interaction

/-!
# The simulation step

`simulate` runs the stages of one tick over the world: movement, workspace wrapping, extraction
toggles, the gameplay systems with the despawns and spawns they ask for, and the clamp of the third
coordinate. Diagnostics are left out. The two heading loops go round at most `headingFuel` times.
-/

namespace Aetheris

open Ecs

variable {F : Type} [F32 F]

/-! ## Movement -/

/-- `while delta > PI { delta -= TAU }`. -/
def lowerHeading : Nat → F → F
  | 0, delta => delta
  | fuel + 1, delta => if F32.pi < delta then lowerHeading fuel (delta - F32.tau) else delta

/-- `while delta < -PI { delta += TAU }`. -/
def raiseHeading : Nat → F → F
  | 0, delta => delta
  | fuel + 1, delta => if delta < F32.neg F32.pi then raiseHeading fuel (delta + F32.tau) else delta

/-- The last move action of a command. -/
def moveInput (actions : List (PlayerInputKind F)) : F × F :=
  actions.foldl (fun acc action => match action with
    | .move x y => (x, y)
    | _ => acc) (0.0, 0.0)

def integrateVelocity (dt : F) (physics : PhysicsBody F) (payload : F) (move : F × F)
    (v : Velocity F) : Velocity F :=
  let totalMass := physics.baseMass + payload * physics.massPerPayload
  let accelX := move.1 * (physics.thrustForce / totalMass)
  let accelY := move.2 * (physics.thrustForce / totalMass)
  -- semi-implicit drag, which does not oscillate at a large time step
  let dragFactor := 1.0 / (1.0 + physics.drag * dt)
  let dx := (v.dx + accelX * dt) * dragFactor
  let dy := (v.dy + accelY * dt) * dragFactor
  let speed := F32.sqrt (dx * dx + dy * dy)
  if physics.maxVelocity < speed ∧ F32.epsilon < speed then
    let ratio := physics.maxVelocity / speed
    ⟨dx * ratio, dy * ratio, v.dz⟩
  else ⟨dx, dy, v.dz⟩

def integrateTransform (fuel : Nat) (dt : F) (physics : PhysicsBody F) (v : Velocity F)
    (t : Transform F) : Transform F :=
  let t := { t with x := t.x + v.dx * dt, y := t.y + v.dy * dt }
  if 0.01 < v.dx * v.dx + v.dy * v.dy then
    let target := F32.atan2 v.dy v.dx
    let delta := raiseHeading fuel (lowerHeading fuel (target - t.rotation))
    -- turn towards the velocity by at most the turn rate
    let maxTurn := F32.toRadians physics.turnRate * dt
    if F32.abs delta < maxTurn then { t with rotation := target }
    else { t with rotation := t.rotation + F32.signum delta * maxTurn }
  else t

/-- Stage 1 for one entity. -/
def moveEntity (fuel : Nat) (dt : F) (w : World F) (e : Entity) : World F :=
  match w.get e .velocity, w.get e .physicsBody with
  | some velocity, some physics =>
    let payload := match w.get e .dataStore with
      | some store => F32.ofU16 (DataStore.payloadCount store)
      | none => 0.0
    let move := match w.get e .latestInput with
      | some latest => moveInput (LatestInput.command latest).actions
      | none => (0.0, 0.0)
    let v := integrateVelocity dt physics payload move velocity
    (w.modify e .velocity fun _ => v).modify e .transform (integrateTransform fuel dt physics v)
  | _, _ => w

def moveStage (fuel : Nat) (dt : F) (w : World F) : World F :=
  (w.query [.velocity, .transform, .physicsBody, .networked]).foldl (moveEntity fuel dt) w

/-! ## Workspace bounds -/

def workspaceBoundsOf (w : World F) (bimap : BiMap NetworkId Entity) :
    List (NetworkId × WorkspaceBounds F) :=
  (w.query [.workspaceBounds]).filterMap fun e =>
    match bimap.getByRight e, w.get e .workspaceBounds with
    | some n, some bounds => some (n, bounds)
    | _, _ => none

/-- Toroidal wrapping of one entity into the bounds of its workspace. -/
def wrapEntity (workspaces : List (NetworkId × WorkspaceBounds F)) (w : World F) (e : Entity) :
    World F :=
  match w.get e .workspaceMembership with
  | some workspace =>
    let workspace : NetworkId := workspace
    match workspaces.find? (·.1 = workspace) with
    | some (_, bounds) =>
      let width := bounds.maxX - bounds.minX
      let height := bounds.maxY - bounds.minY
      let w := if 0.0 < width then
          w.modify e .transform fun t : Transform F =>
            { t with x := F32.remEuclid (t.x - bounds.minX) width + bounds.minX }
        else w
      if 0.0 < height then
        w.modify e .transform fun t : Transform F =>
          { t with y := F32.remEuclid (t.y - bounds.minY) height + bounds.minY }
      else w
    | none => w
  | none => w

def wrapStage (bimap : BiMap NetworkId Entity) (w : World F) : World F :=
  (w.query [.transform, .workspaceMembership]).foldl (wrapEntity (workspaceBoundsOf w bimap)) w

/-! ## Extraction toggles -/

/-- The target of the first toggle of a command. -/
def toggleTarget (actions : List (PlayerInputKind F)) : Option NetworkId :=
  actions.findSome? fun action => match action with
    | .toggleExtraction target => some target
    | _ => none

/-- Acts on a command once: the beam remembers the tick it has seen. -/
def toggleEntity (w : World F) (e : Entity) : World F :=
  match w.get e .latestInput, w.get e .extractionBeam with
  | some latest, some beam =>
    let command := LatestInput.command latest
    -- a command stays in its slot until the next one and must not toggle again
    if ExtractionBeam.lastSeenInputTick beam ≠ some command.tick then
      w.modify e .extractionBeam fun b : ExtractionBeam F =>
        match toggleTarget command.actions with
        | some target =>
          { b with active := !b.active, target := some target,
                   lastSeenInputTick := some command.tick }
        | none => { b with lastSeenInputTick := some command.tick }
    else w
  | _, _ => w

def toggleStage (w : World F) : World F :=
  (w.query [.latestInput, .extractionBeam]).foldl toggleEntity w

/-! ## Clamp -/

def clampEntity (w : World F) (e : Entity) : World F :=
  match w.get e .transform, w.get e .velocity with
  | some transform, some velocity =>
    let w := if F32.epsilon < F32.abs (Transform.z transform) then
        w.modify e .transform fun t : Transform F => { t with z := 0.0 }
      else w
    if F32.epsilon < F32.abs (Velocity.dz velocity) then
      w.modify e .velocity fun v : Velocity F => { v with dz := 0.0 }
    else w
  | _, _ => w

def clampStage (w : World F) : World F :=
  (w.query [.transform, .velocity]).foldl clampEntity w

namespace BevyWorldAdapter

/-! ## Despawns asked for by the gameplay systems -/

/-- Events gathered during the gameplay stage, appended to the reliable queue at its end. -/
abbrev Events := List (Option ClientId × WireEvent)

def onWorld (a : BevyWorldAdapter F) (f : World F → World F) : BevyWorldAdapter F :=
  { a with world := f a.world }

/-- Despawns a mapped entity and announces it. -/
def despawnMapped (event : NetworkId → PlatformEvent) (acc : BevyWorldAdapter F × Events)
    (e : Entity) : BevyWorldAdapter F × Events :=
  match acc.1.bimap.getByRight e with
  | some n => ((acc.1.despawnNetworked n).1, acc.2 ++ [(none, .platformEvent (event n))])
  | none => acc

/-- A terminated entity leaves its payload behind as a data drop. -/
def dropPayload (a : BevyWorldAdapter F) (e : Entity) : BevyWorldAdapter F :=
  match a.world.get e .dataStore with
  | some store =>
    let amount := DataStore.payloadCount store
    if 0 < amount then
      let pos : F × F := match a.world.get e .transform with
        | some t => (Transform.x t, Transform.y t)
        | none => (0.0, 0.0)
      let (a, dropId) := a.spawnKind entityTypeDataDrop pos.1 pos.2 0.0
      match a.bimap.getByLeft dropId with
      | some drop =>
        a.onWorld (·.modify drop .dataDropComponent fun _ : DataDropComponent => ⟨amount⟩)
      | none => a
    else a
  | none => a

/-- A terminated training target leaves a timer behind. -/
def spawnReinitTracker (a : BevyWorldAdapter F) (e : Entity) : BevyWorldAdapter F :=
  if a.world.has e .trainingTarget then
    let timer : RespawnTimer F := ⟨600, .coordinate 50.0 50.0⟩
    a.onWorld (·.spawn [⟨.trainingTarget, ()⟩, ⟨.respawnTimer, timer⟩])
  else a

def terminate (acc : BevyWorldAdapter F × Events) (e : Entity) : BevyWorldAdapter F × Events :=
  match acc.1.bimap.getByRight e with
  | some n =>
    -- the payload and the timer are read off the entity before it is despawned
    let a := (acc.1.dropPayload e).spawnReinitTracker e
    ((a.despawnNetworked n).1, acc.2 ++ [(none, .platformEvent (.termination n))])
  | none => acc

/-- A spent beam: despawned by identifier, or locally when it has none. -/
def despawnBeam (acc : BevyWorldAdapter F × Events) (e : Entity) : BevyWorldAdapter F × Events :=
  match acc.1.bimap.getByRight e with
  | some n =>
    ((acc.1.despawnNetworked n).1, acc.2 ++ [(none, .platformEvent (.termination n))])
  | none => if acc.1.world.alive e then (acc.1.onWorld (·.despawn e), acc.2) else acc

/-! ## Spawns asked for by the gameplay systems -/

def spawnBeam (a : BevyWorldAdapter F) (spawn : BeamSpawn F) : BevyWorldAdapter F :=
  let rot := F32.atan2 spawn.vel.2 spawn.vel.1
  let (a, id) := a.spawnKind entityTypeBeam spawn.pos.1 spawn.pos.2 rot
  match a.bimap.getByLeft id with
  | some e =>
    a.onWorld fun w =>
      (w.modify e .beamMarker fun m : BeamMarker F => { m with owner := spawn.owner }).modify
        e .velocity fun v : Velocity F => { v with dx := spawn.vel.1, dy := spawn.vel.2 }
  | none => a

/-- Takes the queued beams out of the resource and spawns them. -/
def spawnBeams (a : BevyWorldAdapter F) : BevyWorldAdapter F :=
  let spawns := a.world.beamSpawnRequests.getD []
  let a := a.onWorld fun w =>
    { w with beamSpawnRequests := w.beamSpawnRequests.map fun _ => [] }
  spawns.foldl spawnBeam a

def respawnTarget (a : BevyWorldAdapter F) (pos : F × F) : BevyWorldAdapter F :=
  (a.spawnKind entityTypeTrainingTarget pos.1 pos.2 0.0).1

def respawnResource (a : BevyWorldAdapter F) (r : F × F × UInt16) : BevyWorldAdapter F :=
  let (a, n) := a.spawnKind entityTypeResource r.1 r.2.1 0.0
  match a.bimap.getByLeft n with
  | some e => a.onWorld (·.modify e .resource fun _ : Resource => ⟨r.2.2, r.2.2⟩)
  | none => a

/-! ## The gameplay stage -/

def extractionStage (acc : BevyWorldAdapter F × Events) : BevyWorldAdapter F × Events :=
  let (w, exhausted) := processExtraction acc.1.world acc.1.bimap
  exhausted.foldl (despawnMapped .resourceExhausted) ({ acc.1 with world := w }, acc.2)

def collectionStage (acc : BevyWorldAdapter F × Events) : BevyWorldAdapter F × Events :=
  let (w, collected) := processPayloadCollection acc.1.world acc.1.bimap
  collected.foldl (despawnMapped (.payloadCollected · 0)) ({ acc.1 with world := w }, acc.2)

def beamStage (acc : BevyWorldAdapter F × Events) : BevyWorldAdapter F × Events :=
  let (w, toDespawn, terminations) := processBeams acc.1.world acc.1.bimap
  toDespawn.foldl despawnBeam (terminations.foldl terminate ({ acc.1 with world := w }, acc.2))

def reinitStage (a : BevyWorldAdapter F) : BevyWorldAdapter F :=
  let (w, toReinit) := processTargetReinitialization a.world
  toReinit.foldl respawnTarget { a with world := w }

def respawnStage (a : BevyWorldAdapter F) : BevyWorldAdapter F :=
  let (w, toRespawn) := processRespawn a.world
  toRespawn.foldl respawnResource { a with world := w }

variable (P : Platform F)

/-- Movement, wrapping and toggles. -/
def motionStage (a : BevyWorldAdapter F) : BevyWorldAdapter F :=
  a.onWorld fun w =>
    toggleStage (wrapStage a.bimap (moveStage P.headingFuel (1.0 / F32.ofU64 a.tickRate) w))

/-- Extraction, tool use, collection and beams, and then the announcements of all of them. -/
def gameplayStage (a : BevyWorldAdapter F) : BevyWorldAdapter F :=
  -- the systems themselves push to the queue as they go; the despawns are announced at the end
  let (a, events) := extractionStage (a, [])
  let a := { a with world := processInteraction P a.world a.bimap }
  let (a, events) := beamStage (collectionStage (a, events))
  a.onWorld (·.pushReliable events)

def runHook (a : BevyWorldAdapter F) : BevyWorldAdapter F :=
  match a.postSimulateHook with
  | some hook => a.onWorld hook
  | none => a

def simulate (a : BevyWorldAdapter F) : BevyWorldAdapter F :=
  let a := ((a.motionStage P).gameplayStage P).spawnBeams
  let a := (a.onWorld processRegen).reinitStage.respawnStage
  (a.onWorld clampStage).runHook

/-- The part of `simulate` before the hook. -/
def beforeHook (a : BevyWorldAdapter F) : BevyWorldAdapter F :=
  let a := ((a.motionStage P).gameplayStage P).spawnBeams
  let a := (a.onWorld processRegen).reinitStage.respawnStage
  a.onWorld clampStage

theorem simulate_eq (a : BevyWorldAdapter F) : a.simulate P = (a.beforeHook P).runHook := rfl

end BevyWorldAdapter

/-- The adapter as the world the tick pipeline runs on. -/
def bevyWorldState (P : Platform F) : WorldState (BevyWorldAdapter F) F where
  advanceTick := BevyWorldAdapter.advanceTick
  stressTest := BevyWorldAdapter.stressTest P
  despawnNetworked := BevyWorldAdapter.despawnNetworked
  spawnKindFor := BevyWorldAdapter.spawnKindFor
  spawnSessionAgent := BevyWorldAdapter.spawnSessionAgent
  queueReliableEvent := BevyWorldAdapter.queueReliableEvent
  clearWorld := BevyWorldAdapter.clearWorld P
  applyUpdates := BevyWorldAdapter.applyUpdates
  simulate := BevyWorldAdapter.simulate P
  extractDeltas := BevyWorldAdapter.extractDeltas P
  extractReliableEvents := BevyWorldAdapter.extractReliableEvents
  postExtract := BevyWorldAdapter.postExtract
  getEntityWorkspace := BevyWorldAdapter.getEntityWorkspace
  getClientWorkspace := BevyWorldAdapter.getClientWorkspace P

theorem bevyWorldState_simulate (P : Platform F) :
    (bevyWorldState P).simulate = BevyWorldAdapter.simulate P := by
  unfold bevyWorldState
  with_reducible rfl

end Aetheris
