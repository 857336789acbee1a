import Aetheris.EcsBevy.Extraction
import Aetheris.EcsBevy.Registry

/-!
# Tool use, beams, regeneration and target reinitialisation

Using a tool queues a beam aimed at the nearest damageable entity. Beams hit the first damageable
entity within reach that is not their owner, draining priority before integrity. A hit that empties
the integrity terminates the target; the adapter despawns it afterwards.
-/

namespace Aetheris

open Ecs

variable {F : Type} [F32 F]

/-! ## Tool use -/

/-- One agent that holds the tool action: fires if the cooldown is over. -/
def tryUseTool (P : Platform F) (serverTick : UInt64)
    (acc : World F × List (Entity × Transform F)) (e : Entity) :
    World F × List (Entity × Transform F) :=
  match acc.1.get e .latestInput, acc.1.get e .tool, acc.1.get e .transform with
  | some latest, some tool, some transform =>
    let latest : LatestInput F := latest
    let tool : Tool := tool
    let transform : Transform F := transform
    if latest.command.actionsMask &&& P.actionUseTool ≠ 0 then
      if tool.lastFiredTick + tool.cooldownTicks.toUInt64 ≤ serverTick then
        (acc.1.modify e .tool fun t : Tool => { t with lastFiredTick := serverTick },
          acc.2 ++ [(e, transform)])
      else acc
    else acc
  | _, _, _ => acc

/-- Keeps the closer of the best target so far and `t`. -/
def closerTarget (w : World F) (attacker : Entity) (at_ : Transform F)
    (best : F × Option Entity) (t : Entity) : F × Option Entity :=
  match w.get t .transform with
  | some transform =>
    if t = attacker then best
    else if !w.has t .integrityPool && !w.has t .resourceIntegrity then best
    else
      let dSq := distSq transform at_
      if dSq < best.1 then (dSq, some t) else best
  | none => best

/-- The unit vector towards the best target, or the heading of the attacker. -/
def aimDirection (w : World F) (attacker : Entity) (at_ : Transform F) : F × F :=
  let heading := (F32.cos at_.rotation, F32.sin at_.rotation)
  let best := (w.query [.transform]).foldl (closerTarget w attacker at_) (200.0 * 200.0, none)
  match best.2.bind fun t => (w.get t .transform : Option (Transform F)) with
  | some target =>
    let dx := target.x - at_.x
    let dy := target.y - at_.y
    let dist := F32.sqrt (dx * dx + dy * dy)
    if 0.001 < dist then (dx / dist, dy / dist) else heading
  | none => heading

def requestBeam (bimap : BiMap NetworkId Entity) (w : World F) (attempt : Entity × Transform F) :
    World F :=
  let (attacker, at_) := attempt
  let direction := aimDirection w attacker at_
  let spawn : BeamSpawn F :=
    { pos := (at_.x, at_.y)
      vel := (direction.1 * 35.0, direction.2 * 35.0)
      owner := (bimap.getByRight attacker).getD ⟨0⟩ }
  { w with beamSpawnRequests := w.beamSpawnRequests.map (· ++ [spawn]) }

def processInteraction (P : Platform F) (w : World F) (bimap : BiMap NetworkId Entity) : World F :=
  let (w, attempts) := (w.query [.latestInput, .tool, .transform]).foldl
    (tryUseTool P w.currentServerTick) (w, [])
  attempts.foldl (requestBeam bimap) w

/-! ## Beams -/

/-- Drains the priority pool; returns the damage that is left. -/
def drainPriority (remaining : UInt16) (p : PriorityPool) : PriorityPool × UInt16 :=
  if remaining ≤ p.current then ({ p with current := p.current - remaining }, 0)
  else ({ p with current := 0 }, remaining - p.current)

/-- `value - remaining`, stopping at zero. -/
def drain (remaining value : UInt16) : UInt16 :=
  if remaining ≤ value then value - remaining else 0

/-- One hit of 25 on `t`: priority first, the rest on the integrity pool or, without one, on the
resource integrity. The flag says that the hit emptied it. -/
def applyBeamHit (w : World F) (t : Entity) : World F × Bool :=
  let (w, remaining) := match w.get t .priorityPool with
    | some p =>
      (w.modify t .priorityPool fun p => (drainPriority 25 p).1, (drainPriority 25 p).2)
    | none => (w, 25)
  if 0 < remaining then
    -- with both components present only the pool is damaged
    match w.get t .integrityPool, w.get t .resourceIntegrity with
    | some i, _ =>
      let left := drain remaining (IntegrityPool.current i)
      (w.modify t .integrityPool fun i : IntegrityPool => { i with current := left }, left = 0)
    | none, some r =>
      let left := drain remaining (ResourceIntegrity.integrity r)
      (w.modify t .resourceIntegrity fun r : ResourceIntegrity => { r with integrity := left },
        left = 0)
    | none, none => (w, false)
  else (w, false)

/-- What `process_beams` reads from a beam before it starts to change the world. -/
structure BeamData (F : Type) where
  entity : Entity
  marker : BeamMarker F
  x : F
  y : F

def beamData (w : World F) : List (BeamData F) :=
  (w.query [.beamMarker, .transform]).filterMap fun e =>
    match w.get e .beamMarker, w.get e .transform with
    | some marker, some transform =>
      let transform : Transform F := transform
      some ⟨e, marker, transform.x, transform.y⟩
    | _, _ => none

/-- `t` is damageable, within reach of the beam, and not the beam or its owner. -/
def beamHits (w : World F) (bimap : BiMap NetworkId Entity) (b : BeamData F) (t : Entity) : Bool :=
  match w.get t .transform with
  | some transform =>
    let transform : Transform F := transform
    t ≠ b.entity
      && (w.has t .priorityPool || w.has t .integrityPool || w.has t .resourceIntegrity)
      && bimap.getByRight t ≠ some b.marker.owner
      && decide (F32.powi2 (transform.x - b.x) + F32.powi2 (transform.y - b.y) < 16.0)
  | none => false

structure BeamAcc (F : Type) where
  world : World F
  toDespawn : List Entity
  terminations : List Entity
  interactionEvents : List (Option ClientId × PlatformEvent)

/-- One beam: it ends when spent or out of range, otherwise it ages and may hit something. -/
def processBeam (bimap : BiMap NetworkId Entity) (acc : BeamAcc F) (b : BeamData F) : BeamAcc F :=
  if b.marker.lifetimeTicks = 0
      ∨ F32.powi2 b.marker.maxRange
        < F32.powi2 (b.x - b.marker.spawnPos.1) + F32.powi2 (b.y - b.marker.spawnPos.2) then
    { acc with toDespawn := acc.toDespawn ++ [b.entity] }
  else
    let w := acc.world.modify b.entity .beamMarker fun m : BeamMarker F =>
      { m with lifetimeTicks := m.lifetimeTicks.satSub 1 }
    -- the world that is searched has the hits of the earlier beams in it
    match (w.query [.transform]).find? (beamHits w bimap b) with
    | some t =>
      let (w, terminated) := applyBeamHit w t
      { world := w
        toDespawn := acc.toDespawn ++ [b.entity]
        terminations := if terminated then acc.terminations ++ [t] else acc.terminations
        interactionEvents := match bimap.getByRight t with
          | some n => acc.interactionEvents ++ [(none, .interaction b.marker.owner n 25)]
          | none => acc.interactionEvents }
    | none => { acc with world := w }

/-- `process_beams`: the new world, the beams to despawn and the terminated entities. -/
def processBeams (w : World F) (bimap : BiMap NetworkId Entity) :
    World F × List Entity × List Entity :=
  let acc := (beamData w).foldl (processBeam bimap) ⟨w, [], [], []⟩
  (acc.world.pushReliable (acc.interactionEvents.map fun (c, ev) => (c, .platformEvent ev)),
    acc.toDespawn, acc.terminations)

/-! ## Regeneration -/

def regenEntity (w : World F) (e : Entity) : World F :=
  match w.get e .priorityPool, w.get e .priorityRegenTimer with
  | some priority, some timer =>
    let priority : PriorityPool := priority
    let timer : PriorityRegenTimer := timer
    if 0 < timer.ticksUntilRegen then
      w.modify e .priorityRegenTimer fun t : PriorityRegenTimer => ⟨t.ticksUntilRegen.satSub 1⟩
    else if priority.current < priority.max then
      w.modify e .priorityPool fun p : PriorityPool =>
        { p with current := min (p.current + 1) p.max }
    else w
  | _, _ => w

def processRegen (w : World F) : World F :=
  (w.query [.priorityPool, .priorityRegenTimer]).foldl regenEntity w

/-! ## Target reinitialisation -/

def tickRespawnTimer (acc : World F × List (F × F) × List Entity) (e : Entity) :
    World F × List (F × F) × List Entity :=
  match acc.1.get e .respawnTimer with
  | some timer =>
    let timer : RespawnTimer F := timer
    let delay := timer.delayTicks.satSub 1
    let w := acc.1.modify e .respawnTimer fun t : RespawnTimer F => { t with delayTicks := delay }
    if delay = 0 then
      match timer.location with
      | .coordinate x y => (w, acc.2.1 ++ [(x, y)], acc.2.2 ++ [e])
      -- any other location loses the target for good
      | .other _ => (w, acc.2.1, acc.2.2 ++ [e])
    else (w, acc.2)
  | none => acc

def processTargetReinitialization (w : World F) : World F × List (F × F) :=
  let (w, respawns, despawns) := (w.query [.respawnTimer]).foldl tickRespawnTimer (w, [], [])
  (despawns.foldl World.despawn w, respawns)

end Aetheris
