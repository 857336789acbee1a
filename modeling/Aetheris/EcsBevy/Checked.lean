import Aetheris.EcsBevy.Capacity
import Aetheris.Lib.Checked

/-!
# The simulation with overflow checks

The gameplay systems once more, as a build with overflow checks runs them: an addition or
subtraction that leaves its machine type, or an `unwrap` that finds nothing, stops the step. Every
such site but two is guarded by a comparison made just before it, for whatever values the components
hold. The two are the sum that tells when a tool may fire again and the payload that several drops
add to one store.
-/

namespace Aetheris

open Ecs

variable {F : Type}

/-! ## The systems -/

/-- One transfer: four lookups are unwrapped, then the room, the new payload and what is left of
the resource are computed. -/
def executeTransferChecked (w : World F) (t : Transfer) : Option (World F) := do
  let store : DataStore ← w.get t.agent .dataStore
  let resource : Resource ← w.get t.resource .resource
  let room ← store.capacity.checkedSub store.payloadCount
  let amount := min (min t.amount resource.payloadRemaining) room
  if 0 < amount then
    let payload ← store.payloadCount.checkedAdd amount
    let remaining ← resource.payloadRemaining.checkedSub amount
    some ((w.modify t.agent .dataStore fun s : DataStore =>
      { s with payloadCount := payload }).modify t.resource .resource
        fun r : Resource => { r with payloadRemaining := remaining })
  else some w

def storePayloadChecked (w : World F) (c : Claim) : Option (World F) :=
  match w.get c.agent .dataStore with
  | some store => do
    let payload ← (DataStore.payloadCount store).checkedAdd c.amount
    some (w.modify c.agent .dataStore fun s : DataStore => { s with payloadCount := payload })
  | none => some w

def takeFromDropChecked (w : World F) (c : Claim) : Option (World F × Bool) :=
  match w.get c.drop .dataDropComponent with
  | some drop =>
    if DataDropComponent.amount drop ≤ c.amount then
      some (w.modify c.drop .dataDropComponent fun _ : DataDropComponent => ⟨0⟩, true)
    else do
      let left ← (DataDropComponent.amount drop).checkedSub c.amount
      some (w.modify c.drop .dataDropComponent fun _ : DataDropComponent => ⟨left⟩, false)
  | none => some (w, false)

def applyClaimChecked (bimap : BiMap NetworkId Entity) (acc : World F × List Entity)
    (c : Claim) : Option (World F × List Entity) :=
  if 0 < c.amount then do
    let w ← storePayloadChecked acc.1 c
    let (w, emptied) ← takeFromDropChecked w c
    some (announceCollection bimap w c, if emptied then acc.2 ++ [c.drop] else acc.2)
  else some acc

def drainPriorityChecked (remaining : UInt16) (p : PriorityPool) :
    Option (PriorityPool × UInt16) :=
  if remaining ≤ p.current then do
    let current ← p.current.checkedSub remaining
    some ({ p with current := current }, 0)
  else do
    let rest ← remaining.checkedSub p.current
    some ({ p with current := 0 }, rest)

def drainChecked (remaining value : UInt16) : Option UInt16 :=
  if remaining ≤ value then value.checkedSub remaining else some 0

/-- The second half of a hit, on the integrity. -/
def hitIntegrityChecked (w : World F) (t : Entity) (remaining : UInt16) :
    Option (World F × Bool) :=
  if 0 < remaining then
    match w.get t .integrityPool, w.get t .resourceIntegrity with
    | some i, _ => do
      let left ← drainChecked remaining (IntegrityPool.current i)
      some (w.modify t .integrityPool fun i : IntegrityPool => { i with current := left },
        decide (left = 0))
    | none, some r => do
      let left ← drainChecked remaining (ResourceIntegrity.integrity r)
      some (w.modify t .resourceIntegrity fun r : ResourceIntegrity => { r with integrity := left },
        decide (left = 0))
    | none, none => some (w, false)
  else some (w, false)

def applyBeamHitChecked (w : World F) (t : Entity) : Option (World F × Bool) :=
  match w.get t .priorityPool with
  | some p => do
    let (pool, rest) ← drainPriorityChecked 25 p
    hitIntegrityChecked (w.modify t .priorityPool fun _ => pool) t rest
  | none => hitIntegrityChecked w t 25

def regenEntityChecked (w : World F) (e : Entity) : Option (World F) :=
  match w.get e .priorityPool, w.get e .priorityRegenTimer with
  | some priority, some timer =>
    let priority : PriorityPool := priority
    let timer : PriorityRegenTimer := timer
    if 0 < timer.ticksUntilRegen then
      some (w.modify e .priorityRegenTimer fun t : PriorityRegenTimer =>
        ⟨t.ticksUntilRegen.satSub 1⟩)
    else if priority.current < priority.max then do
      let current ← priority.current.checkedAdd 1
      some (w.modify e .priorityPool fun p : PriorityPool => { p with current := min current p.max })
    else some w
  | _, _ => some w

section

variable [F32 F]

def processExtractionChecked (w : World F) (bimap : BiMap NetworkId Entity) :
    Option (World F × List Entity) := do
  let (attempts, unmapped) :=
    (w.query [.extractionBeam, .transform, .dataStore]).foldl (collectAttempt w bimap) ([], [])
  let (transfers, disabled) := attempts.foldl (validateAttempt w) ([], unmapped)
  let w ← transfers.foldlM executeTransferChecked (disabled.foldl disableBeam w)
  some (handleResourceExhaustion w bimap)

def processPayloadCollectionChecked (w : World F) (bimap : BiMap NetworkId Entity) :
    Option (World F × List Entity) :=
  (collectClaims w).foldlM (applyClaimChecked bimap) (w, [])

/-- The sum of last shot and cooldown is compared with the tick. -/
def tryUseToolChecked (P : Platform F) (serverTick : UInt64)
    (acc : World F × List (Entity × Transform F)) (e : Entity) :
    Option (World F × List (Entity × Transform F)) :=
  match acc.1.get e .latestInput, acc.1.get e .tool, acc.1.get e .transform with
  | some latest, some tool, some transform =>
    let latest : LatestInput F := latest
    let tool : Tool := tool
    let transform : Transform F := transform
    if latest.command.actionsMask &&& P.actionUseTool ≠ 0 then do
      let ready ← tool.lastFiredTick.checkedAdd tool.cooldownTicks.toUInt64
      if ready ≤ serverTick then
        some (acc.1.modify e .tool fun t : Tool => { t with lastFiredTick := serverTick },
          acc.2 ++ [(e, transform)])
      else some acc
    else some acc
  | _, _, _ => some acc

/-- The transform of the best target is unwrapped. -/
def aimDirectionChecked (w : World F) (attacker : Entity) (at_ : Transform F) : Option (F × F) :=
  let heading := (F32.cos at_.rotation, F32.sin at_.rotation)
  let best := (w.query [.transform]).foldl (closerTarget w attacker at_) (200.0 * 200.0, none)
  match best.2 with
  | some t => do
    let target : Transform F ← w.get t .transform
    let dx := target.x - at_.x
    let dy := target.y - at_.y
    let dist := F32.sqrt (dx * dx + dy * dy)
    some (if 0.001 < dist then (dx / dist, dy / dist) else heading)
  | none => some heading

def requestBeamChecked (bimap : BiMap NetworkId Entity) (w : World F)
    (attempt : Entity × Transform F) : Option (World F) := do
  let (attacker, at_) := attempt
  let direction ← aimDirectionChecked w attacker at_
  let spawn : BeamSpawn F :=
    { pos := (at_.x, at_.y)
      vel := (direction.1 * 35.0, direction.2 * 35.0)
      owner := (bimap.getByRight attacker).getD ⟨0⟩ }
  some { w with beamSpawnRequests := w.beamSpawnRequests.map (· ++ [spawn]) }

def processInteractionChecked (P : Platform F) (w : World F) (bimap : BiMap NetworkId Entity) :
    Option (World F) := do
  let (w, attempts) ← (w.query [.latestInput, .tool, .transform]).foldlM
    (tryUseToolChecked P w.currentServerTick) (w, [])
  attempts.foldlM (requestBeamChecked bimap) w

def processBeamChecked (bimap : BiMap NetworkId Entity) (acc : BeamAcc F) (b : BeamData F) :
    Option (BeamAcc F) :=
  if b.marker.lifetimeTicks = 0
      ∨ F32.powi2 b.marker.maxRange
        < F32.powi2 (b.x - b.marker.spawnPos.1) + F32.powi2 (b.y - b.marker.spawnPos.2) then
    some { acc with toDespawn := acc.toDespawn ++ [b.entity] }
  else
    let w := acc.world.modify b.entity .beamMarker fun m : BeamMarker F =>
      { m with lifetimeTicks := m.lifetimeTicks.satSub 1 }
    match (w.query [.transform]).find? (beamHits w bimap b) with
    | some t => do
      let (w, terminated) ← applyBeamHitChecked w t
      some
        { world := w
          toDespawn := acc.toDespawn ++ [b.entity]
          terminations := if terminated then acc.terminations ++ [t] else acc.terminations
          interactionEvents := match bimap.getByRight t with
            | some n => acc.interactionEvents ++ [(none, .interaction b.marker.owner n 25)]
            | none => acc.interactionEvents }
    | none => some { acc with world := w }

def processBeamsChecked (w : World F) (bimap : BiMap NetworkId Entity) :
    Option (World F × List Entity × List Entity) := do
  let acc ← (beamData w).foldlM (processBeamChecked bimap) ⟨w, [], [], []⟩
  some (acc.world.pushReliable (acc.interactionEvents.map fun (c, ev) => (c, .platformEvent ev)),
    acc.toDespawn, acc.terminations)

def processRegenChecked (w : World F) : Option (World F) :=
  (w.query [.priorityPool, .priorityRegenTimer]).foldlM regenEntityChecked w

namespace BevyWorldAdapter

def extractionStageChecked (acc : BevyWorldAdapter F × Events) :
    Option (BevyWorldAdapter F × Events) := do
  let (w, exhausted) ← processExtractionChecked acc.1.world acc.1.bimap
  some (exhausted.foldl (despawnMapped .resourceExhausted) ({ acc.1 with world := w }, acc.2))

def collectionStageChecked (acc : BevyWorldAdapter F × Events) :
    Option (BevyWorldAdapter F × Events) := do
  let (w, collected) ← processPayloadCollectionChecked acc.1.world acc.1.bimap
  some (collected.foldl (despawnMapped (.payloadCollected · 0)) ({ acc.1 with world := w }, acc.2))

def beamStageChecked (acc : BevyWorldAdapter F × Events) :
    Option (BevyWorldAdapter F × Events) := do
  let (w, toDespawn, terminations) ← processBeamsChecked acc.1.world acc.1.bimap
  some (toDespawn.foldl despawnBeam
    (terminations.foldl terminate ({ acc.1 with world := w }, acc.2)))

def gameplayStageChecked (P : Platform F) (a : BevyWorldAdapter F) :
    Option (BevyWorldAdapter F) := do
  let (a, events) ← extractionStageChecked (a, [])
  let w ← processInteractionChecked P a.world a.bimap
  let acc ← collectionStageChecked ({ a with world := w }, events)
  let (a, events) ← beamStageChecked acc
  some (a.onWorld (·.pushReliable events))

/-- `simulate`, or nothing where it would stop. Movement, wrapping, toggles, respawns and the clamp
do integer arithmetic only in `saturating_sub`. -/
def simulateChecked (P : Platform F) (a : BevyWorldAdapter F) : Option (BevyWorldAdapter F) := do
  let a ← (a.motionStage P).gameplayStageChecked P
  let a := a.spawnBeams
  let w ← processRegenChecked a.world
  some ((({ a with world := w }).reinitStage.respawnStage.onWorld clampStage).runHook)

end BevyWorldAdapter

end

/-! ## Sites guarded by a comparison -/

variable (w : World F)

/-- What a transfer unwraps is there, and its store is within the capacity. -/
structure Transfer.Ready (w : World F) (t : Transfer) : Prop where
  store : w.has t.agent .dataStore = true
  resource : w.has t.resource .resource = true
  room : ∀ s : DataStore, w.get t.agent .dataStore = some s → s.payloadCount ≤ s.capacity

variable {P : Platform F} {acc : World F × List Entity} {c : Claim} {claims : List Claim}
  {e : Entity} {t : Transfer} {tick : UInt64} {w' : World F}

theorem Transfer.Ready.of_edits {ks : List Comp} {w : World F}
    (h : t.Ready w) (hedits : Edits ks w w') (hk : .dataStore ∉ ks) : t.Ready w' where
  store := (hedits.has _ _).trans h.store
  resource := (hedits.has _ _).trans h.resource
  room s hs := h.room s ((hedits.get _ _ hk).symm.trans hs)

theorem executeTransfer_ready {w : World F} {t' : Transfer} (t : Transfer) (h : t'.Ready w) :
    t'.Ready (executeTransfer w t) where
  store := ((executeTransfer_written w t).edits.has _ _).trans h.store
  resource := ((executeTransfer_written w t).edits.has _ _).trans h.resource
  room := executeTransfer_room w t h.room

theorem add_room_lt {count capacity amount : UInt16} (h : count ≤ capacity)
    (hamount : amount ≤ capacity - count) : count.toNat + amount.toNat < 2 ^ 16 := by
  have hcapacity := capacity.toNat_lt
  rw [UInt16.le_iff_toNat_le, UInt16.toNat_sub_of_le _ _ h] at hamount
  rw [UInt16.le_iff_toNat_le] at h
  omega

theorem executeTransferChecked_eq {w : World F} (h : t.Ready w) :
    executeTransferChecked w t = some (executeTransfer w t) := by
  obtain ⟨store, hstore⟩ := Option.isSome_iff_exists.mp h.store
  obtain ⟨resource, hresource⟩ := Option.isSome_iff_exists.mp h.resource
  have hroom := h.room store hstore
  change w.get t.agent .dataStore = some store at hstore
  change w.get t.resource .resource = some resource at hresource
  unfold executeTransferChecked executeTransfer
  simp only [hstore, hresource, Option.bind_eq_bind, Option.bind_some,
    UInt16.checkedSub_of_le hroom]
  have hadd : min (min t.amount (Resource.payloadRemaining resource))
      (DataStore.capacity store - DataStore.payloadCount store) ≤ _ := Std.min_le_right
  have hsub : min (min t.amount (Resource.payloadRemaining resource))
      (DataStore.capacity store - DataStore.payloadCount store) ≤
        Resource.payloadRemaining resource :=
    UInt16.le_trans Std.min_le_left Std.min_le_right
  generalize min (min t.amount (Resource.payloadRemaining resource))
    (DataStore.capacity store - DataStore.payloadCount store) = amount at hadd hsub ⊢
  split
  · rw [UInt16.checkedAdd_of_lt (add_room_lt hroom hadd), Option.bind_some,
      UInt16.checkedSub_of_le hsub, Option.bind_some]
    -- the values that were read are the values that are written over
    have hwrite : w.modify t.agent .dataStore (fun s : DataStore =>
          { s with payloadCount := DataStore.payloadCount store + amount }) =
        w.modify t.agent .dataStore fun s : DataStore =>
          { s with payloadCount := s.payloadCount + amount } :=
      World.modify_congr w hstore rfl
    rw [hwrite]
    generalize hw' : w.modify t.agent .dataStore (fun s : DataStore =>
      { s with payloadCount := s.payloadCount + amount }) = w'
    have hread : w'.get t.resource .resource = some resource := by
      rw [← hw', World.get_modify_of_ne _ _ (Or.inr (by decide))]
      exact hresource
    exact congrArg some (World.modify_congr w' hread rfl)
  · rfl

theorem executeTransfersChecked_eq {transfers : List Transfer} {w : World F}
    (h : ∀ t ∈ transfers, t.Ready w) :
    transfers.foldlM executeTransferChecked w = some (transfers.foldl executeTransfer w) := by
  refine foldlM_eq_some_foldl (fun l w => ∀ t ∈ l, t.Ready w) (fun w t l hready => ?_) transfers w h
  refine ⟨executeTransferChecked_eq (hready t List.mem_cons_self), fun t' ht' => ?_⟩
  exact executeTransfer_ready t (hready t' (List.mem_cons_of_mem t ht'))

theorem collectAttempt_store (bimap : BiMap NetworkId Entity) (es : List Entity)
    (acc : List (ExtractionAttempt F) × List Entity)
    (h : ∀ x ∈ acc.1, w.get x.agent .dataStore = some x.store) :
    ∀ x ∈ (es.foldl (collectAttempt w bimap) acc).1, w.get x.agent .dataStore = some x.store := by
  induction es generalizing acc with
  | nil => exact h
  | cons e es ih =>
    refine ih _ ?_
    unfold collectAttempt
    split
    · next beam transform store hbeam htransform hstore =>
      dsimp only
      split_ifs
      · split
        · intro x hx
          rcases List.mem_append.mp hx with hold | hnew
          · exact h x hold
          · obtain rfl := List.mem_singleton.mp hnew
            exact hstore
        · exact h
      · exact h
    · exact h

/-! ## Claims -/

/-- What the claims ask of the store of `e`, as a number. -/
def claimedTotal (claims : List Claim) (e : Entity) : Nat :=
  ((claims.filter fun c => c.agent = e).map fun c => c.amount.toNat).sum

/-- No store is given more than its counter can hold. -/
def ClaimsFit (claims : List Claim) (w : World F) : Prop :=
  ∀ e (s : DataStore), w.get e .dataStore = some s →
    s.payloadCount.toNat + claimedTotal claims e < 2 ^ 16

theorem applyClaim_claimsFit (bimap : BiMap NetworkId Entity) (h : ClaimsFit (c :: claims) acc.1) :
    ClaimsFit claims (applyClaim bimap acc c).1 := by
  intro e s hs
  by_cases he : c.agent = e
  · subst he
    rw [applyClaim_self] at hs
    obtain ⟨s₀, hs₀, rfl⟩ := Option.map_eq_some_iff.mp hs
    have hfits := h c.agent s₀ hs₀
    have htotal : claimedTotal (c :: claims) c.agent =
        c.amount.toNat + claimedTotal claims c.agent := by simp [claimedTotal]
    rw [htotal] at hfits
    change (DataStore.payloadCount s₀ + c.amount).toNat + _ < _
    rw [UInt16.toNat_add, Nat.mod_eq_of_lt (by omega)]
    omega
  · rw [applyClaim_other bimap acc he] at hs
    have htotal : claimedTotal (c :: claims) e = claimedTotal claims e := by
      simp [claimedTotal, he]
    exact htotal ▸ h e s hs

/-- If the agent is about to use its tool, the last shot and the cooldown have a sum. -/
def CooldownFits (P : Platform F) (w : World F) (e : Entity) : Prop :=
  ∀ (latest : LatestInput F) (tool : Tool), w.get e .latestInput = some latest →
    w.get e .tool = some tool → latest.command.actionsMask &&& P.actionUseTool ≠ 0 →
      tool.lastFiredTick.toNat + tool.cooldownTicks.toNat < 2 ^ 64

variable [F32 F]

theorem validateAttempt_ready (attempts : List (ExtractionAttempt F))
    (hattempts : ∀ x ∈ attempts, w.get x.agent .dataStore = some x.store)
    (acc : List Transfer × List Entity) (h : ∀ t ∈ acc.1, t.Ready w) :
    ∀ t ∈ (attempts.foldl (validateAttempt w) acc).1, t.Ready w := by
  induction attempts generalizing acc with
  | nil => exact h
  | cons a attempts ih =>
    have hstore := hattempts a List.mem_cons_self
    refine ih (fun x hx => hattempts x (List.mem_cons_of_mem a hx)) _ ?_
    unfold validateAttempt
    split
    · next resource transform hresource htransform =>
      dsimp only
      split_ifs with _ hfull
      · exact h
      · exact h
      · intro t ht
        rcases List.mem_append.mp ht with hold | hnew
        · exact h t hold
        · obtain rfl := List.mem_singleton.mp hnew
          -- a full store was turned away, so this one has room
          refine ⟨?_, ?_, fun s hs => ?_⟩
          · exact Option.isSome_iff_exists.mpr ⟨a.store, hstore⟩
          · exact Option.isSome_iff_exists.mpr ⟨resource, hresource⟩
          · obtain rfl := Option.some.inj (hstore.symm.trans hs)
            exact UInt16.le_of_lt (UInt16.not_le.mp hfull)
      · exact h
      · exact h
    · exact h

theorem processExtractionChecked_eq (bimap : BiMap NetworkId Entity) :
    processExtractionChecked w bimap = some (processExtraction w bimap) := by
  unfold processExtractionChecked processExtraction
  have hattempts := collectAttempt_store w bimap
    (w.query [.extractionBeam, .transform, .dataStore]) ([], []) fun _ hx => (nomatch hx)
  generalize (w.query [.extractionBeam, .transform, .dataStore]).foldl (collectAttempt w bimap)
    ([], []) = read at hattempts ⊢
  dsimp only
  have hready := validateAttempt_ready w read.1 hattempts ([], read.2) fun _ ht => (nomatch ht)
  generalize read.1.foldl (validateAttempt w) ([], read.2) = checked at hready ⊢
  have hdisabled := (disableBeams_written checked.2 w).edits
  rw [executeTransfersChecked_eq fun t ht => (hready t ht).of_edits hdisabled (by decide)]
  rfl

namespace BevyWorldAdapter

/-- What a step needs so that its two unguarded sums stay in their types: the cooldown sums when
it starts, and the claims when the collection starts. -/
structure SumsFit (P : Platform F) (a : BevyWorldAdapter F) : Prop where
  cooldowns : ∀ e, CooldownFits P a.world e
  claims : ClaimsFit (collectClaims (a.beforeCollection P).world) (a.beforeCollection P).world

variable {P : Platform F} {a : BevyWorldAdapter F}

end BevyWorldAdapter

end Aetheris
