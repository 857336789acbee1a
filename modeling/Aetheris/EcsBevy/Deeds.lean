import Aetheris.EcsBevy.Edits

/-!
# What the simulation is made of

Up to its hook a step of the simulation does things of nine kinds: values are overwritten and
platform events announced, beams are asked for and taken out of their queue, a tracker of a resource
or of a training target is left behind, an entity is spawned by its kind, an entity of the map is
despawned, and a beam that is not on the map or a tracker that has run out is. `Deed` lists them.
Whatever holds of each deed and composes holds of every stage.
-/

namespace Aetheris

open Ecs Relation

variable {F : Type}

/-- The components whose values the systems overwrite. -/
def valueComps : List Comp :=
  [.velocity, .transform, .extractionBeam, .dataStore, .resource, .tool, .dataDropComponent,
    .beamMarker, .priorityPool, .integrityPool, .resourceIntegrity, .priorityRegenTimer]

namespace BevyWorldAdapter

/-- The marks of the trackers. -/
def trackerComps : List Comp := [.resourceRespawn, .respawnTimer]

/-- What `spawn_kind` gives to an entity that is not an agent, and to the master workspace. -/
def bodyComps : List Comp :=
  [.networked, .transform, .velocity, .workspaceDefinition, .workspaceBounds,
    .workspaceMembership, .resource, .resourceIntegrity, .dataDropComponent, .beamMarker,
    .physicsBody, .trainingTarget, .agentKind, .playerName, .priorityPool, .integrityPool,
    .priorityRegenTimer]

def bodyKinds : List UInt16 :=
  [entityTypeBeam, entityTypeDataDrop, entityTypeTrainingTarget, entityTypeResource]

/-- What the extraction writes. -/
def extractionComps : List Comp := [.extractionBeam, .dataStore, .resource, .resourceRespawn]

/-- Everything the simulation writes after the collection of payload. -/
def sceneComps : List Comp := bodyComps ++ [.resourceRespawn, .respawnTimer]

theorem bodyComps_subset : bodyComps ⊆ sceneComps := List.subset_append_left _ _

/-- Everything the simulation writes. -/
def simulationComps : List Comp := sceneComps ++ [.extractionBeam, .dataStore, .tool]

variable [F32 F]

/-- The bundle of the tracker of a training target. -/
def timerComps : Comps F :=
  let timer : RespawnTimer F := ⟨600, .coordinate 50.0 50.0⟩
  [⟨.trainingTarget, ()⟩, ⟨.respawnTimer, timer⟩]

/-- One deed: `asks` allows requests for beams, and nothing outside `ks` is written or given to what
is spawned. -/
inductive Deed (asks : Bool) (ks : List Comp) :
    BevyWorldAdapter F → BevyWorldAdapter F → Prop where
  | edit {a : BevyWorldAdapter F} {w : World F} {ks' : List Comp} (h : Edited ks' a.world w)
      (hvalues : ks' ⊆ valueComps ++ trackerComps) (hks : ks' ⊆ ks) :
      Deed asks ks a { a with world := w }
  | request (a : BevyWorldAdapter F) (spawns : List (BeamSpawn F)) (h : asks = true) :
      Deed asks ks a (a.onWorld fun w =>
        { w with beamSpawnRequests := w.beamSpawnRequests.map (· ++ spawns) })
  | take (a : BevyWorldAdapter F) : Deed asks ks a (a.onWorld fun w =>
      { w with beamSpawnRequests := w.beamSpawnRequests.map fun _ => [] })
  | track (a : BevyWorldAdapter F) (r : ResourceRespawn F) (h : .resourceRespawn ∈ ks) :
      Deed asks ks a (a.onWorld (spawnTracker · r))
  | timer (a : BevyWorldAdapter F) (h : [.trainingTarget, .respawnTimer] ⊆ ks) :
      Deed asks ks a (a.onWorld (·.spawn timerComps))
  | spawn (a : BevyWorldAdapter F) {kind : UInt16} (hkind : kind ∈ bodyKinds)
      (h : bodyComps ⊆ ks) (x y rot : F) : Deed asks ks a (a.spawnKind kind x y rot).1
  | unmap (a : BevyWorldAdapter F) (n : NetworkId) : Deed asks ks a (a.despawnNetworked n).1
  | unmapped (a : BevyWorldAdapter F) {e : Entity} (h : ∀ n, ¬ a.bimap.Rel n e) :
      Deed asks ks a (a.onWorld (·.despawn e))
  | finish (a : BevyWorldAdapter F) {e : Entity} {k : Comp} (hk : k ∈ trackerComps)
      (h : a.world.alive e = true → a.world.has e k = true) :
      Deed asks ks a (a.onWorld (·.despawn e))

abbrev Deeds (asks : Bool) (ks : List Comp) :
    BevyWorldAdapter F → BevyWorldAdapter F → Prop := ReflTransGen (Deed asks ks)

variable {asks : Bool} {ks ks' : List Comp} {a b : BevyWorldAdapter F}

namespace Deeds

theorem mono {asks' : Bool} (h : Deeds asks ks a b) (hasks : asks = true → asks' = true)
    (hsub : ks ⊆ ks') : Deeds asks' ks' a b := by
  refine ReflTransGen.mono (fun a b hdeed => ?_) _ _ h
  cases hdeed with
  | edit h hvalues hks => exact .edit h hvalues fun _ hk => hsub (hks hk)
  | request spawns h => exact .request a spawns (hasks h)
  | take => exact .take a
  | track r h => exact .track a r (hsub h)
  | timer h => exact .timer a fun _ hk => hsub (h hk)
  | spawn hkind h x y rot => exact .spawn a hkind (fun _ hk => hsub (h hk)) x y rot
  | unmap n => exact .unmap a n
  | unmapped h => exact .unmapped a h
  | finish hk h => exact .finish a hk h

theorem foldl {σ α : Type} (π : σ → BevyWorldAdapter F) {f : σ → α → σ}
    (h : ∀ s x, Deeds asks ks (π s) (π (f s x))) (l : List α) (s : σ) :
    Deeds asks ks (π s) (π (l.foldl f s)) := by
  induction l generalizing s with
  | nil => exact .refl
  | cons x l ih => exact (h s x).trans (ih (f s x))

theorem of_written {w : World F} (h : Written ks' a.world w)
    (hvalues : ks' ⊆ valueComps ++ trackerComps) (hks : ks' ⊆ ks) :
    Deeds asks ks a { a with world := w } := .single (.edit h.edited hvalues hks)

theorem announce {events : Events} (h : News events) :
    Deeds asks ks a (a.onWorld (·.pushReliable events)) :=
  .single (.edit (.single (.announce a.world events h)) (List.nil_subset _) (List.nil_subset ks))

end Deeds

/-! ## Despawns -/

theorem despawnMapped_deeds (ks : List Comp) (event : NetworkId → PlatformEvent)
    (acc : BevyWorldAdapter F × Events) (e : Entity) :
    Deeds false ks acc.1 (despawnMapped event acc e).1 := by
  unfold despawnMapped
  split
  · next n _ => exact .single (.unmap acc.1 n)
  · exact .refl

theorem despawnBeam_deeds (ks : List Comp) (acc : BevyWorldAdapter F × Events) (e : Entity) :
    Deeds false ks acc.1 (despawnBeam acc e).1 := by
  unfold despawnBeam
  split
  · next n _ => exact .single (.unmap acc.1 n)
  · next hright =>
    split
    · exact .single (.unmapped acc.1 (BiMap.getByRight_eq_none.mp hright))
    · exact .refl

/-! ## Spawns -/

/-- A spawn by kind whose entity is then given other values. -/
theorem spawnKind_edit_deeds (ks' : List Comp) (a : BevyWorldAdapter F) {kind : UInt16}
    (hkind : kind ∈ bodyKinds) (x y rot : F) {f : Entity → World F → World F}
    (h : ∀ e w, Written ks' w (f e w)) (hvalues : ks' ⊆ valueComps) (hks : ks' ⊆ sceneComps) :
    Deeds false sceneComps a
      (match (a.spawnKind kind x y rot).1.bimap.getByLeft (a.spawnKind kind x y rot).2 with
        | some e => (a.spawnKind kind x y rot).1.onWorld (f e)
        | none => (a.spawnKind kind x y rot).1) := by
  have hspawn : Deeds false sceneComps a (a.spawnKind kind x y rot).1 :=
    .single (.spawn a hkind bodyComps_subset x y rot)
  split
  · exact hspawn.trans
      (Deeds.of_written (h _ _) (fun _ hk => List.mem_append_left _ (hvalues hk)) hks)
  · exact hspawn

theorem dropPayload_deeds (a : BevyWorldAdapter F) (e : Entity) :
    Deeds false sceneComps a (a.dropPayload e) := by
  unfold dropPayload
  split
  · dsimp only
    split
    · exact spawnKind_edit_deeds _ a (by decide) _ _ _
        (fun drop w => Written.modify w drop (List.mem_singleton_self _) _) (by decide) (by decide)
    · exact .refl
  · exact .refl

theorem spawnReinitTracker_deeds (a : BevyWorldAdapter F) (e : Entity) :
    Deeds false sceneComps a (a.spawnReinitTracker e) := by
  unfold spawnReinitTracker
  split
  · exact .single (.timer a (by decide))
  · exact .refl

theorem terminate_deeds (acc : BevyWorldAdapter F × Events) (e : Entity) :
    Deeds false sceneComps acc.1 (terminate acc e).1 := by
  unfold terminate
  split
  · exact ((dropPayload_deeds acc.1 e).trans (spawnReinitTracker_deeds _ e)).tail (.unmap _ _)
  · exact .refl

theorem spawnBeam_deeds (a : BevyWorldAdapter F) (spawn : BeamSpawn F) :
    Deeds false sceneComps a (a.spawnBeam spawn) :=
  spawnKind_edit_deeds [.beamMarker, .velocity] a (by decide) _ _ _
    (fun e w => (Written.modify w e (by decide) _).andModify e (by decide) _) (by decide)
    (by decide)

theorem respawnResource_deeds (a : BevyWorldAdapter F) (r : F × F × UInt16) :
    Deeds false sceneComps a (a.respawnResource r) :=
  spawnKind_edit_deeds _ a (by decide) _ _ _
    (fun e w => Written.modify w e (List.mem_singleton_self _) _) (by decide) (by decide)

theorem spawnTrackers_deeds (trackers : List (ResourceRespawn F)) (a : BevyWorldAdapter F)
    (h : .resourceRespawn ∈ ks) :
    Deeds false ks a { a with world := trackers.foldl spawnTracker a.world } := by
  induction trackers generalizing a with
  | nil => exact .refl
  | cons tracker trackers ih => exact .head (.track a tracker h) (ih _)

/-! ## Stages -/

theorem processExtraction_deeds (a : BevyWorldAdapter F) :
    Deeds false extractionComps a { a with world := (processExtraction a.world a.bimap).1 } := by
  obtain ⟨events, trackers, hevents, hshape⟩ := processExtraction_shape a.world a.bimap
  rw [hshape]
  have htransfers : Deeds false extractionComps a
      { a with world := afterTransfers a.world a.bimap } :=
    .of_written (afterTransfers_written a.world a.bimap) (by decide) (by decide)
  generalize afterTransfers a.world a.bimap = w at htransfers ⊢
  exact (htransfers.trans (Deeds.announce hevents)).trans
    (spawnTrackers_deeds trackers { a with world := w.pushReliable events } (by decide))

theorem extractionStage_deeds (acc : BevyWorldAdapter F × Events) :
    Deeds false extractionComps acc.1 (extractionStage acc).1 := by
  unfold extractionStage
  have hextract := processExtraction_deeds acc.1
  generalize processExtraction acc.1.world acc.1.bimap = out at hextract ⊢
  exact hextract.trans (Deeds.foldl Prod.fst (despawnMapped_deeds _ _) out.2
    ({ acc.1 with world := out.1 }, acc.2))

/-- What has been collected goes. -/
theorem collectionStage_deeds (ks : List Comp) (acc : BevyWorldAdapter F × Events) :
    Deeds false ks { acc.1 with world := (processPayloadCollection acc.1.world acc.1.bimap).1 }
      (collectionStage acc).1 := by
  unfold collectionStage
  generalize processPayloadCollection acc.1.world acc.1.bimap = out
  exact Deeds.foldl Prod.fst (despawnMapped_deeds _ _) out.2 ({ acc.1 with world := out.1 }, acc.2)

theorem beamStage_deeds (acc : BevyWorldAdapter F × Events) :
    Deeds false sceneComps acc.1 (beamStage acc).1 := by
  unfold beamStage
  have hbeams : Deeds false sceneComps acc.1
      { acc.1 with world := (processBeams acc.1.world acc.1.bimap).1 } :=
    .single (.edit (processBeams_edited acc.1.world acc.1.bimap) (by decide) (by decide))
  generalize processBeams acc.1.world acc.1.bimap = out at hbeams ⊢
  have hterminate := Deeds.foldl Prod.fst terminate_deeds out.2.2
    ({ acc.1 with world := out.1 }, acc.2)
  exact (hbeams.trans hterminate).trans (Deeds.foldl Prod.fst (despawnBeam_deeds _) out.2.1 _)

/-! ### Countdowns -/

section Countdown

variable {α : Type} {k : Comp}

omit [F32 F] in
/-- What a countdown lists for removal still carries the countdown. -/
theorem has_of_countdown {f : World F × α × List Entity → Entity →
    World F × α × List Entity} (hedit : ∀ acc e, Written [k] acc.1 (f acc e).1)
    (hlist : ∀ acc e, ∀ e' ∈ (f acc e).2.2, e' ∈ acc.2.2 ∨ e' = e ∧ acc.1.has e k = true)
    (es : List Entity) (acc : World F × α × List Entity)
    (hacc : ∀ e ∈ acc.2.2, acc.1.has e k = true) :
    ∀ e ∈ (es.foldl f acc).2.2, (es.foldl f acc).1.has e k = true := by
  induction es generalizing acc with
  | nil => exact hacc
  | cons e es ih =>
    refine ih (f acc e) fun e' he' => ?_
    rw [(hedit acc e).edits.has]
    rcases hlist acc e e' he' with hold | ⟨rfl, hnew⟩
    · exact hacc e' hold
    · exact hnew

/-- Trackers go, some of which may be gone already. -/
theorem despawnTrackers_deeds (ks : List Comp) (hk : k ∈ trackerComps) (es : List Entity)
    (a : BevyWorldAdapter F)
    (h : ∀ e ∈ es, a.world.alive e = true → a.world.has e k = true) :
    Deeds false ks a { a with world := es.foldl World.despawn a.world } := by
  induction es generalizing a with
  | nil => exact .refl
  | cons e es ih =>
    obtain ⟨he, hes⟩ := List.forall_mem_cons.mp h
    refine .head (.finish a hk he) (ih (a.onWorld (·.despawn e)) fun e' he' halive => ?_)
    rw [show (a.onWorld (·.despawn e)).world = a.world.despawn e from rfl] at halive ⊢
    rw [World.alive_despawn, Bool.and_eq_true, decide_eq_true_eq] at halive
    have hget := World.get_despawn a.world e e' k
    rw [if_neg halive.1] at hget
    exact (congrArg Option.isSome hget).trans (hes e' he' halive.2)

/-- A countdown over its entities, then the removal of those that have run out. -/
theorem countdown_deeds (hk : k ∈ trackerComps)
    {f : World F × List α × List Entity → Entity → World F × List α × List Entity}
    (hedit : ∀ acc e, Written [k] acc.1 (f acc e).1)
    (hlist : ∀ acc e, ∀ e' ∈ (f acc e).2.2, e' ∈ acc.2.2 ∨ e' = e ∧ acc.1.has e k = true)
    (es : List Entity) (a : BevyWorldAdapter F) {acc : World F × List α × List Entity}
    (hacc : es.foldl f (a.world, [], []) = acc) :
    Deeds false sceneComps a { a with world := acc.2.2.foldl World.despawn acc.1 } := by
  have hhas := has_of_countdown hedit hlist es (a.world, [], []) (by simp)
  have hwritten : Written [k] a.world (es.foldl f (a.world, [], [])).1 :=
    Written.foldl Prod.fst hedit es (a.world, [], [])
  rw [hacc] at hhas hwritten
  have hsub : ∀ ks : List Comp, [k] ⊆ ks ++ trackerComps := fun ks =>
    List.cons_subset.mpr ⟨List.mem_append_right ks hk, List.nil_subset _⟩
  have hticked : Deeds false sceneComps a { a with world := acc.1 } :=
    .of_written hwritten (hsub valueComps) (hsub bodyComps)
  exact hticked.trans (despawnTrackers_deeds _ hk acc.2.2 { a with world := acc.1 }
    fun e he _ => hhas e he)

end Countdown

omit [F32 F] in
theorem tickRespawnTimer_listed (acc : World F × List (F × F) × List Entity) (e : Entity) :
    ∀ e' ∈ (tickRespawnTimer acc e).2.2,
      e' ∈ acc.2.2 ∨ e' = e ∧ acc.1.has e .respawnTimer = true := by
  intro e' he'
  have hhas : acc.1.has e .respawnTimer = (acc.1.get e .respawnTimer).isSome := rfl
  unfold tickRespawnTimer at he'
  grind

omit [F32 F] in
theorem tickRespawn_listed (acc : World F × List (F × F × UInt16) × List Entity) (e : Entity) :
    ∀ e' ∈ (tickRespawn acc e).2.2,
      e' ∈ acc.2.2 ∨ e' = e ∧ acc.1.has e .resourceRespawn = true := by
  intro e' he'
  have hhas : acc.1.has e .resourceRespawn = (acc.1.get e .resourceRespawn).isSome := rfl
  unfold tickRespawn at he'
  grind

theorem processTargetReinitialization_deeds (a : BevyWorldAdapter F) :
    Deeds false sceneComps a { a with world := (processTargetReinitialization a.world).1 } :=
  countdown_deeds (by decide) tickRespawnTimer_written tickRespawnTimer_listed
    (a.world.query [.respawnTimer]) a rfl

theorem processRespawn_deeds (a : BevyWorldAdapter F) :
    Deeds false sceneComps a { a with world := (processRespawn a.world).1 } :=
  countdown_deeds (by decide) tickRespawn_written tickRespawn_listed
    (a.world.query [.resourceRespawn]) a rfl

theorem reinitStage_deeds (a : BevyWorldAdapter F) : Deeds false sceneComps a a.reinitStage := by
  have htarget : ∀ (b : BevyWorldAdapter F) pos, Deeds false sceneComps b (b.respawnTarget pos) :=
    fun b pos => .single (.spawn b (by decide) bodyComps_subset pos.1 pos.2 0.0)
  exact (processTargetReinitialization_deeds a).trans (Deeds.foldl id htarget _ _)

theorem respawnStage_deeds (a : BevyWorldAdapter F) : Deeds false sceneComps a a.respawnStage :=
  (processRespawn_deeds a).trans (Deeds.foldl id respawnResource_deeds _ _)

/-! ### The gathered announcements -/

omit [F32 F] in
theorem news_foldl {f : BevyWorldAdapter F × Events → Entity → BevyWorldAdapter F × Events}
    (h : ∀ acc e, News acc.2 → News (f acc e).2) (es : List Entity)
    (acc : BevyWorldAdapter F × Events) (hacc : News acc.2) :
    News (es.foldl f acc).2 := by
  induction es generalizing acc with
  | nil => exact hacc
  | cons e es ih => exact ih (f acc e) (h acc e hacc)

omit [F32 F] in
theorem despawnMapped_news (event : NetworkId → PlatformEvent)
    (acc : BevyWorldAdapter F × Events) (e : Entity) (h : News acc.2) :
    News (despawnMapped event acc e).2 := by
  unfold despawnMapped
  split
  · exact h.concat _
  · exact h

theorem terminate_news (acc : BevyWorldAdapter F × Events) (e : Entity)
    (h : News acc.2) : News (terminate acc e).2 := by
  unfold terminate
  split
  · exact h.concat _
  · exact h

omit [F32 F] in
theorem despawnBeam_news (acc : BevyWorldAdapter F × Events) (e : Entity)
    (h : News acc.2) : News (despawnBeam acc e).2 := by
  unfold despawnBeam
  split
  · exact h.concat _
  · split
    · exact h
    · exact h

theorem extractionStage_news (acc : BevyWorldAdapter F × Events) (h : News acc.2) :
    News (extractionStage acc).2 :=
  news_foldl (despawnMapped_news _) _ _ h

theorem collectionStage_news (acc : BevyWorldAdapter F × Events) (h : News acc.2) :
    News (collectionStage acc).2 :=
  news_foldl (despawnMapped_news _) _ _ h

theorem beamStage_news (acc : BevyWorldAdapter F × Events) (h : News acc.2) :
    News (beamStage acc).2 :=
  news_foldl despawnBeam_news _ _ (news_foldl terminate_news _ _ h)

/-! ## The whole step -/

/-- The adapter when the collection of payload starts. -/
def beforeCollection (P : Platform F) (a : BevyWorldAdapter F) : BevyWorldAdapter F :=
  let a := (extractionStage (a.motionStage P, [])).1
  { a with world := processInteraction P a.world a.bimap }

/-- The adapter when the collected payload has been handed out. -/
def handedOut (P : Platform F) (a : BevyWorldAdapter F) : BevyWorldAdapter F :=
  { a.beforeCollection P with
    world := (processPayloadCollection (a.beforeCollection P).world
      (a.beforeCollection P).bimap).1 }

/-- The adapter when the queued beams have been taken out of the resource. -/
def beamsTaken (P : Platform F) (a : BevyWorldAdapter F) : BevyWorldAdapter F :=
  ((a.motionStage P).gameplayStage P).onWorld fun w =>
    { w with beamSpawnRequests := w.beamSpawnRequests.map fun _ => [] }

variable (P : Platform F) (a : BevyWorldAdapter F)

theorem gameplayStage_eq :
    (a.motionStage P).gameplayStage P = (beamStage (collectionStage
      (a.beforeCollection P, (extractionStage (a.motionStage P, [])).2))).1.onWorld
        (·.pushReliable (beamStage (collectionStage (a.beforeCollection P,
          (extractionStage (a.motionStage P, [])).2))).2) := by
  unfold gameplayStage beforeCollection
  dsimp only

theorem gameplayStage_news :
    News (beamStage (collectionStage (a.beforeCollection P,
      (extractionStage (a.motionStage P, [])).2))).2 := by
  have hexhausted := extractionStage_news (a.motionStage P, []) fun _ hev => (nomatch hev)
  generalize (extractionStage (a.motionStage P, [])).2 = events at hexhausted ⊢
  have hcollected := collectionStage_news (a.beforeCollection P, events) hexhausted
  exact beamStage_news (collectionStage (a.beforeCollection P, events)) hcollected

theorem motionStage_deeds : Deeds false simulationComps a (a.motionStage P) := by
  have hwritten := motionStage_written P a
  unfold motionStage at hwritten ⊢
  exact Deeds.of_written hwritten (by decide) (by decide)

/-- The use of tools is what asks for beams. -/
theorem processInteraction_deeds : Deeds true simulationComps a
    { a with world := processInteraction P a.world a.bimap } := by
  obtain ⟨w, spawns, hwritten, hshape⟩ := processInteraction_shape P a.world a.bimap
  rw [hshape]
  have htools : Deeds true simulationComps a { a with world := w } :=
    .of_written hwritten (by decide) (by decide)
  exact htools.tail (.request { a with world := w } spawns rfl)

theorem beforeCollection_deeds : Deeds true simulationComps a (a.beforeCollection P) := by
  have hmotion : Deeds true simulationComps a (a.motionStage P) :=
    (motionStage_deeds P a).mono nofun (List.Subset.refl _)
  have hextract : Deeds true simulationComps (a.motionStage P) _ :=
    (extractionStage_deeds (a.motionStage P, [])).mono nofun (by decide)
  unfold beforeCollection
  generalize extractionStage (a.motionStage P, []) = s at hextract ⊢
  exact (hmotion.trans hextract).trans (processInteraction_deeds P s.1)

theorem handedOut_edited : Edited [.dataStore, .dataDropComponent] (a.beforeCollection P).world
    (a.handedOut P).world := by
  unfold handedOut
  generalize a.beforeCollection P = b
  exact processPayloadCollection_edited b.world b.bimap

theorem handedOut_deeds : Deeds false simulationComps (a.beforeCollection P) (a.handedOut P) := by
  unfold handedOut
  generalize a.beforeCollection P = b
  exact .single (.edit (processPayloadCollection_edited b.world b.bimap) (by decide) (by decide))

/-- From the collection on, the simulation touches no data store. -/
theorem gameplayStage_deeds :
    Deeds false sceneComps (a.handedOut P) ((a.motionStage P).gameplayStage P) := by
  have hgathered := gameplayStage_news P a
  rw [gameplayStage_eq]
  generalize (extractionStage (a.motionStage P, [])).2 = events at hgathered ⊢
  have hcollect : Deeds false sceneComps (a.handedOut P) _ :=
    collectionStage_deeds _ (a.beforeCollection P, events)
  have hbeams := beamStage_deeds (collectionStage (a.beforeCollection P, events))
  generalize beamStage (collectionStage (a.beforeCollection P, events)) = t at hbeams hgathered ⊢
  exact (hcollect.trans hbeams).trans (Deeds.announce hgathered)

/-- From there on no beam is asked for. -/
theorem beamsTaken_deeds : Deeds false sceneComps (a.beamsTaken P) (a.beforeHook P) := by
  let b := ((a.motionStage P).gameplayStage P).spawnBeams
  have hspawn : Deeds false sceneComps (a.beamsTaken P) b := Deeds.foldl id spawnBeam_deeds _ _
  have hregen : Deeds false sceneComps b (b.onWorld processRegen) :=
    .of_written (processRegen_written _) (by decide) (by decide)
  exact (((hspawn.trans hregen).trans (reinitStage_deeds _)).trans (respawnStage_deeds _)).trans
    (Deeds.of_written (clampStage_written _) (by decide) (by decide))

theorem beforeHook_deeds : Deeds false sceneComps (a.handedOut P) (a.beforeHook P) :=
  ((gameplayStage_deeds P a).tail (.take _)).trans (beamsTaken_deeds P a)

theorem simulation_deeds : Deeds true simulationComps a (a.beforeHook P) := by
  have hlast : Deeds false simulationComps (a.handedOut P) (a.beforeHook P) :=
    (beforeHook_deeds P a).mono id (List.subset_append_left _ _)
  have hrest : Deeds false simulationComps (a.beforeCollection P) (a.beforeHook P) :=
    (handedOut_deeds P a).trans hlast
  exact (beforeCollection_deeds P a).trans (hrest.mono nofun (List.Subset.refl _))

end BevyWorldAdapter

end Aetheris
