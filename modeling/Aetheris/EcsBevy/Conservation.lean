import Aetheris.EcsBevy.ExactlyOnce
import Aetheris.EcsBevy.PayloadFlow

/-!
# Conservation of payload

The account of a whole simulation step: what is there afterwards is what was there before, less what
resources destroyed by beams had left, plus the capacity of the resources that respawn. It holds in
every world that spawns and steps lead to (`payload_conserved`).
-/

namespace Aetheris

open Ecs

variable {F : Type} [F32 F]

namespace BevyWorldAdapter

/-! ## The stages after the announcements -/

variable {a : BevyWorldAdapter F} {hook : World F → World F}
  {updates : List (ClientId × ComponentUpdate)} {α : Type}
variable (fit : Prop)

omit [F32 F] in
/-- Spawns one by one. -/
theorem Flow.foldl_gains {f : BevyWorldAdapter F → α → BevyWorldAdapter F}
    {g : α → Nat} (h : ∀ a x, Flow fit 0 (g x) a (f a x)) (l : List α) (a : BevyWorldAdapter F) :
    Flow fit 0 (l.map g).sum a (l.foldl f a) := by
  induction l generalizing a with
  | nil => exact Flow.refl fit a
  | cons x l ih =>
    rw [List.map_cons, List.sum_cons]
    exact (h a x).trans (ih (f a x))

omit [F32 F] in
theorem Flow.foldl_zero {f : BevyWorldAdapter F → α → BevyWorldAdapter F}
    (h : ∀ a x, Flow fit 0 0 a (f a x)) (l : List α) (a : BevyWorldAdapter F) :
    Flow fit 0 0 a (l.foldl f a) := by
  refine (Flow.foldl_gains fit h l a).convert fun _ => ?_
  simp

theorem spawnBeam_flow (a : BevyWorldAdapter F) (spawn : BeamSpawn F) :
    Flow fit 0 0 a (a.spawnBeam spawn) := by
  have haim : ∀ (e : Entity) (w : World F), Written [.beamMarker, .velocity] w
      ((w.modify e .beamMarker fun m : BeamMarker F => { m with owner := spawn.owner }).modify
        e .velocity fun v : Velocity F => { v with dx := spawn.vel.1, dy := spawn.vel.2 }) :=
    fun e w => (Written.modify w e (by decide) _).andModify e (by decide) _
  refine Flow.of_spawnKind fit a entityTypeBeam spawn.pos.1 spawn.pos.2
    (F32.atan2 spawn.vel.2 spawn.vel.1) haim (by decide) (fun e w e' he' k => ?_)
    (fun _ => by decide) (fun e w n x y rot master hcells => ?_) rfl
  · exact (get_modify_other _ e _ e' he' k).trans (get_modify_other _ e w e' he' k)
  · rw [World.held_congr fun k hk => (haim e w).edits.get e k (by revert k; decide)]
    exact held_placed (by decide) hcells

theorem spawnBeams_flow (a : BevyWorldAdapter F) : Flow fit 0 0 a a.spawnBeams := by
  have hclear : Flow fit 0 0 a (a.onWorld fun w =>
      { w with beamSpawnRequests := w.beamSpawnRequests.map fun _ => [] }) :=
    Flow.of_edits fit (Edits.of_ecs_eq [] rfl (Announces.of_eq rfl)) (by simp)
  exact hclear.trans (Flow.foldl_zero fit (spawnBeam_flow fit) _ _)

/-- A countdown over its trackers, then the removal of those that have run out. -/
theorem countdown_flow {k : Comp} (hk : k ∈ trackerComps)
    {f : World F × List α × List Entity → Entity → World F × List α × List Entity}
    (hedit : ∀ acc e, Written [k] acc.1 (f acc e).1)
    (hlist : ∀ acc e, ∀ e' ∈ (f acc e).2.2, e' ∈ acc.2.2 ∨ e' = e ∧ acc.1.has e k = true)
    (es : List Entity) (a : BevyWorldAdapter F) {acc : World F × List α × List Entity}
    (hacc : es.foldl f (a.world, [], []) = acc) :
    Flow fit 0 0 a { a with world := acc.2.2.foldl World.despawn acc.1 } := by
  have hhas := has_of_countdown hedit hlist es (a.world, [], []) (by simp)
  have hedits : Edits [k] a.world _ := (Written.foldl Prod.fst hedit es (a.world, [], [])).edits
  rw [hacc] at hhas hedits
  have hticked : Flow fit 0 0 a { a with world := acc.1 } :=
    Flow.of_edits fit hedits (by rcases List.mem_pair.mp hk with rfl | rfl <;> decide)
  have hmark : k ∈ transientComps := by rcases List.mem_pair.mp hk with rfl | rfl <;> decide
  -- a tracker that is listed again is gone
  have hround : ∀ (w : World F) e, w.alive e = false ∨ w.has e k = true →
      Flow fit 0 0 { a with world := w } { a with world := w.despawn e } := by
    intro w e he
    have hspent : Expendable (w.get e) := he.imp (fun hdead k' => World.get_of_not_alive hdead k')
      fun hhas => .transient k hmark hhas
    have hmoves : Moves { a with world := w } { a with world := w.despawn e } := by
      refine (despawnTrackers_deeds [] hk [e] { a with world := w } fun e' he' halive => ?_).moves
      obtain rfl := List.mem_singleton.mp he'
      exact he.resolve_left (by simp [show w.alive e' = true from halive])
    have hlocal : Flow fit (w.held e) 0 { a with world := w } { a with world := w.despawn e } :=
      Flow.of_despawnLocal (a := { a with world := w }) fit (e := e) (fun _ => hspent.mortal) hmoves
    exact hlocal.convert fun ha => by rw [hspent.held ha.tidy]
  have hkeep : ∀ (w : World F) (e e' : Entity), w.alive e' = false ∨ w.has e' k = true →
      (w.despawn e).alive e' = false ∨ (w.despawn e).has e' k = true := by
    intro w e e' he'
    by_cases hne : e' = e
    · exact Or.inl (by rw [World.alive_despawn, hne]; simp)
    · rw [World.alive_despawn, decide_eq_true hne, Bool.true_and, World.has, Storage.has,
        show (w.despawn e).ecs.get e' k = _ from World.get_despawn w e e' k, if_neg hne]
      exact he'
  exact hticked.trans (Flow.foldl fit (fun w => { a with world := w })
    (fun w e => w.alive e = false ∨ w.has e k = true) hround hkeep acc.2.2 acc.1
    fun e he => Or.inr (hhas e he))

theorem respawnTarget_flow (a : BevyWorldAdapter F) (pos : F × F) :
    Flow fit 0 0 a (a.respawnTarget pos) := by
  have hnothing : ∀ (_ : Entity) (w : World F), Written [] w w := fun _ _ => .refl
  refine Flow.of_spawnKind fit a entityTypeTrainingTarget pos.1 pos.2 0.0 hnothing (by decide)
    (fun _ _ _ _ _ => rfl) (fun _ => by decide)
    (fun e w n x y rot master hcells => held_placed (by decide) hcells) ?_
  unfold respawnTarget
  split <;> rfl

theorem reinit_flow (a : BevyWorldAdapter F) : Flow fit 0 0 a a.reinitStage := by
  have htimers : Flow fit 0 0 a { a with world := (processTargetReinitialization a.world).1 } :=
    countdown_flow fit (by decide) tickRespawnTimer_written tickRespawnTimer_listed
      (a.world.query [.respawnTimer]) a rfl
  exact htimers.trans (Flow.foldl_zero fit (respawnTarget_flow fit) _ _)

theorem held_filled_resource {capacity : UInt16} {w : World F} {e : Entity} {n : NetworkId}
    {x y rot : F} {master : NetworkId}
    (h : w.get e = placedCells n entityTypeResource x y rot master) :
    (w.modify e .resource fun _ : Resource => ⟨capacity, capacity⟩).held e = capacity.toNat := by
  have hidle : IdleCells (w.get e) := h ▸ placedCells_idle n entityTypeResource x y rot master
  have hself : (w.modify e .resource fun _ : Resource => ⟨capacity, capacity⟩).get e .resource =
      some ⟨capacity, capacity⟩ := by
    rw [World.get_modify_self, h]
    rfl
  unfold World.held
  rw [World.amountIn_of_get hself,
    World.amountIn_congr (World.get_modify_of_ne w _ (Or.inr (by decide))), amountIn_of_idle hidle,
    World.amountIn_congr (World.get_modify_of_ne w _ (Or.inr (by decide))),
    dropAmountIn_of_idle hidle]
  rfl

theorem respawnResource_flow (a : BevyWorldAdapter F) (r : F × F × UInt16) :
    Flow fit 0 r.2.2.toNat a (a.respawnResource r) := by
  have hfill : ∀ (e : Entity) (w : World F), Written [.resource] w
      (w.modify e .resource fun _ : Resource => ⟨r.2.2, r.2.2⟩) :=
    fun e w => Written.modify w e (by decide) _
  exact Flow.of_spawnKind fit a entityTypeResource r.1 r.2.1 0.0 hfill (by decide)
    (fun e w e' he' k => get_modify_other _ e w e' he' k) (fun _ => by decide)
    (fun e w n x y rot master hcells => held_filled_resource hcells) rfl

/-- The capacities of the resources that respawn. -/
def respawnedCapacity (w : World F) : Nat := ((processRespawn w).2.map fun r => r.2.2.toNat).sum

theorem respawn_flow (a : BevyWorldAdapter F) :
    Flow fit 0 (respawnedCapacity a.world) a a.respawnStage := by
  have htrackers : Flow fit 0 0 a { a with world := (processRespawn a.world).1 } :=
    countdown_flow fit (by decide) tickRespawn_written tickRespawn_listed
      (a.world.query [.resourceRespawn]) a rfl
  refine (htrackers.trans (Flow.foldl_gains fit (respawnResource_flow fit) _ _)).convert fun _ => ?_
  rw [Nat.zero_add]
  rfl

/-- The adapter when the respawn trackers are processed. -/
def beforeRespawn (a : BevyWorldAdapter F) : BevyWorldAdapter F :=
  (a.spawnBeams.onWorld processRegen).reinitStage

theorem aftermath_flow (a : BevyWorldAdapter F) :
    Flow fit 0 (respawnedCapacity a.beforeRespawn.world) a a.aftermath := by
  have hregen : Flow fit 0 0 a.spawnBeams (a.spawnBeams.onWorld processRegen) :=
    Flow.of_edits fit (processRegen_written _).edits (by decide)
  have hbefore : Flow fit 0 0 a a.beforeRespawn :=
    ((spawnBeams_flow fit a).trans hregen).trans (reinit_flow fit _)
  have haftermath : a.aftermath = a.beforeRespawn.respawnStage.onWorld clampStage := rfl
  rw [haftermath]
  generalize a.beforeRespawn = b at hbefore ⊢
  have hclamp : Flow fit 0 0 b.respawnStage (b.respawnStage.onWorld clampStage) :=
    Flow.of_edits fit (clampStage_written _).edits (by decide)
  exact ((hbefore.trans (respawn_flow fit b)).trans hclamp).convert fun _ => by omega

/-! ## The whole step -/

/-- A hook that leaves the entities alone. -/
def Inert (hook : World F → World F) : Prop := ∀ w, (hook w).ecs = w.ecs

omit [F32 F] in
theorem Inert.get (h : Inert hook) (w : World F) (e : Entity) (k : Comp) :
    (hook w).get e k = w.get e k := by
  rw [World.get, World.get, h w]

omit [F32 F] in
theorem Inert.keepsCards (h : Inert hook) (w : World F) : KeepsCards w (hook w) where
  card := World.card_congr (fun e => by rw [World.alive, World.alive, h w]) fun e k _ => h.get w e k
  next := by rw [h w]

omit [F32 F] in
theorem runHook_flow
    (h : ∀ hook, a.postSimulateHook = some hook → Inert hook) : Flow fit 0 0 a a.runHook := by
  unfold runHook
  split
  · next hook hsome =>
    have hinert := h hook hsome
    have hget := hinert.get a.world
    have hadds : Adds a.world (hook a.world) := .of_get fun e k _ => hget e k
    refine ⟨Moves.of_keepsCards a (hinert.keepsCards a.world), hadds.tidy, hadds.idle,
      fun ha => ha.master.keep fun n e hrel _ => ⟨hrel, hget e _⟩, fun _ _ => ?_⟩
    rw [Nat.add_zero, Nat.add_zero]
    exact World.payload_congr fun e => World.held_congr fun k _ => hget e k
  · exact Flow.refl fit a

variable (P : Platform F)

/-- The capacities of the resources that respawn in a step from `a`. -/
def respawned (a : BevyWorldAdapter F) : Nat :=
  respawnedCapacity ((a.motionStage P).gameplayStage P).beforeRespawn.world

/-- No store is given more in this step than its counter can hold. -/
def StoresFit (a : BevyWorldAdapter F) : Prop :=
  ClaimsFit (collectClaims (a.beforeCollection P).world) (a.beforeCollection P).world

theorem gameplay_flow (a : BevyWorldAdapter F) :
    Flow (a.StoresFit P) (a.beforeBeams P).destroyed 0 a ((a.motionStage P).gameplayStage P) := by
  have hbefore := beforeCollection_flow P (a.StoresFit P) a
  have hnews := gameplayStage_news P a
  rw [gameplayStage_eq]
  unfold beforeBeams
  unfold StoresFit at hbefore ⊢
  generalize (extractionStage (a.motionStage P, [])).2 = events at hnews ⊢
  generalize a.beforeCollection P = b at hbefore hnews ⊢
  have hcollect : Flow (ClaimsFit (collectClaims b.world) b.world) 0 0 b
      (collectionStage (b, events)).1 := collection_flow (b, events)
  generalize collectionStage (b, events) = s at hcollect hnews ⊢
  have hbeams := beam_flow (ClaimsFit (collectClaims b.world) b.world) s
  generalize beamStage s = t at hbeams hnews ⊢
  have hpush : Flow (ClaimsFit (collectClaims b.world) b.world) 0 0 t.1
      (t.1.onWorld (·.pushReliable t.2)) :=
    Flow.of_edits _ (Edits.pushReliable [] t.1.world hnews.unaddressed) (by simp)
  exact (((hbefore.trans hcollect).trans hbeams).trans hpush).convert fun _ => by omega

/-- One step of any settled adapter whose hook leaves the entities alone. -/
theorem simulate_flow (hhook : ∀ hook, a.postSimulateHook = some hook → Inert hook) :
    Flow (a.StoresFit P) (a.beforeBeams P).destroyed (a.respawned P) a (a.simulate P) := by
  have hgameplay := gameplay_flow P a
  have hsetup := (beforeHook_moves P a).setup.hook
  rw [simulate_eq]
  rw [beforeHook_eq] at hsetup ⊢
  unfold respawned
  generalize (a.motionStage P).gameplayStage P = b at hgameplay hsetup ⊢
  have hafter := aftermath_flow (a.StoresFit P) b
  generalize b.aftermath = c at hafter hsetup ⊢
  have hinert : ∀ hook, c.postSimulateHook = some hook → Inert hook := hsetup ▸ hhook
  exact ((hgameplay.trans hafter).trans (runHook_flow _ hinert)).convert fun _ => by omega

/-! ## Runs -/

/-- Clients send commands and no other component. -/
def Op.OnlyCommands (rs : List (ComponentReplicator F)) : Op F → Prop
  | .applyUpdates updates =>
    ∀ u ∈ updates, ∀ r, findReplicator rs u.2.componentKind = some r → r.WritesOnly .latestInput
  | _ => True

/-- Operations other than updates and steps. -/
def Op.IsSpawning : Op F → Prop
  | .applyUpdates _ | .simulate => False
  | _ => True

theorem Op.adds (a : BevyWorldAdapter F) {op : Op F} (hop : op.IsSpawning) :
    Adds a.world (op.run P a).world := by
  cases op with
  | applyUpdates updates => exact hop.elim
  | simulate => exact hop.elim
  | spawnNetworked => exact spawnNetworked_adds a
  | spawnNetworkedFor client => exact spawnNetworkedFor_adds a client
  | spawnKind kind x y rot => exact spawnKind_adds a kind x y rot
  | spawnKindFor kind x y rot client => exact spawnKindFor_adds a kind x y rot client
  | spawnSessionAgent kind x y rot client => exact spawnSessionAgent_adds a kind x y rot client
  | stressTest count rotate => exact stressTest_adds P a count rotate
  | despawnNetworked n => exact .of_evolves (despawnNetworked_evolves [] a n) nofun
  | clearWorld => exact .of_evolves (clearWorld_evolves P a) nofun
  | _ => exact .of_get fun _ _ _ => rfl

omit [F32 F] in
theorem applyOne_tidy {u : ClientId × ComponentUpdate}
    (hu : ∀ r, findReplicator a.replicators u.2.componentKind = some r → r.WritesOnly .latestInput)
    (h : Tidy a.world) : Tidy (a.applyOne u).world := by
  have hcase := applyOne_cases a u
  generalize a.applyOne u = b at hcase ⊢
  cases hcase with
  | unmapped => exact h
  | checked e hrel =>
    rw [authorize_world]
    exact h
  | applied e hrel howner r hr =>
    -- a command is no part of any role
    have hinput : Comp.latestInput ∉ clashes.map Prod.fst ++ clashes.map Prod.snd := by decide
    intro e'
    refine (h e').of_roles fun k hk => ?_
    exact ((hu r hr).writes a.world e u.2).get e' k (Or.inr fun heq => hinput (heq ▸ hk))

omit [F32 F] in
theorem applyUpdates_tidy
    (hops : (Op.applyUpdates updates : Op F).OnlyCommands a.replicators) (h : Tidy a.world) :
    Tidy (a.applyUpdates updates).world := by
  rw [applyUpdates_eq_foldl]
  induction updates generalizing a with
  | nil => exact h
  | cons u updates ih =>
    have hrest : ∀ u' ∈ updates, ∀ r, findReplicator (a.applyOne u).replicators
        u'.2.componentKind = some r → r.WritesOnly .latestInput := by
      rw [(applyOne_rest a u).2.replicators]
      exact fun u' hu' => hops u' (List.mem_cons_of_mem u hu')
    exact ih hrest (applyOne_tidy (hops u List.mem_cons_self) h)

/-- What holds between two operations of such a run. -/
structure Orderly (a : BevyWorldAdapter F) : Prop extends Sound a where
  tidy : Tidy a.world
  inert : ∀ hook, a.postSimulateHook = some hook → Inert hook

namespace Orderly

variable {a : BevyWorldAdapter F}

theorem run (h : Orderly a) {op : Op F} (hop : op.OnlyCommands a.replicators) :
    Orderly (op.run P a) where
  toSound := h.toSound.run P op
  inert := (Op.setup P h.discreet op).hook ▸ h.inert
  tidy := by
    cases op with
    | applyUpdates updates => exact applyUpdates_tidy hop h.tidy
    | simulate => exact (simulate_flow P h.inert).tidy h.tidy
    | _ =>
      refine (Op.adds P a ?_).tidy h.tidy
      trivial

theorem runOps (h : Orderly a) {ops : List (Op F)} (hops : ∀ op ∈ ops, op.OnlyCommands a.replicators) :
    Orderly (a.runOps P ops) := by
  induction ops generalizing a with
  | nil => exact h
  | cons op ops ih =>
    obtain ⟨hop, hops⟩ := List.forall_mem_cons.mp hops
    exact ih (h.run P hop) ((Op.setup P h.discreet op).replicators ▸ hops)

end Orderly

end BevyWorldAdapter

end Aetheris
