import Aetheris.EcsBevy.Evolves
import Aetheris.EcsBevy.Updates
import Aetheris.Lib.History

/-!
# What the operations of the adapter are made of

Every operation is a sequence of elementary changes: of the world (`Touch`), of the world and the
identifier map together, or of the books (allocator, owner cache, generator). `Changes asks a a'`
says that `a'` comes from `a` in this way, where `asks` allows requests for beams; only the first
half of the simulation makes those. Facts that every elementary change keeps are proved by looking
at each change once.
-/

namespace Aetheris

open Ecs Relation

variable {F : Type}

/-! ## Elementary changes of a world -/

inductive Touch (asks : Bool) : World F → World F → Prop where
  | modify (w : World F) (e : Entity) (k : Comp) (f : CompVal F k → CompVal F k) :
      Touch asks w (w.modify e k f)
  | insert (w : World F) (e : Entity) (l : List (Σ k, CompVal F k)) : Touch asks w (w.insert e l)
  | spawn (w : World F) (l : List (Σ k, CompVal F k)) : Touch asks w (w.spawn l)
  | despawn (w : World F) (e : Entity) : Touch asks w (w.despawn e)
  /-- Platform events are queued. The announcement of a despawn is not one of them. -/
  | announce (w : World F) (events : List (Option ClientId × PlatformEvent)) :
      Touch asks w (w.pushReliable (events.map fun ev => (ev.1, .platformEvent ev.2)))
  | index (w : World F) (i : Option WorkspaceIndex) : Touch asks w { w with workspaceIndex := i }
  | request (w : World F) (spawns : List (BeamSpawn F)) (h : asks = true) :
      Touch asks w { w with beamSpawnRequests := w.beamSpawnRequests.map (· ++ spawns) }
  | take (w : World F) :
      Touch asks w { w with beamSpawnRequests := w.beamSpawnRequests.map fun _ => [] }

abbrev Touches (asks : Bool) : World F → World F → Prop := ReflTransGen (Touch asks)

theorem Touch.news (asks : Bool) (w : World F) {events : List (Option ClientId × WireEvent)}
    (h : News events) : Touch asks w (w.pushReliable events) := by
  obtain ⟨events', rfl⟩ : ∃ events' : List (Option ClientId × PlatformEvent),
      events = events'.map fun ev => (ev.1, .platformEvent ev.2) := by
    induction events with
    | nil => exact ⟨[], rfl⟩
    | cons ev events ih =>
      obtain ⟨⟨event, rfl⟩, hrest⟩ := List.forall_mem_cons.mp h
      obtain ⟨events', rfl⟩ := ih hrest
      exact ⟨(none, event) :: events', rfl⟩
  exact .announce w events'

namespace Touches

variable {asks : Bool} {ks : List Comp} {w w' : World F}

theorem of_edited (h : Edited ks w w') : Touches asks w w' := by
  refine ReflTransGen.mono (fun a b hstep => ?_) _ _ h
  cases hstep with
  | modify e k hk f => exact .modify a e k f
  | announce events hevents => exact .news asks a hevents

theorem weaken (h : Touches false w w') : Touches asks w w' := by
  refine ReflTransGen.mono (fun a b hstep => ?_) _ _ h
  cases hstep with
  | modify e k f => exact .modify a e k f
  | insert e l => exact .insert a e l
  | spawn l => exact .spawn a l
  | despawn e => exact .despawn a e
  | announce events => exact .announce a events
  | index i => exact .index a i
  | request spawns hasks => cases hasks
  | take => exact .take a

theorem foldl {σ α : Type} (π : σ → World F) {f : σ → α → σ}
    (h : ∀ s x, Touches asks (π s) (π (f s x))) (l : List α) (s : σ) :
    Touches asks (π s) (π (l.foldl f s)) := by
  induction l generalizing s with
  | nil => exact .refl
  | cons x l ih => exact (h s x).trans (ih (f s x))

end Touches

/-- The storage changes by its own operations; an access that finds nothing is none. -/
theorem Touch.history {asks : Bool} {w w' : World F} (h : Touch asks w w') :
    ∃ log, Run Storage.Performs w.ecs log w'.ecs := by
  cases h with
  | modify e k f =>
    by_cases hhas : w.ecs.has e k = true
    · exact ⟨_, .snoc .nil (.modify w.ecs e k f hhas)⟩
    · refine ⟨[], ?_⟩
      show Run _ _ _ (w.ecs.modify e k f)
      rw [Storage.modify_of_not_has f (Bool.eq_false_of_not_eq_true hhas)]
      exact .nil
  | insert e l =>
    by_cases halive : w.ecs.alive e = true
    · exact ⟨_, .snoc .nil (.insert w.ecs e (bundle l) halive)⟩
    · refine ⟨[], ?_⟩
      show Run _ _ _ (w.ecs.insert e (bundle l))
      rw [Storage.insert_of_not_alive _ (Bool.eq_false_of_not_eq_true halive)]
      exact .nil
  | spawn l => exact ⟨_, .snoc .nil (.spawn w.ecs (bundle l))⟩
  | despawn e => exact ⟨_, .snoc .nil (.despawn w.ecs e)⟩
  | _ => exact ⟨[], .nil⟩

namespace BevyWorldAdapter

/-! ## Elementary changes of an adapter -/

inductive Change (asks : Bool) : BevyWorldAdapter F → BevyWorldAdapter F → Prop where
  | world (a : BevyWorldAdapter F) (w : World F) (h : Touch asks a.world w) :
      Change asks a { a with world := w }
  /-- A fresh entity is put on the map. -/
  | map (a : BevyWorldAdapter F) (n : NetworkId) (l : Comps F) :
      Change asks a { a with
        world := a.world.spawn l
        bimap := a.bimap.insert n a.world.spawned }
  | unmap (a : BevyWorldAdapter F) (n : NetworkId) : Change asks a (a.despawnNetworked n).1
  /-- The allocator, the owner cache or the generator. -/
  | books (a : BevyWorldAdapter F) (allocator : NetworkIdAllocator)
      (owners : NetworkId → Option ClientId) (rng : DeterministicRng) :
      Change asks a { a with allocator := allocator, owners := owners, rng := rng }

abbrev Changes (asks : Bool) : BevyWorldAdapter F → BevyWorldAdapter F → Prop :=
  ReflTransGen (Change asks)

namespace Changes

theorem of_touches {asks : Bool} (a : BevyWorldAdapter F) {w : World F}
    (h : Touches asks a.world w) : Changes asks a { a with world := w } := by
  induction h with
  | refl => exact .refl
  | tail _ hstep ih => exact ih.tail (.world { a with world := _ } _ hstep)

theorem weaken {asks : Bool} {a a' : BevyWorldAdapter F} (h : Changes false a a') :
    Changes asks a a' := by
  induction h with
  | refl => exact .refl
  | tail _ hstep ih =>
    cases hstep with
    | world w hw => exact ih.trans (of_touches _ (Touches.weaken (.single hw)))
    | map n l => exact ih.tail (.map _ n l)
    | unmap n => exact ih.tail (.unmap _ n)
    | books allocator owners rng => exact ih.tail (.books _ allocator owners rng)

theorem foldl {asks : Bool} {σ α : Type} (π : σ → BevyWorldAdapter F) {f : σ → α → σ}
    (h : ∀ s x, Changes asks (π s) (π (f s x))) (l : List α) (s : σ) :
    Changes asks (π s) (π (l.foldl f s)) := by
  induction l generalizing s with
  | nil => exact .refl
  | cons x l ih => exact (h s x).trans (ih (f s x))

end Changes

/-! ## Spawning -/

theorem spawnNetworked_changes (a : BevyWorldAdapter F) : Changes false a a.spawnNetworked.1 :=
  .head (.map a a.allocator.allocate.1 [⟨.networked, a.allocator.allocate.1⟩])
    (.single (.books _ a.allocator.allocate.2 a.owners a.rng))

theorem setOwner_changes (a : BevyWorldAdapter F) (n : NetworkId) (c : ClientId) (l : Comps F) :
    Changes false a (a.setOwner n c l) := by
  unfold setOwner
  split
  · next e _ =>
    exact .head (.world a _ (.insert _ e (⟨.networkOwner, c⟩ :: l)))
      (.single (.books _ a.allocator (Function.update a.owners n (some c)) a.rng))
  · exact .refl

section Kinds

variable [F32 F]

variable (a : BevyWorldAdapter F)

theorem spawnNetworkedFor_changes (c : ClientId) : Changes false a (a.spawnNetworkedFor c).1 :=
  (spawnNetworked_changes a).trans (setOwner_changes _ _ c _)

theorem createMaster_changes : Changes false a a.createMaster.1 := by
  unfold createMaster
  dsimp only
  split
  · exact (spawnNetworked_changes a).tail (.world _ _ (.insert _ _ _))
  · exact spawnNetworked_changes a

theorem placeKind_changes (n : NetworkId) (kind : UInt16) (x y rot : F)
    (master : NetworkId) : Changes false a (a.placeKind n kind x y rot master) := by
  let transform : Transform F := ⟨x, y, 0.0, rot, kind⟩
  let velocity : Velocity F := ⟨0.0, 0.0, 0.0⟩
  let l : Comps F := [⟨.networked, n⟩, ⟨.transform, transform⟩, ⟨.velocity, velocity⟩]
  let b : BevyWorldAdapter F := { a with
    world := a.world.spawn l
    bimap := a.bimap.insert n a.world.spawned }
  have hkind : Touches false b.world
      ((kindComps kind x y).foldl (fun w comps => w.insert a.world.spawned comps) b.world) :=
    Touches.foldl id (fun w comps => .single (.insert w _ comps)) _ _
  exact .head (.map a n l) (Changes.of_touches b
    ((hkind.tail (.insert _ a.world.spawned [⟨.workspaceMembership, master⟩])).tail (.index _ _)))

theorem spawnKindFuel_changes (fuel : Nat) :
    ∀ (a : BevyWorldAdapter F) (kind : UInt16) (x y rot : F),
      Changes false a (spawnKindFuel fuel a kind x y rot).1 := by
  induction fuel with
  | zero => exact fun _ _ _ _ _ => .refl
  | succ fuel ih =>
    intro a kind x y rot
    have halloc : Changes false a { a with allocator := a.allocator.allocate.2 } :=
      .single (.books a _ a.owners a.rng)
    unfold spawnKindFuel
    dsimp only
    split
    · exact halloc.trans (placeKind_changes _ _ _ _ _ _ _)
    · exact ((halloc.trans (createMaster_changes _)).trans (ih _ _ _ _ _)).trans
        (placeKind_changes _ _ _ _ _ _ _)

theorem spawnKind_changes (kind : UInt16) (x y rot : F) :
    Changes false a (a.spawnKind kind x y rot).1 := spawnKindFuel_changes 2 a kind x y rot

theorem spawnKindFor_changes (kind : UInt16) (x y rot : F)
    (c : ClientId) : Changes false a (a.spawnKindFor kind x y rot c).1 :=
  (spawnKind_changes a kind x y rot).trans (setOwner_changes _ _ c [])

theorem spawnSessionAgent_changes (kind : UInt16) (x y rot : F)
    (c : ClientId) : Changes false a (a.spawnSessionAgent kind x y rot c).1 := by
  have hspawn := spawnKindFor_changes a kind x y rot c
  unfold spawnSessionAgent
  generalize a.spawnKindFor kind x y rot c = out at hspawn ⊢
  obtain ⟨b, n⟩ := out
  dsimp only at hspawn ⊢
  split
  · next e _ =>
    have hmark := hspawn.tail (.world b _ (.insert _ e [⟨.sessionAgent, ()⟩]))
    split
    · exact hmark.tail (.world _ _ (.index _ _))
    · exact hmark
  · exact hspawn

theorem stressTest_changes (P : Platform F) (a : BevyWorldAdapter F) (count : UInt16)
    (rotate : Bool) : Changes false a (a.stressTest P count rotate) := by
  refine Changes.foldl id (fun b i => ?_) _ a
  have hdraw : ∀ (b : BevyWorldAdapter F) lo hi, Changes false b (b.drawRange P lo hi).1 :=
    fun b _ _ => .single (.books b b.allocator b.owners _)
  show Changes false b (stressSpawn P rotate b i)
  unfold stressSpawn
  cases rotate with
  | false =>
    exact ((hdraw b (F32.neg 20.0) 20.0).trans (hdraw _ (F32.neg 20.0) 20.0)).trans
      (spawnKind_changes _ _ _ _ _)
  | true =>
    exact (((hdraw b (F32.neg 20.0) 20.0).trans (hdraw _ (F32.neg 20.0) 20.0)).trans
      (hdraw _ 0.0 F32.tau)).trans (spawnKind_changes _ _ _ _ _)

end Kinds

/-! ## Clearing and client updates -/

/-- Clearing also forgets the last extraction. -/
theorem clearWorld_changes (P : Platform F) (a : BevyWorldAdapter F) :
    ∃ b, Changes false a b ∧ a.clearWorld P = { b with lastExtractionTick := none } := by
  let b := ((P.bimapOrder a.bimap.pairs).map Prod.fst).foldl
    (fun a id => (a.despawnNetworked id).1) a
  have hdespawn : Changes false a b :=
    Changes.foldl id (fun b n => .single (.unmap b n)) _ a
  have htrackers : Touches false b.world
      ((b.world.query [.resourceRespawn]).foldl World.despawn b.world) :=
    Touches.foldl id (fun w e => .single (.despawn w e)) _ _
  refine ⟨_, (hdespawn.trans (Changes.of_touches b (htrackers.tail (.index _ _)))).tail
    (.books _ b.allocator.reset b.owners b.rng), rfl⟩

theorem authorize_changes (a : BevyWorldAdapter F) (c : ClientId) (n : NetworkId) (e : Entity) :
    Changes false a (a.authorize c n e).1 := by
  rw [authorize_fst]
  exact .single (.books a a.allocator _ a.rng)

variable {a a' : BevyWorldAdapter F} {asks : Bool}

theorem applyOne_changes (h : ∀ r ∈ a.replicators, r.Plain)
    (u : ClientId × ComponentUpdate) : Changes false a (a.applyOne u) := by
  have hcases := applyOne_cases a u
  generalize a.applyOne u = a' at hcases ⊢
  cases hcases with
  | unmapped => exact .refl
  | checked e hrel => exact authorize_changes a u.1 u.2.networkId e
  | applied e hrel howner r hr =>
    obtain ⟨k, -, hwrites⟩ := h r (mem_of_findReplicator hr)
    have htouch : Touches false (a.authorize u.1 u.2.networkId e).1.world
        (r.apply a.world e u.2) := by
      rw [authorize_world]
      rcases hwrites a.world e u.2 with hsame | ⟨v, hinsert⟩ | ⟨f, hmodify⟩
      · rw [hsame]
      · rw [hinsert]
        exact .single (.insert _ e _)
      · rw [hmodify]
        exact .single (.modify _ e k f)
    exact (authorize_changes a u.1 u.2.networkId e).trans (Changes.of_touches _ htouch)

theorem applyUpdates_changes (h : ∀ r ∈ a.replicators, r.Plain)
    (updates : List (ClientId × ComponentUpdate)) : Changes false a (a.applyUpdates updates) := by
  rw [applyUpdates_eq_foldl]
  induction updates generalizing a with
  | nil => exact .refl
  | cons u updates ih =>
    have hsetup := (applyOne_rest a u).2
    exact (applyOne_changes h u).trans (ih (hsetup.replicators ▸ h))

/-! ## The simulation -/

section Simulation

variable [F32 F] {ks : List Comp} {a b : BevyWorldAdapter F}

theorem Deed.changes (h : Deed asks ks a b) : Changes asks a b := by
  cases h with
  | edit h _ _ => exact Changes.of_touches a (.of_edited h)
  | request spawns h => exact Changes.of_touches a (.single (.request a.world spawns h))
  | take => exact Changes.of_touches a (.single (.take a.world))
  | track r _ => exact Changes.of_touches a (.single (.spawn a.world [⟨.resourceRespawn, r⟩]))
  | timer _ => exact Changes.of_touches a (.single (.spawn a.world timerComps))
  | spawn _ _ x y rot => exact (spawnKind_changes a _ x y rot).weaken
  | unmap n => exact .single (.unmap a n)
  | unmapped _ => exact Changes.of_touches a (.single (.despawn a.world _))
  | finish _ _ => exact Changes.of_touches a (.single (.despawn a.world _))

theorem Deeds.changes (h : Deeds asks ks a b) : Changes asks a b := by
  induction h with
  | refl => exact .refl
  | tail _ hdeed ih => exact ih.trans hdeed.changes

variable (P : Platform F) (a : BevyWorldAdapter F)

theorem beamsTaken_requests : (a.beamsTaken P).world.beamSpawnRequests.getD [] = [] := by
  unfold beamsTaken onWorld
  generalize (a.motionStage P).gameplayStage P = b
  cases h : b.world.beamSpawnRequests with
  | none => simp [h]
  | some spawns => simp [h]

theorem beforeHook_changes : Changes true a (a.beforeHook P) := (simulation_deeds P a).changes

end Simulation

/-! ## What every change keeps -/

theorem despawnNetworked_requests (a : BevyWorldAdapter F) (n : NetworkId) :
    (a.despawnNetworked n).1.world.beamSpawnRequests = a.world.beamSpawnRequests := by
  unfold despawnNetworked
  split
  · dsimp only
    split <;> rfl
  · rfl

theorem despawnNetworked_lastExtractionTick (a : BevyWorldAdapter F) (n : NetworkId) :
    (a.despawnNetworked n).1.lastExtractionTick = a.lastExtractionTick := by
  unfold despawnNetworked
  split
  · dsimp only
    split <;> rfl
  · rfl

theorem Changes.lastExtractionTick
    (h : Changes asks a a') : a'.lastExtractionTick = a.lastExtractionTick := by
  induction h with
  | refl => rfl
  | tail _ hstep ih =>
    rw [← ih]
    cases hstep with
    | unmap n => exact despawnNetworked_lastExtractionTick _ n
    | _ => rfl

/-- Without requests for beams, none appear. -/
theorem Changes.requests (h : Changes false a a') (ha : a.world.beamSpawnRequests.getD [] = []) :
    a'.world.beamSpawnRequests.getD [] = [] := by
  induction h with
  | refl => exact ha
  | @tail b _ _ hstep ih =>
    cases hstep with
    | world w hw =>
      cases hw with
      | request spawns hasks => cases hasks
      | take => cases b.world.beamSpawnRequests <;> rfl
      | _ => exact ih
    | map n l => exact ih
    | unmap n =>
      rw [despawnNetworked_requests]
      exact ih
    | books allocator owners rng => exact ih

/-! ### The storage -/

theorem despawnNetworked_history (a : BevyWorldAdapter F) (n : NetworkId) :
    ∃ log, Run Storage.Performs a.world.ecs log (a.despawnNetworked n).1.world.ecs := by
  unfold despawnNetworked
  split
  · next e _ =>
    dsimp only
    split
    · exact ⟨_, .snoc .nil (.despawn a.world.ecs e)⟩
    · exact ⟨[], .nil⟩
  · exact ⟨[], .nil⟩

/-- Whatever an operation does to the storage, it does by the operations of the storage. -/
theorem Changes.history (h : Changes asks a a') :
    ∃ log, Run Storage.Performs a.world.ecs log a'.world.ecs := by
  induction h with
  | refl => exact ⟨[], .nil⟩
  | @tail b c _ hstep ih =>
    obtain ⟨log, hlog⟩ := ih
    have hlast : ∃ log', Run Storage.Performs b.world.ecs log' c.world.ecs := by
      cases hstep with
      | world w hw => exact hw.history
      | map n l => exact ⟨_, .snoc .nil (.spawn b.world.ecs (bundle l))⟩
      | unmap n => exact despawnNetworked_history b n
      | books allocator owners rng => exact ⟨[], .nil⟩
    obtain ⟨log', hlog'⟩ := hlast
    exact ⟨log ++ log', hlog.trans hlog'⟩

/-! ## Operations -/

section Ops

variable [F32 F] (P : Platform F)

/-- The operations made of elementary changes that ask for no beam. -/
def Op.IsChange : Op F → Prop
  | .advanceTick | .clearWorld | .simulate | .extractDeltas | .extractReliableEvents
  | .postExtract => False
  | _ => True

theorem Op.changes {a : BevyWorldAdapter F} (h : ∀ r ∈ a.replicators, r.Plain) {op : Op F}
    (hop : op.IsChange) : Changes false a (op.run P a) := by
  cases op with
  | spawnNetworked => exact spawnNetworked_changes a
  | spawnNetworkedFor client => exact spawnNetworkedFor_changes a client
  | spawnKind kind x y rot => exact spawnKind_changes a kind x y rot
  | spawnKindFor kind x y rot client => exact spawnKindFor_changes a kind x y rot client
  | spawnSessionAgent kind x y rot client => exact spawnSessionAgent_changes a kind x y rot client
  | stressTest count rotate => exact stressTest_changes P a count rotate
  | despawnNetworked n => exact .single (.unmap a n)
  | queueReliableEvent client event =>
    exact .single (.world a _ (.announce a.world [(client, event)]))
  | applyUpdates updates => exact applyUpdates_changes h updates
  | _ => exact hop.elim

end Ops

end BevyWorldAdapter

end Aetheris
