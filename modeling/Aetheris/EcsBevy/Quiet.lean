import Aetheris.EcsBevy.Capacity
import Aetheris.EcsBevy.Updates

/-!
# Who is told

The reliable queue holds events for one client and events for everybody. Every operation but
`queue_reliable_event` adds events of the second sort only. So nothing is queued for a client unless
somebody asks for it (`Quiet`), as long as the replicators and the hook keep to that as well.
-/

namespace Aetheris

open Ecs

variable {F : Type}

namespace BevyWorldAdapter

/-! ## Operations of the adapter -/

theorem inserts_reliableEvents (e : Entity) (ls : List (Comps F)) (w : World F) :
    (ls.foldl (fun w l => w.insert e l) w).reliableEvents = w.reliableEvents := by
  induction ls generalizing w with
  | nil => rfl
  | cons l ls ih => exact ih (w.insert e l)

theorem setOwner_reliableEvents (a : BevyWorldAdapter F) (n : NetworkId) (c : ClientId)
    (l : Comps F) : (a.setOwner n c l).world.reliableEvents = a.world.reliableEvents := by
  unfold setOwner
  split <;> rfl

section Kinds

variable [F32 F]

theorem createMaster_reliableEvents (a : BevyWorldAdapter F) :
    a.createMaster.1.world.reliableEvents = a.world.reliableEvents := by
  unfold createMaster
  dsimp only
  split <;> rfl

theorem placeKind_reliableEvents (a : BevyWorldAdapter F) (n : NetworkId) (kind : UInt16)
    (x y rot : F) (master : NetworkId) :
    (a.placeKind n kind x y rot master).world.reliableEvents = a.world.reliableEvents :=
  inserts_reliableEvents a.world.spawned (kindComps kind x y) _

theorem spawnKindFuel_reliableEvents (fuel : Nat) :
    ∀ (a : BevyWorldAdapter F) (kind : UInt16) (x y rot : F),
      (spawnKindFuel fuel a kind x y rot).1.world.reliableEvents = a.world.reliableEvents := by
  induction fuel with
  | zero => exact fun _ _ _ _ _ => rfl
  | succ fuel ih =>
    intro a kind x y rot
    unfold spawnKindFuel
    dsimp only
    split
    · exact placeKind_reliableEvents _ _ _ _ _ _ _
    · rw [placeKind_reliableEvents, ih, createMaster_reliableEvents]

theorem spawnKindFor_reliableEvents (a : BevyWorldAdapter F) (kind : UInt16) (x y rot : F)
    (c : ClientId) :
    (a.spawnKindFor kind x y rot c).1.world.reliableEvents = a.world.reliableEvents := by
  unfold spawnKindFor
  dsimp only
  rw [setOwner_reliableEvents]
  exact spawnKindFuel_reliableEvents 2 a kind x y rot

theorem spawnSessionAgent_reliableEvents (a : BevyWorldAdapter F) (kind : UInt16) (x y rot : F)
    (c : ClientId) :
    (a.spawnSessionAgent kind x y rot c).1.world.reliableEvents = a.world.reliableEvents := by
  rw [← spawnKindFor_reliableEvents a kind x y rot c]
  unfold spawnSessionAgent
  dsimp only
  split
  · split <;> rfl
  · rfl

variable (P : Platform F)

theorem stressTest_reliableEvents (a : BevyWorldAdapter F) (count : UInt16) (rotate : Bool) :
    (a.stressTest P count rotate).world.reliableEvents = a.world.reliableEvents := by
  have hone : ∀ (b : BevyWorldAdapter F) i,
      (stressSpawn P rotate b i).world.reliableEvents = b.world.reliableEvents := by
    intro b i
    unfold stressSpawn
    cases rotate <;> exact spawnKindFuel_reliableEvents 2 _ _ _ _ _
  unfold stressTest
  induction List.range count.toNat generalizing a with
  | nil => rfl
  | cons i is ih => exact (ih _).trans (hone a i)

end Kinds

/-- Clearing only despawns. -/
theorem clearWorld_evolves (P : Platform F) (a : BevyWorldAdapter F) :
    Evolves [] a.world (a.clearWorld P).world := by
  let ids := (P.bimapOrder a.bimap.pairs).map Prod.fst
  let a₁ := ids.foldl (fun a id => (a.despawnNetworked id).1) a
  have hdespawn : Evolves [] a.world a₁.world :=
    Evolves.foldl BevyWorldAdapter.world (fun a n => despawnNetworked_evolves [] a n) ids a
  have htrackers := Evolves.foldl id (fun w e => Evolves.despawn [] w e)
    (a₁.world.query [.resourceRespawn]) a₁.world
  exact (hdespawn.trans htrackers).trans (Evolves.of_ecs_eq [] rfl (Announces.of_eq rfl))

/-! ## Quiet adapters -/

/-- Nothing is queued for `u`, and the code from outside queues nothing for a single client. -/
structure Quiet (u : ClientId) (a : BevyWorldAdapter F) : Prop where
  queue : ∀ ev ∈ a.world.reliableQueue, ev.1 ≠ some u
  replicators : ∀ r ∈ a.replicators, ∀ w e update, Announces w (r.apply w e update)
  hook : ∀ f, a.postSimulateHook = some f → ∀ w, Announces w (f w)

namespace Quiet

variable {u : ClientId} {a a' : BevyWorldAdapter F}

theorem of_announces (h : Quiet u a) (hs : SameSetup a a') (hq : Announces a.world a'.world) :
    Quiet u a' where
  queue ev hev := by
    rcases hq ev hev with hold | hnone
    · exact h.queue ev hold
    · rw [hnone]
      exact nofun
  replicators := hs.replicators ▸ h.replicators
  hook := hs.hook ▸ h.hook

theorem queueReliableEvent (h : Quiet u a) {c : Option ClientId} (hc : c ≠ some u)
    (event : PlatformEvent) : Quiet u (a.queueReliableEvent c event) where
  queue ev hev := by
    unfold BevyWorldAdapter.queueReliableEvent World.pushReliable World.reliableQueue at hev
    cases hq : a.world.reliableEvents with
    | none => simp [hq] at hev
    | some queue =>
      simp only [hq, Option.map_some, Option.getD_some] at hev
      rcases List.mem_append.mp hev with hold | hnew
      · exact h.queue ev (by rw [World.reliableQueue, hq]; exact hold)
      · rw [List.mem_singleton.mp hnew]
        exact hc
  replicators := h.replicators
  hook := h.hook

theorem applyOne (h : Quiet u a) (update : ClientId × ComponentUpdate) :
    Quiet u (a.applyOne update) := by
  have hcase := applyOne_cases a update
  refine h.of_announces (applyOne_rest a update).2 ?_
  generalize a.applyOne update = b at hcase ⊢
  cases hcase with
  | unmapped => exact Announces.refl _
  | checked e hrel =>
    rw [authorize_world]
    exact Announces.refl _
  | applied e hrel howner r hr => exact h.replicators r (mem_of_findReplicator hr) _ _ _

theorem applyUpdates (h : Quiet u a) (updates : List (ClientId × ComponentUpdate)) :
    Quiet u (a.applyUpdates updates) := by
  rw [applyUpdates_eq_foldl]
  induction updates generalizing a with
  | nil => exact h
  | cons update updates ih => exact ih (h.applyOne update)

theorem simulate [F32 F] (P : Platform F) (h : Quiet u a) : Quiet u (a.simulate P) := by
  have hsetup := (beforeHook_moves P a).setup
  have hb := h.of_announces hsetup (simulation_evolves P a).queue
  rw [simulate_eq]
  generalize a.beforeHook P = b at hb ⊢
  unfold runHook
  split
  · next f hf => exact hb.of_announces ⟨rfl, rfl, rfl⟩ (hb.hook f hf b.world)
  · exact hb

theorem extractReliableEvents (h : Quiet u a) : Quiet u a.extractReliableEvents.1 where
  queue ev hev := by
    unfold BevyWorldAdapter.extractReliableEvents World.reliableQueue at hev
    cases hq : a.world.reliableEvents <;> simp [hq] at hev
  replicators := h.replicators
  hook := h.hook

end Quiet

theorem platformReplicators_announces (P : Platform F) :
    ∀ r ∈ platformReplicators P, ∀ w e update, Announces w (r.apply w e update) := by
  intro r hr w e update
  have hwrites : ∃ k, Writes w (r.apply w e update) e k := by
    rcases mem_platformReplicators P hr with ⟨k, kind, name, -, rfl⟩ | rfl
    · exact ⟨k, (defaultReplicator_writesOnly P k kind).writes w e update⟩
    · exact ⟨_, (inputCommandReplicator_writesOnly P).writes w e update⟩
  obtain ⟨k, hk⟩ := hwrites
  have hsame := congrArg World.reliableEvents hk.resources
  exact Announces.of_eq hsame

end BevyWorldAdapter

end Aetheris
