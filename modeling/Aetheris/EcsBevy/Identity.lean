import Aetheris.EcsBevy.Updates

/-!
# Identifiers over whole runs

From a fresh adapter, whatever operations follow, the identifier map, the components and the owner
cache agree (`identity_bijection`). An identifier also stays with the entity it was first given to,
but only until the world is cleared: `clear_world` restarts the allocator, and the next spawn takes
an identifier that clients, beams and the scheduler may still remember (`ids_recycled`).
-/

namespace Aetheris

open Ecs Relation BevyWorldAdapter

variable {F : Type}

/-! ## Sound adapters -/

/-- The stores agree, and neither a replicator nor the hook touches identities. -/
structure Sound (a : BevyWorldAdapter F) : Prop where
  coherent : a.roster.Coherent
  discreet : Discreet a

/-- Nobody is mapped, cached or alive. -/
theorem coherent_fresh {a : BevyWorldAdapter F} (hworld : ∀ e, a.world.alive e = false)
    (hbimap : a.bimap = BiMap.empty) (howners : a.owners = fun _ => none) :
    a.roster.Coherent := by
  have hcards : ∀ e, a.roster.cards e = none := fun e => World.card_eq_none.mpr (hworld e)
  have hrel : ∀ n e, ¬ a.roster.bimap.Rel n e := by
    intro n e h
    rw [roster_bimap, hbimap] at h
    exact BiMap.not_rel_empty n e h
  have hcard : ∀ {e card}, a.roster.cards e ≠ some card := fun h => by
    rw [hcards] at h
    cases h
  refine ⟨⟨?_, ?_, ?_⟩, ?_, ?_, ?_, ?_⟩
  · exact fun n e h => absurd h (hrel n e)
  · exact fun n e h => absurd h (hrel n e)
  · exact fun e h => absurd (hcards e) h
  · exact fun n e => ⟨fun h => absurd h (hrel n e), fun ⟨_, h, _⟩ => absurd h hcard⟩
  · exact fun e card h => absurd h hcard
  · exact fun e card h => absurd h hcard
  · intro n c h
    rw [show a.roster.owners = fun _ => none from howners] at h
    cases h

namespace Sound

variable {a a' : BevyWorldAdapter F}

theorem of_moves (h : Sound a) (hm : Moves a a') : Sound a' :=
  ⟨Roster.coherent_steps (hm.steps _ (Nat.le_refl _) h.coherent.toBounded) h.coherent,
    h.discreet.of_setup hm.setup⟩

theorem steps (h : Sound a) (hm : Moves a a') : Roster.Steps a.allocator.next a.roster a'.roster :=
  hm.steps _ (Nat.le_refl _) h.coherent.toBounded

theorem spawnSessionAgent [F32 F] (h : Sound a) (kind : UInt16) (x y rot : F) (c : ClientId) :
    Sound (a.spawnSessionAgent kind x y rot c).1 := by
  obtain ⟨-, b, e, card, hmoves, -, hcard, -, hnet, hroster, hsetup⟩ :=
    spawnSessionAgent_spec a kind x y rot c
  have hb := h.of_moves hmoves
  refine ⟨?_, hb.discreet.of_setup hsetup⟩
  rw [hroster]
  exact Roster.coherent_mark hb.coherent hcard hnet

theorem clearWorld [F32 F] (P : Platform F) (h : Sound a) : Sound (a.clearWorld P) := by
  obtain ⟨b, hmoves, hempty, hroster, hsetup⟩ := clearWorld_spec P a
  refine ⟨?_, h.discreet.of_setup hsetup⟩
  rw [hroster]
  exact Roster.coherent_restart hempty _ (h.of_moves hmoves).coherent

theorem run [F32 F] (P : Platform F) (h : Sound a) (op : Op F) : Sound (op.run P a) := by
  cases op with
  | spawnSessionAgent kind x y rot client => exact h.spawnSessionAgent kind x y rot client
  | clearWorld => exact h.clearWorld P
  | _ => exact h.of_moves (Op.moves P h.discreet trivial)

end Sound

namespace BevyWorldAdapter

/-! ## Runs -/

/-- A world nothing was put into: no entity lives and no beam is asked for. -/
structure Blank (w : World F) : Prop where
  alive : ∀ e, w.alive e = false
  requests : w.beamSpawnRequests.getD [] = []

/-- Built around a blank world and given replicators of components that have nothing to do with
identity. There is no hook. -/
inductive Fresh : BevyWorldAdapter F → Prop where
  | new (w : World F) (hw : Blank w) (tickRate : UInt64) (a : BevyWorldAdapter F)
      (h : BevyWorldAdapter.new w tickRate = some a) (rs : List (ComponentReplicator F))
      (hrs : ∀ r ∈ rs, r.Plain) : Fresh { a with replicators := rs }
  | newWithRng (w : World F) (hw : Blank w) (tickRate : UInt64) (rng : DeterministicRng)
      (rs : List (ComponentReplicator F)) (hrs : ∀ r ∈ rs, r.Plain) :
      Fresh { newWithRng w tickRate rng with replicators := rs }

namespace Fresh

variable {a : BevyWorldAdapter F}

/-- Both constructors leave the entities alone and start with empty maps. -/
theorem spec (h : Fresh a) : Blank a.world ∧ (∀ r ∈ a.replicators, r.Plain) ∧
    a.bimap = BiMap.empty ∧ a.owners = (fun _ => none) ∧ a.postSimulateHook = none ∧
    a.lastExtractionTick = none := by
  cases h with
  | new w hw tickRate a h rs hrs =>
    unfold BevyWorldAdapter.new at h
    split at h
    · obtain rfl := Option.some.inj h
      exact ⟨⟨hw.alive, rfl⟩, hrs, rfl, rfl, rfl, rfl⟩
    · cases h
  | newWithRng w hw tickRate rng rs hrs =>
    exact ⟨⟨hw.alive, hw.requests⟩, hrs, rfl, rfl, rfl, rfl⟩

/-- A hook may be added. -/
theorem sound_hook (h : Fresh a) {hook : Option (World F → World F)}
    (hhook : ∀ f, hook = some f → ∀ w, KeepsCards w (f w)) :
    Sound { a with postSimulateHook := hook } := by
  obtain ⟨hblank, hplain, hbimap, howners, -, -⟩ := h.spec
  exact ⟨coherent_fresh hblank.alive hbimap howners, fun r hr => (hplain r hr).keepsCards, hhook⟩

theorem hookless (h : Fresh a) : { a with postSimulateHook := none } = a := by
  obtain ⟨-, -, -, -, hhook, -⟩ := h.spec
  rw [← hhook]

theorem sound (h : Fresh a) : Sound a := by
  rw [← h.hookless]
  exact h.sound_hook nofun

end Fresh

variable [F32 F] (P : Platform F)

def runOps (a : BevyWorldAdapter F) (ops : List (Op F)) : BevyWorldAdapter F :=
  ops.foldl (Op.run P) a

theorem runOps_nil (a : BevyWorldAdapter F) : a.runOps P [] = a := rfl

theorem runOps_cons (a : BevyWorldAdapter F) (op : Op F) (ops : List (Op F)) :
    a.runOps P (op :: ops) = (op.run P a).runOps P ops := rfl

theorem runOps_append (a : BevyWorldAdapter F) (ops ops' : List (Op F)) :
    a.runOps P (ops ++ ops') = (a.runOps P ops).runOps P ops' := List.foldl_append

variable {a : BevyWorldAdapter F} {n : NetworkId}

theorem Sound.runOps (h : Sound a) (ops : List (Op F)) : Sound (a.runOps P ops) := by
  induction ops generalizing a with
  | nil => exact h
  | cons op ops ih => exact ih (h.run P op)

/-! ## The bijection -/

omit [F32 F] in
/-- A card that names an identifier is a live entity that carries it. -/
theorem networked_iff {w : World F} {e : Entity} :
    (∃ card, w.card e = some card ∧ card.networked = some n) ↔
      w.alive e = true ∧ w.get e .networked = some n := by
  constructor
  · rintro ⟨card, hcard, hn⟩
    have halive := alive_of_card hcard
    rw [World.card_of_alive halive, Option.some.injEq] at hcard
    subst hcard
    exact ⟨halive, hn⟩
  · rintro ⟨halive, hn⟩
    exact ⟨_, World.card_of_alive halive, hn⟩

omit [F32 F] in
/-- A lookup of the handle of an identifier leads back to the identifier. -/
theorem getNetworkId_getLocalId {l : LocalId}
    (h : a.getLocalId n = some l) : a.getNetworkId l = some n := by
  obtain ⟨e, he, rfl⟩ := Option.map_eq_some_iff.mp h
  exact BiMap.getByRight_eq_some.mpr (BiMap.getByLeft_eq_some.mp he)

/-- In every state of every run from a fresh adapter: the pairs of the identifier map are the live
networked entities, one for one; the two lookups are inverse to each other; and a cached owner is
the owner component of a live mapped entity. -/
theorem identity_bijection {a : BevyWorldAdapter F} (h : Fresh a) (ops : List (Op F)) :
    (∀ n e, (a.runOps P ops).bimap.Rel n e ↔
      (a.runOps P ops).world.alive e = true ∧
        (a.runOps P ops).world.get e .networked = some n) ∧
    (∀ n e e', (a.runOps P ops).bimap.Rel n e → (a.runOps P ops).bimap.Rel n e' → e = e') ∧
    (∀ n n' e, (a.runOps P ops).bimap.Rel n e → (a.runOps P ops).bimap.Rel n' e → n = n') ∧
    (∀ n l, (a.runOps P ops).getLocalId n = some l → (a.runOps P ops).getNetworkId l = some n) ∧
    ∀ n c, (a.runOps P ops).owners n = some c →
      ∃ e, (a.runOps P ops).bimap.Rel n e ∧ (a.runOps P ops).world.alive e = true ∧
        (a.runOps P ops).world.get e .networkOwner = some c := by
  have hcoherent := (Sound.runOps P h.sound ops).coherent
  generalize a.runOps P ops = b at hcoherent
  refine ⟨fun n e => ?_, fun n e e' => BiMap.Rel.right_unique, fun n n' e => BiMap.Rel.left_unique,
    fun n l => getNetworkId_getLocalId, fun n c hc => ?_⟩
  · exact (hcoherent.mapped n e).trans networked_iff
  · obtain ⟨e, card, hrel, hcard, howner⟩ := hcoherent.cached n c hc
    have halive := alive_of_card hcard
    rw [roster_cards, World.card_of_alive halive, Option.some.injEq] at hcard
    subst hcard
    exact ⟨e, hrel, halive, howner⟩

/-- An agent of client 7, an entity despawned, the world cleared, and another spawn. -/
def busyOps : List (Op ℚ) :=
  [.spawnSessionAgent 1 0 0 0 ⟨7⟩, .spawnNetworked, .despawnNetworked ⟨1⟩, .clearWorld,
    .spawnNetworkedFor ⟨8⟩]

omit [F32 F] in
theorem blank_new : Blank (World.new : World F) := ⟨fun _ => rfl, rfl⟩

theorem identity_bijection_busy :
    let b := ({ newWithRng World.new 60 ⟨1, 0⟩ with
      replicators := platformReplicators rationalPlatform } : BevyWorldAdapter ℚ).runOps
        rationalPlatform busyOps
    ((∀ n e, b.bimap.Rel n e ↔ b.world.alive e = true ∧ b.world.get e .networked = some n) ∧
      (∀ n e e', b.bimap.Rel n e → b.bimap.Rel n e' → e = e') ∧
      (∀ n n' e, b.bimap.Rel n e → b.bimap.Rel n' e → n = n') ∧
      (∀ n l, b.getLocalId n = some l → b.getNetworkId l = some n) ∧
      ∀ n c, b.owners n = some c → ∃ e, b.bimap.Rel n e ∧ b.world.alive e = true ∧
        b.world.get e .networkOwner = some c) ∧
    b.bimap.pairs = [(⟨1⟩, ⟨4⟩)] ∧ b.owners ⟨1⟩ = some ⟨8⟩ :=
  ⟨identity_bijection rationalPlatform (.newWithRng World.new blank_new 60 ⟨1, 0⟩ _
    (platformReplicators_plain rationalPlatform)) busyOps, by decide +kernel, by decide +kernel⟩

/-! ## Identifiers over time -/

/-- Identifiers handed out already are given to no other entity. -/
structure KeepsIds (a a' : BevyWorldAdapter F) : Prop where
  next : a.allocator.next ≤ a'.allocator.next
  rel : ∀ n e, n.val < a.allocator.next → a'.bimap.Rel n e → a.bimap.Rel n e

namespace KeepsIds

omit [F32 F]

variable {a b c : BevyWorldAdapter F}

theorem trans (h : KeepsIds a b) (h' : KeepsIds b c) : KeepsIds a c where
  next := Nat.le_trans h.next h'.next
  rel n e hn hrel := h.rel n e hn (h'.rel n e (Nat.lt_of_lt_of_le hn h.next) hrel)

theorem of_moves (hb : a.roster.Bounded) (h : Moves a b) : KeepsIds a b := by
  have hsteps := h.steps _ (Nat.le_refl _) hb
  exact ⟨Roster.nextId_le_steps hsteps, fun n e hn hrel => Roster.rel_of_steps hsteps hn hrel⟩

/-- Only the world, the owner cache or the marks of session agents changed. -/
theorem of_eq (hnext : b.allocator.next = a.allocator.next) (hbimap : b.bimap = a.bimap) :
    KeepsIds a b :=
  ⟨Nat.le_of_eq hnext.symm, fun _ _ _ hrel => hbimap ▸ hrel⟩

end KeepsIds

omit [F32 F] in
theorem applyUpdates_allocator (a : BevyWorldAdapter F)
    (updates : List (ClientId × ComponentUpdate)) :
    (a.applyUpdates updates).allocator = a.allocator := by
  rw [applyUpdates_eq_foldl]
  induction updates generalizing a with
  | nil => rfl
  | cons u updates ih =>
    rw [List.foldl_cons, ih]
    have hcases := applyOne_cases a u
    generalize a.applyOne u = a' at hcases ⊢
    cases hcases with
    | unmapped => rfl
    | checked e hrel => rw [authorize_fst]
    | applied e hrel howner r hr => rw [authorize_fst]

omit [F32 F] in
/-- The hook works on the world and knows nothing of identifiers. -/
theorem runHook_keepsIds (a : BevyWorldAdapter F) : KeepsIds a a.runHook := by
  unfold runHook
  split
  · exact .of_eq rfl rfl
  · exact .of_eq rfl rfl

/-- Of all operations only `clear_world` takes identifiers back. -/
theorem Owned.keepsIds (h : Owned a) {op : Op F} (hop : op ≠ .clearWorld) :
    KeepsIds a (op.run P a) := by
  cases op with
  | clearWorld => exact absurd rfl hop
  | advanceTick => exact .of_moves h.bounded (advanceTick_moves a)
  | spawnNetworked => exact .of_moves h.bounded (spawnNetworked_moves a)
  | spawnNetworkedFor client => exact .of_moves h.bounded (spawnNetworkedFor_moves a client)
  | spawnKind kind x y rot => exact .of_moves h.bounded (spawnKind_moves a kind x y rot)
  | spawnKindFor kind x y rot client =>
    exact .of_moves h.bounded (spawnKindFor_moves a kind x y rot client)
  | spawnSessionAgent kind x y rot client =>
    obtain ⟨-, b, e, card, hmoves, -, -, -, -, hroster, -⟩ :=
      spawnSessionAgent_spec a kind x y rot client
    refine (KeepsIds.of_moves h.bounded hmoves).trans (.of_eq ?_ ?_)
    · exact congrArg Roster.nextId hroster
    · exact congrArg Roster.bimap hroster
  | stressTest count rotate =>
    exact .of_moves h.bounded (stressTest_grows P a count rotate).toMoves
  | despawnNetworked n => exact .of_moves h.bounded (despawnNetworked_moves a n)
  | queueReliableEvent client event =>
    exact .of_moves h.bounded (queueReliableEvent_moves a client event)
  | applyUpdates updates =>
    exact .of_eq (congrArg _ (applyUpdates_allocator a updates)) (applyUpdates_bimap a updates)
  | simulate =>
    rw [Op.run, simulate_eq]
    exact (KeepsIds.of_moves h.bounded (beforeHook_moves P a)).trans (runHook_keepsIds _)
  | extractDeltas => exact .of_moves h.bounded (extractDeltas_moves P a)
  | extractReliableEvents => exact .of_moves h.bounded (extractReliableEvents_moves a)
  | postExtract => exact .of_moves h.bounded (postExtract_moves a)

theorem Reachable.runOps (h : Reachable P a) (ops : List (Op F)) :
    Reachable P (a.runOps P ops) := by
  induction ops generalizing a with
  | nil => exact h
  | cons op ops ih => exact ih (.run a h op)

theorem Owned.keepsIds_runOps (h : Owned a) (ops : List (Op F))
    (hops : ∀ op ∈ ops, op ≠ .clearWorld) : KeepsIds a (a.runOps P ops) := by
  induction ops generalizing a with
  | nil => exact .of_eq rfl rfl
  | cons op ops ih =>
    obtain ⟨hop, hops⟩ := List.forall_mem_cons.mp hops
    exact (h.keepsIds P hop).trans (ih (h.run P op) hops)

/-- Between two moments without a `clear_world`, an identifier is never mapped to two entities. -/
theorem ids_not_recycled {a : BevyWorldAdapter F} (h : Reachable P a) (ops : List (Op F))
    (hops : ∀ op ∈ ops, op ≠ .clearWorld) {n : NetworkId} {e e' : Entity}
    (hrel : a.bimap.Rel n e) (hrel' : (a.runOps P ops).bimap.Rel n e') : e = e' := by
  have howned := h.owned
  have hn : n.val < a.allocator.next := howned.bounded.ids n e hrel
  exact hrel.right_unique ((howned.keepsIds_runOps P ops hops).rel n e' hn hrel')

/-- A run in which the identifier 1 outlives the despawn of another entity. -/
theorem ids_not_recycled_despawn :
    let a : BevyWorldAdapter ℚ := (newWithRng World.new 60 ⟨1, 0⟩).runOps rationalPlatform
      [.spawnNetworked, .spawnNetworked]
    let b := a.runOps rationalPlatform [.despawnNetworked ⟨2⟩, .spawnNetworked, .simulate]
    a.bimap.Rel ⟨1⟩ ⟨0⟩ ∧ b.bimap.Rel ⟨1⟩ ⟨0⟩ ∧ ∀ e, b.bimap.Rel ⟨1⟩ e → ⟨0⟩ = e := by
  have hrel : ((newWithRng World.new 60 ⟨1, 0⟩ : BevyWorldAdapter ℚ).runOps rationalPlatform
      [.spawnNetworked, .spawnNetworked]).bimap.Rel ⟨1⟩ ⟨0⟩ := by
    unfold BiMap.Rel
    decide +kernel
  refine ⟨hrel, by unfold BiMap.Rel; decide +kernel, fun e he => ?_⟩
  exact ids_not_recycled rationalPlatform
    (Reachable.runOps rationalPlatform (.newWithRng World.new 60 ⟨1, 0⟩) _) _ (by simp) hrel he

/-- After a `clear_world` the next spawn takes the first identifier again. -/
theorem ids_recycled :
    ∃ (a : BevyWorldAdapter ℚ) (n : NetworkId) (e e' : Entity), Reachable rationalPlatform a ∧
      a.bimap.Rel n e ∧
      (a.runOps rationalPlatform [.clearWorld, .spawnNetworked]).bimap.Rel n e' ∧ e ≠ e' := by
  refine ⟨(newWithRng World.new 60 ⟨1, 0⟩).spawnNetworked.1, ⟨1⟩, ⟨0⟩, ⟨1⟩,
    .run _ (.newWithRng _ _ _) .spawnNetworked, ?_, ?_, by decide⟩
  · unfold BiMap.Rel
    decide +kernel
  · unfold BiMap.Rel
    decide +kernel

end BevyWorldAdapter

end Aetheris
