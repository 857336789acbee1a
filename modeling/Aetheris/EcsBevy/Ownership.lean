import Aetheris.EcsBevy.Identity
import Aetheris.EcsBevy.Quiet

/-!
# Who is given an entity

Two operations give entities away: `spawn_kind_for` and `spawn_session_agent`, each one freshly
spawned entity. Every other operation grants nothing (`GrantsNothing`): whoever owns an entity
afterwards owned it before. An entity also keeps its identifier for as long as it lives, so an
identifier can stand for an entity in the records of somebody else (`StandsFor`).
-/

namespace Aetheris

open Ecs Function

variable {F : Type}

/-! ## Identifiers stay -/

namespace Roster

variable {card' : Card} {e : Entity} {m : Nat} {r r' : Roster}

theorem nextEntity_le_step (h : Step m r r') : r.nextEntity ≤ r'.nextEntity := by
  cases h with
  | spawnMapped | spawnTracker => exact Nat.le_succ _
  | _ => exact Nat.le_refl _

theorem nextEntity_le_steps (h : Steps m r r') : r.nextEntity ≤ r'.nextEntity := by
  induction h with
  | refl => exact Nat.le_refl _
  | tail _ hstep ih => exact Nat.le_trans ih (nextEntity_le_step hstep)

/-- An entity that is not new had its identifier before. -/
theorem networked_of_step (h : Step m r r')
    (he : e.id < r.nextEntity) (hcard' : r'.cards e = some card') :
    ∃ card, r.cards e = some card ∧ card.networked = card'.networked := by
  have hfresh : e ≠ ⟨r.nextEntity⟩ := fun heq => by rw [heq] at he; exact Nat.lt_irrefl _ he
  cases h with
  | allocate | cacheOwner => exact ⟨card', hcard', rfl⟩
  | spawnMapped | spawnTracker =>
    exact ⟨card', (update_of_ne hfresh ..).symm.trans hcard', rfl⟩
  | own n e' c card hrel hcard =>
    rcases of_update_some hcard' with ⟨rfl, rfl⟩ | ⟨-, hold⟩
    · exact ⟨card, hcard, rfl⟩
    · exact ⟨card', hold, rfl⟩
  | despawnMapped | despawnTracker | despawnUnmapped =>
    exact ⟨card', Function.of_update_none hcard', rfl⟩

theorem networked_of_steps (h : Steps m r r')
    (he : e.id < r.nextEntity) (hcard' : r'.cards e = some card') :
    ∃ card, r.cards e = some card ∧ card.networked = card'.networked := by
  induction h generalizing card' with
  | refl => exact ⟨card', hcard', rfl⟩
  | tail hprev hstep ih =>
    have he' := Nat.lt_of_lt_of_le he (nextEntity_le_steps hprev)
    obtain ⟨card, hcard, hnet⟩ := networked_of_step hstep he' hcard'
    obtain ⟨card₀, hcard₀, hnet₀⟩ := ih hcard
    exact ⟨card₀, hcard₀, hnet₀.trans hnet⟩

end Roster

variable {card : Card} {e : Entity} {w : World F}

theorem World.owner_of_card (h : w.card e = some card) : w.get e .networkOwner = card.owner := by
  rw [World.card_of_alive (BevyWorldAdapter.alive_of_card h)] at h
  rw [← Option.some.inj h]

theorem World.networked_of_card
    (h : w.card e = some card) : w.get e .networked = card.networked := by
  rw [World.card_of_alive (BevyWorldAdapter.alive_of_card h)] at h
  rw [← Option.some.inj h]

namespace BevyWorldAdapter

/-! ## Operations that grant nothing -/

/-- Every component but the owner. -/
def unownedComps : List Comp :=
  Comp.replicated ++ [.networked, .physicsBody, .resourceRespawn, .priorityRegenTimer,
    .respawnTimer, .latestInput, .sessionAgent, .trainingTarget, .aiControlled]

theorem mem_unownedComps {k : Comp} : k ∈ unownedComps ↔ k ≠ .networkOwner := by
  cases k <;> decide

/-- Whatever belongs to `c` afterwards belonged to it before. -/
structure GrantsNothing (c : ClientId) (a a' : BevyWorldAdapter F) : Prop extends Moves a a' where
  owner : ∀ e, a'.world.get e .networkOwner = some c → a.world.get e .networkOwner = some c

namespace GrantsNothing

variable {c : ClientId} {a b a' : BevyWorldAdapter F}

theorem trans (h : GrantsNothing c a b) (h' : GrantsNothing c b a') : GrantsNothing c a a' :=
  ⟨h.toMoves.trans h'.toMoves, fun e he => h.owner e (h'.owner e he)⟩

theorem of_evolves {ks : List Comp} (hmoves : Moves a a') (h : Evolves ks a.world a'.world)
    (hks : .networkOwner ∉ ks) : GrantsNothing c a a' where
  toMoves := hmoves
  owner e he := by
    rw [← h.get e .networkOwner hks (Storage.alive_of_get he)]
    exact he

/-- The owners are on the cards. -/
theorem of_card (hmoves : Moves a a') (h : a'.world.card = a.world.card) :
    GrantsNothing c a a' where
  toMoves := hmoves
  owner e he := by
    have hcard := World.card_of_alive (Storage.alive_of_get he)
    rw [h] at hcard
    rw [World.owner_of_card hcard]
    exact he

theorem refl (c : ClientId) (a : BevyWorldAdapter F) : GrantsNothing c a a :=
  ⟨Moves.refl a, fun _ h => h⟩

theorem foldl {α : Type} {f : BevyWorldAdapter F → α → BevyWorldAdapter F}
    (h : ∀ a x, GrantsNothing c a (f a x)) (l : List α) (a : BevyWorldAdapter F) :
    GrantsNothing c a (l.foldl f a) := by
  induction l generalizing a with
  | nil => exact .refl c a
  | cons x l ih => exact (h a x).trans (ih (f a x))

theorem despawnNetworked (c : ClientId) (a : BevyWorldAdapter F) (n : NetworkId) :
    GrantsNothing c a (a.despawnNetworked n).1 :=
  .of_evolves (despawnNetworked_moves a n) (despawnNetworked_evolves [] a n) (by simp)

theorem advanceTick (c : ClientId) (a : BevyWorldAdapter F) : GrantsNothing c a a.advanceTick :=
  ⟨advanceTick_moves a, fun _ h => h⟩

theorem queueReliableEvent (c : ClientId) (a : BevyWorldAdapter F) (client : Option ClientId)
    (event : PlatformEvent) : GrantsNothing c a (a.queueReliableEvent client event) :=
  ⟨queueReliableEvent_moves a client event, fun _ h => h⟩

theorem applyOne (h : Discreet a) (c : ClientId) (u : ClientId × ComponentUpdate) :
    GrantsNothing c a (a.applyOne u) := by
  refine .of_card (applyOne_moves h u) ?_
  have hcase := applyOne_cases a u
  generalize a.applyOne u = b at hcase ⊢
  cases hcase with
  | unmapped => rfl
  | checked e hrel => rw [authorize_world]
  | applied e hrel howner r hr => exact (h.replicators r (mem_of_findReplicator hr) _ _ _).card

theorem applyUpdates (h : Discreet a) (c : ClientId) (updates : List (ClientId × ComponentUpdate)) :
    GrantsNothing c a (a.applyUpdates updates) := by
  rw [applyUpdates_eq_foldl]
  induction updates generalizing a with
  | nil => exact .refl c a
  | cons u updates ih =>
    have hone := applyOne h c u
    exact hone.trans (ih (h.of_setup hone.setup))

variable [F32 F]

theorem simulate (P : Platform F) (h : Discreet a) (c : ClientId) :
    GrantsNothing c a (a.simulate P) := by
  have hmoves := beforeHook_moves P a
  have hstep : GrantsNothing c a (a.beforeHook P) :=
    .of_evolves hmoves (simulation_evolves P a) (by decide)
  have hb : Discreet (a.beforeHook P) := h.of_setup hmoves.setup
  rw [simulate_eq]
  generalize a.beforeHook P = b at hstep hb ⊢
  refine hstep.trans ?_
  unfold runHook
  split
  · next f hf => exact .of_card (Moves.of_keepsCards _ (hb.hook f hf _)) (hb.hook f hf _).card
  · exact .refl c b

/-- A spawn by kind leaves its entity without an owner. -/
theorem spawnKind (c : ClientId) (a : BevyWorldAdapter F) (kind : UInt16) (x y rot : F) :
    GrantsNothing c a (a.spawnKind kind x y rot).1 := by
  have hgives : ∀ kind, GivesOnly F unownedComps kind := by
    intro kind x y comps hcomps comp hcomp
    refine mem_unownedComps.mpr fun heq => ?_
    exact kindComps_plain kind x y comps hcomps comp hcomp (heq ▸ by decide)
  exact .of_evolves (spawnKind_moves a kind x y rot)
    (spawnKindFuel_evolves (by decide) (hgives _) 2 a (hgives kind) x y rot) (by decide)

theorem stressTest (P : Platform F) (c : ClientId) (a : BevyWorldAdapter F) (count : UInt16)
    (rotate : Bool) : GrantsNothing c a (a.stressTest P count rotate) := by
  have hdraw : ∀ (b : BevyWorldAdapter F) (lo hi : F), GrantsNothing c b (b.drawRange P lo hi).1 :=
    fun b lo hi => ⟨Moves.of_world rfl rfl rfl rfl rfl rfl rfl, fun _ h => h⟩
  refine foldl (fun b i => ?_) _ a
  let b₁ := (b.drawRange P (F32.neg 20.0) 20.0).1
  let b₂ := (b₁.drawRange P (F32.neg 20.0) 20.0).1
  have hb₂ : GrantsNothing c b b₂ := (hdraw b _ _).trans (hdraw b₁ _ _)
  show GrantsNothing c b (stressSpawn P rotate b i)
  cases rotate with
  | false => exact hb₂.trans (spawnKind c b₂ _ _ _ _)
  | true => exact (hb₂.trans (hdraw b₂ 0.0 F32.tau)).trans (spawnKind c _ _ _ _ _)

end GrantsNothing

/-! ## Grants -/

section Grants

variable [F32 F] {c : ClientId} (a : BevyWorldAdapter F) (kind : UInt16) (x y rot : F)
  (client : ClientId)

/-- What `spawn_kind_for` gives away is a new entity under the next identifier. -/
theorem spawnKindFor_owner (hs : a.roster.Coherent) {e : Entity}
    (h : (a.spawnKindFor kind x y rot client).1.world.get e .networkOwner = some c) :
    a.world.get e .networkOwner = some c ∨
      c = client ∧ a.world.ecs.next ≤ e.id ∧
        (a.spawnKindFor kind x y rot client).1.world.get e .networked =
          some ⟨a.allocator.next⟩ := by
  have hspawn := GrantsNothing.spawnKind c a kind x y rot
  obtain ⟨-, e', hrel, hcard⟩ := spawnKind_spec a kind x y rot
  rw [spawnKindFor_eq] at h ⊢
  dsimp only at h ⊢
  generalize (a.spawnKind kind x y rot).1 = b at hspawn hrel hcard h ⊢
  have hcards := congrArg Roster.cards (setOwner_roster client (l := []) (by simp) hrel hcard)
  have hcard' := World.card_of_alive (Storage.alive_of_get h)
  rw [← roster_cards, hcards] at hcard'
  rcases of_update_some hcard' with ⟨rfl, hnew⟩ | ⟨-, hold⟩
  · refine .inr ⟨?_, Nat.le_of_not_lt fun hlt => ?_, ?_⟩
    · exact Option.some.inj (h.symm.trans (congrArg Card.owner hnew))
    · -- an old entity would have had the identifier before it was handed out
      obtain ⟨card, hcard₀, hnet⟩ :=
        Roster.networked_of_steps (hspawn.steps _ (Nat.le_refl _) hs.toBounded) hlt hcard
      exact Bounded.not_rel_next hs.toBounded e ((hs.mapped _ e).mpr ⟨card, hcard₀, hnet⟩)
    · exact congrArg Card.networked hnew
  · left
    refine hspawn.owner e ?_
    rw [World.owner_of_card hold]
    exact h

/-- A spawn for another client grants nothing. -/
theorem GrantsNothing.spawnKindFor (hs : a.roster.Coherent) (hne : c ≠ client) :
    GrantsNothing c a (a.spawnKindFor kind x y rot client).1 where
  toMoves := spawnKindFor_moves a kind x y rot client
  owner e he := by
    rcases spawnKindFor_owner a kind x y rot client hs he with hold | ⟨hc, -⟩
    · exact hold
    · exact absurd hc hne

/-- A session agent is an owned spawn; the mark changes neither owner nor identifier. -/
theorem spawnSessionAgent_get {k : Comp} (hk : k ≠ .sessionAgent) (e : Entity) :
    (a.spawnSessionAgent kind x y rot client).1.world.get e k =
      (a.spawnKindFor kind x y rot client).1.world.get e k := by
  have hinsert : ∀ (w : World F) e', (w.insert e' [⟨.sessionAgent, ()⟩]).get e k = w.get e k := by
    intro w e'
    refine World.get_insert_of_ne w (.inr fun comp hcomp heq => ?_)
    rw [List.mem_singleton.mp hcomp] at heq
    exact hk heq.symm
  unfold spawnSessionAgent
  dsimp only
  split
  · split
    · exact hinsert _ _
    · exact hinsert _ _
  · rfl

end Grants

/-! ## What a record stands for -/

/-- Whatever belongs to `c` carries the identifier `agent`, and is not older than the handle
`first`. -/
structure StandsFor (c : ClientId) (first : Nat) (agent : Option NetworkId)
    (a : BevyWorldAdapter F) : Prop extends Sound a where
  first_le : first ≤ a.world.ecs.next
  owned : ∀ e, a.world.get e .networkOwner = some c →
    first ≤ e.id ∧ ∃ n, agent = some n ∧ a.world.get e .networked = some n

namespace StandsFor

variable {c : ClientId} {first : Nat} {agent : Option NetworkId} {a a' : BevyWorldAdapter F}

/-- With no identifier on record, nothing belongs to `c`. -/
theorem owns_nothing (h : StandsFor c first none a) (e : Entity) :
    a.world.get e .networkOwner ≠ some c := by
  intro he
  obtain ⟨-, n, hn, -⟩ := h.owned e he
  cases hn

/-- If nothing belongs to `c`, any identifier will do, and any handle. -/
theorem of_owns_nothing (h : Sound a) (hfree : ∀ e, a.world.get e .networkOwner ≠ some c)
    (agent : Option NetworkId) : StandsFor c a.world.ecs.next agent a :=
  ⟨h, Nat.le_refl _, fun e he => absurd he (hfree e)⟩

theorem of_grantsNothing (h : StandsFor c first agent a) (hg : GrantsNothing c a a') :
    StandsFor c first agent a' where
  toSound := h.toSound.of_moves hg.toMoves
  first_le := Nat.le_trans h.first_le (Roster.nextEntity_le_steps (h.toSound.steps hg.toMoves))
  owned e he := by
    have hold := hg.owner e he
    obtain ⟨hfirst, n, hn, hnet⟩ := h.owned e hold
    refine ⟨hfirst, n, hn, ?_⟩
    -- the entity has been there before, so it has the same identifier
    have hcard := World.card_of_alive (Storage.alive_of_get hold)
    have hlt : e.id < a.roster.nextEntity := h.coherent.cards e (by rw [roster_cards, hcard]; nofun)
    have hcard' := World.card_of_alive (Storage.alive_of_get he)
    obtain ⟨card, hcard₀, hsame⟩ :=
      Roster.networked_of_steps (h.toSound.steps hg.toMoves) hlt hcard'
    rw [World.networked_of_card hcard₀, hsame] at hnet
    exact hnet

theorem despawn (h : StandsFor c first agent a) :
    StandsFor c first none (agent.elim a fun n => (a.despawnNetworked n).1) := by
  cases agent with
  | none => exact h
  | some n =>
    have hafter := h.of_grantsNothing (.despawnNetworked c a n)
    refine ⟨hafter.toSound, hafter.first_le, fun e he => ?_⟩
    obtain ⟨hfirst, n', hn', hnet⟩ := hafter.owned e he
    obtain rfl := Option.some.inj hn'
    -- nothing is mapped to the identifier any more
    have hrel := (hafter.coherent.mapped n e).mpr
      ⟨_, World.card_of_alive (Storage.alive_of_get he), hnet⟩
    exact absurd rfl (rel_despawnNetworked.mp hrel).2

section Agents

variable [F32 F] (kind : UInt16) (x y rot : F)

theorem first_le_spawnSessionAgent (h : StandsFor c first agent a) (client : ClientId) :
    first ≤ (a.spawnSessionAgent kind x y rot client).1.world.ecs.next := by
  obtain ⟨-, b, e, card, hmoves, -, -, -, -, hroster, -⟩ :=
    spawnSessionAgent_spec a kind x y rot client
  have hnext : (a.spawnSessionAgent kind x y rot client).1.world.ecs.next = b.world.ecs.next :=
    congrArg Roster.nextEntity hroster
  rw [hnext]
  exact Nat.le_trans h.first_le (Roster.nextEntity_le_steps (h.toSound.steps hmoves))

/-- The agent that `c` gets is the one thing it owns. -/
theorem spawnOwnAgent (h : StandsFor c first none a) :
    StandsFor c first (some (a.spawnSessionAgent kind x y rot c).2)
      (a.spawnSessionAgent kind x y rot c).1 where
  toSound := h.toSound.spawnSessionAgent kind x y rot c
  first_le := h.first_le_spawnSessionAgent kind x y rot c
  owned e he := by
    rw [(spawnSessionAgent_spec a kind x y rot c).1]
    rw [spawnSessionAgent_get a kind x y rot c (by decide)] at he ⊢
    rcases spawnKindFor_owner a kind x y rot c h.coherent he with hold | ⟨-, hnew, hnet⟩
    · exact absurd hold (h.owns_nothing e)
    · exact ⟨Nat.le_trans h.first_le hnew, _, rfl, hnet⟩

theorem spawnOtherAgent (h : StandsFor c first agent a) {client : ClientId} (hne : c ≠ client) :
    StandsFor c first agent (a.spawnSessionAgent kind x y rot client).1 where
  toSound := h.toSound.spawnSessionAgent kind x y rot client
  first_le := h.first_le_spawnSessionAgent kind x y rot client
  owned e he := by
    rw [spawnSessionAgent_get a kind x y rot client (by decide)] at he ⊢
    have hspawn := h.of_grantsNothing (.spawnKindFor a kind x y rot client h.coherent hne)
    exact hspawn.owned e he

end Agents

/-- A cleared world belongs to nobody. -/
theorem clearWorld [F32 F] (P : Platform F) (h : StandsFor c first agent a)
    (agent' : Option NetworkId) :
    StandsFor c first agent' (a.clearWorld P) where
  toSound := h.toSound.clearWorld P
  first_le := Nat.le_trans h.first_le (clearWorld_evolves P a).next
  owned e he := by
    have halive := Storage.alive_of_get he
    rw [(clearWorld_evolves P a).get e _ (by simp) halive] at he
    obtain ⟨-, n, -, hnet⟩ := h.owned e he
    rw [← (clearWorld_evolves P a).get e .networked (by simp) halive] at hnet
    -- its identifier would have to be on the map
    have hrel := ((h.toSound.clearWorld P).coherent.mapped n e).mpr
      ⟨_, World.card_of_alive halive, hnet⟩
    obtain ⟨b, -, hempty, hroster, -⟩ := clearWorld_spec P a
    rw [hroster] at hrel
    exact absurd hrel (hempty n e)

/-- No update of `c` is let through for an older entity. -/
theorem authorize_old (h : StandsFor c first agent a) {n : NetworkId} {e : Entity}
    (hrel : a.bimap.Rel n e) (he : e.id < first) : (a.authorize c n e).2 = false := by
  have hfree : a.world.get e .networkOwner ≠ some c := fun howner =>
    Nat.not_lt_of_le (h.owned e howner).1 he
  have hrecord : a.ownerOnRecord n e ≠ some c := by
    intro hrecord
    unfold ownerOnRecord at hrecord
    cases hcache : a.owners n with
    | none =>
      rw [hcache, Option.none_or] at hrecord
      exact hfree hrecord
    | some c' =>
      rw [hcache, Option.some_or] at hrecord
      obtain ⟨e', card, hrel', hcard, howner⟩ := h.coherent.cached n c' hcache
      rw [hrel'.right_unique hrel] at hcard
      rw [World.owner_of_card hcard, howner] at hfree
      exact hfree hrecord
  rw [authorize_snd]
  exact decide_eq_false hrecord

end StandsFor

end BevyWorldAdapter

end Aetheris
