import Aetheris.Lib.BiMap
import Aetheris.Lib.Ecs
import Aetheris.Lib.Lookup
import Aetheris.Protocol.Types
import Mathlib.Logic.Relation

/-!
# The roster: identity and ownership

What an adapter is for, apart from gameplay: it gives entities network identifiers and owners. A
`Roster` keeps exactly that. For each live entity it has a `Card` (identifier, owner, whether it is a
session agent, whether it is a respawn tracker), and next to the cards the identifier map, the owner
cache and the next identifier.

`Step m` lists what can happen to a roster when only identifiers from `m` on are handed out. Marking
a session agent (`mark`) and restarting the identifiers (`restart`) are not steps: they happen in one
operation each. Every invariant about identity is proved here, once for each step.
-/

namespace Aetheris

open Ecs Function Relation
open Function (ne_of_update_none of_update_none of_update_some ne_none_of_update)

structure Card where
  networked : Option NetworkId
  owner : Option ClientId
  session : Bool
  tracker : Bool
deriving DecidableEq, Repr

structure Roster where
  cards : Entity → Option Card
  nextEntity : Nat
  bimap : BiMap NetworkId Entity
  owners : NetworkId → Option ClientId
  nextId : Nat

namespace Roster

/-- The card of a freshly spawned networked entity. -/
def networkedCard (n : NetworkId) : Card := ⟨some n, none, false, false⟩

/-- The card of a freshly spawned respawn tracker. -/
def trackerCard : Card := ⟨none, none, false, true⟩

/-- Marks `e` as a session agent. -/
def mark (r : Roster) (e : Entity) (card : Card) : Roster :=
  { r with cards := Function.update r.cards e (some { card with session := true }) }

/-- Hands out identifiers from `first` on again. -/
def restart (r : Roster) (first : Nat) : Roster := { r with nextId := first }

inductive Step (m : Nat) : Roster → Roster → Prop where
  | allocate (r : Roster) : Step m r { r with nextId := r.nextId + 1 }
  | spawnMapped (r : Roster) (n : NetworkId) (hm : m ≤ n.val) (hn : n.val < r.nextId)
      (hfree : ∀ e, ¬ r.bimap.Rel n e) :
      Step m r { r with
        cards := Function.update r.cards ⟨r.nextEntity⟩ (some (networkedCard n))
        nextEntity := r.nextEntity + 1
        bimap := r.bimap.insert n ⟨r.nextEntity⟩ }
  | spawnTracker (r : Roster) :
      Step m r { r with
        cards := Function.update r.cards ⟨r.nextEntity⟩ (some trackerCard)
        nextEntity := r.nextEntity + 1 }
  | own (r : Roster) (n : NetworkId) (e : Entity) (c : ClientId) (card : Card)
      (hrel : r.bimap.Rel n e) (hcard : r.cards e = some card) (hm : m ≤ n.val)
      (hsession : card.session = false) :
      Step m r { r with
        cards := Function.update r.cards e (some { card with owner := some c })
        owners := Function.update r.owners n (some c) }
  | cacheOwner (r : Roster) (n : NetworkId) (e : Entity) (c : ClientId) (card : Card)
      (hrel : r.bimap.Rel n e) (hcard : r.cards e = some card) (howner : card.owner = some c) :
      Step m r { r with owners := Function.update r.owners n (some c) }
  | despawnMapped (r : Roster) (n : NetworkId) (e : Entity) (hrel : r.bimap.Rel n e) :
      Step m r { r with
        cards := Function.update r.cards e none
        bimap := r.bimap.removeByLeft n
        owners := Function.update r.owners n none }
  | despawnTracker (r : Roster) (e : Entity) (card : Card) (hcard : r.cards e = some card)
      (htracker : card.tracker = true) :
      Step m r { r with cards := Function.update r.cards e none }
  | despawnUnmapped (r : Roster) (e : Entity) (hfree : ∀ n, ¬ r.bimap.Rel n e) :
      Step m r { r with cards := Function.update r.cards e none }

abbrev Steps (m : Nat) : Roster → Roster → Prop := ReflTransGen (Step m)

variable {c : ClientId} {card : Card} {e : Entity} {m m' : Nat} {n : NetworkId} {r r' : Roster}

theorem Step.mono (hle : m ≤ m') (h : Step m' r r') : Step m r r' := by
  cases h with
  | allocate => exact .allocate r
  | spawnMapped n hm hn hfree => exact .spawnMapped r n (Nat.le_trans hle hm) hn hfree
  | spawnTracker => exact .spawnTracker r
  | own n e c card hrel hcard hm hs => exact .own r n e c card hrel hcard (Nat.le_trans hle hm) hs
  | cacheOwner n e c card hrel hcard ho => exact .cacheOwner r n e c card hrel hcard ho
  | despawnMapped n e hrel => exact .despawnMapped r n e hrel
  | despawnTracker e card hcard ht => exact .despawnTracker r e card hcard ht
  | despawnUnmapped e hfree => exact .despawnUnmapped r e hfree

theorem Steps.mono (hle : m ≤ m') (h : Steps m' r r') : Steps m r r' :=
  ReflTransGen.mono (fun _ _ => Step.mono hle) _ _ h

/-! ## Counters -/

/-- Identifiers and handles in use lie below the counters. -/
structure Bounded (r : Roster) : Prop where
  ids : ∀ n e, r.bimap.Rel n e → n.val < r.nextId
  ents : ∀ n e, r.bimap.Rel n e → e.id < r.nextEntity
  cards : ∀ e, r.cards e ≠ none → e.id < r.nextEntity

theorem Bounded.fresh_ent (h : Bounded r) (n : NetworkId) : ¬ r.bimap.Rel n ⟨r.nextEntity⟩ :=
  fun hrel => Nat.lt_irrefl _ (h.ents _ _ hrel)

theorem Bounded.ne_fresh (h : Bounded r) (hrel : r.bimap.Rel n e) : e ≠ ⟨r.nextEntity⟩ :=
  fun he => h.fresh_ent n (he ▸ hrel)

theorem bounded_step (h : Step m r r') (hb : Bounded r) : Bounded r' := by
  obtain ⟨hids, hents, hcards⟩ := hb
  cases h with
  | allocate => exact ⟨fun n e h => Nat.lt_succ_of_lt (hids n e h), hents, hcards⟩
  | spawnMapped n hm hn hfree =>
    refine ⟨fun n' e h => ?_, fun n' e h => ?_, fun e h => ?_⟩
    · rcases BiMap.rel_insert.mp h with ⟨rfl, -⟩ | ⟨hrel, -, -⟩
      · exact hn
      · exact hids n' e hrel
    · rcases BiMap.rel_insert.mp h with ⟨-, rfl⟩ | ⟨hrel, -, -⟩
      · exact Nat.lt_succ_self _
      · exact Nat.lt_succ_of_lt (hents n' e hrel)
    · rcases ne_none_of_update h with rfl | h
      · exact Nat.lt_succ_self _
      · exact Nat.lt_succ_of_lt (hcards e h)
  | spawnTracker =>
    refine ⟨hids, fun n e h => Nat.lt_succ_of_lt (hents n e h), fun e h => ?_⟩
    rcases ne_none_of_update h with rfl | h
    · exact Nat.lt_succ_self _
    · exact Nat.lt_succ_of_lt (hcards e h)
  | own n e c card hrel =>
    refine ⟨hids, hents, fun e' h => ?_⟩
    rcases ne_none_of_update h with rfl | h
    · exact hents n e' hrel
    · exact hcards e' h
  | cacheOwner => exact ⟨hids, hents, hcards⟩
  | despawnMapped n e hrel =>
    refine ⟨fun n' e' h => hids n' e' (BiMap.rel_removeByLeft.mp h).1,
      fun n' e' h => hents n' e' (BiMap.rel_removeByLeft.mp h).1, fun e' h => ?_⟩
    rcases ne_none_of_update h with rfl | h
    · exact hents n e' hrel
    · exact hcards e' h
  | despawnTracker e card hcard =>
    refine ⟨hids, hents, fun e' h => ?_⟩
    obtain ⟨card', hcard'⟩ := Option.ne_none_iff_exists'.mp h
    exact hcards e' (by simp [of_update_none hcard'])
  | despawnUnmapped e =>
    refine ⟨hids, hents, fun e' h => ?_⟩
    obtain ⟨card', hcard'⟩ := Option.ne_none_iff_exists'.mp h
    exact hcards e' (by simp [of_update_none hcard'])

theorem bounded_steps (h : Steps m r r') (hb : Bounded r) : Bounded r' := by
  induction h with
  | refl => exact hb
  | tail _ hstep ih => exact bounded_step hstep ih

/-- Handles are not used again. -/
theorem gone_step (h : Step m r r') (hknown : e.id < r.nextEntity) (hgone : r.cards e = none) :
    e.id < r'.nextEntity ∧ r'.cards e = none := by
  have hfresh : e ≠ ⟨r.nextEntity⟩ := fun heq => by
    rw [heq] at hknown
    exact Nat.lt_irrefl _ hknown
  cases h with
  | allocate => exact ⟨hknown, hgone⟩
  | spawnMapped n => exact ⟨Nat.lt_succ_of_lt hknown, (update_of_ne hfresh _ _).trans hgone⟩
  | spawnTracker => exact ⟨Nat.lt_succ_of_lt hknown, (update_of_ne hfresh _ _).trans hgone⟩
  | own n e' c card hrel hcard =>
    have hne : e ≠ e' := fun heq => by simp [← heq, hgone] at hcard
    exact ⟨hknown, (update_of_ne hne _ _).trans hgone⟩
  | cacheOwner => exact ⟨hknown, hgone⟩
  | despawnMapped n e' => exact ⟨hknown, by simp [update_apply, hgone]⟩
  | despawnTracker e' => exact ⟨hknown, by simp [update_apply, hgone]⟩
  | despawnUnmapped e' => exact ⟨hknown, by simp [update_apply, hgone]⟩

theorem gone_steps (h : Steps m r r') (hknown : e.id < r.nextEntity) (hgone : r.cards e = none) :
    e.id < r'.nextEntity ∧ r'.cards e = none := by
  induction h with
  | refl => exact ⟨hknown, hgone⟩
  | tail _ hstep ih => exact gone_step hstep ih.1 ih.2

theorem nextId_le_step (h : Step m r r') : r.nextId ≤ r'.nextId := by
  cases h with
  | allocate => exact Nat.le_succ _
  | _ => exact Nat.le_refl _

theorem nextId_le_steps (h : Steps m r r') : r.nextId ≤ r'.nextId := by
  induction h with
  | refl => exact Nat.le_refl _
  | tail _ hstep ih => exact Nat.le_trans ih (nextId_le_step hstep)

/-- Pairs with an identifier below `m` only disappear. -/
theorem rel_of_step (h : Step m r r')
    (hn : n.val < m) (hrel : r'.bimap.Rel n e) : r.bimap.Rel n e := by
  cases h with
  | spawnMapped n' hm hn' hfree =>
    rcases BiMap.rel_insert.mp hrel with ⟨rfl, -⟩ | ⟨hold, -, -⟩
    · omega
    · exact hold
  | despawnMapped n' e' hrel' => exact (BiMap.rel_removeByLeft.mp hrel).1
  | _ => exact hrel

theorem rel_of_steps (h : Steps m r r')
    (hn : n.val < m) (hrel : r'.bimap.Rel n e) : r.bimap.Rel n e := by
  induction h with
  | refl => exact hrel
  | tail _ hstep ih => exact ih (rel_of_step hstep hn hrel)

/-! ## The owner cache -/

/-- A cached owner belongs to a mapped entity and is its owner as long as the entity lives. -/
def Cached (r : Roster) : Prop :=
  ∀ n c, r.owners n = some c →
    ∃ e, r.bimap.Rel n e ∧ ∀ card, r.cards e = some card → card.owner = some c

theorem cached_step (h : Step m r r') (hb : Bounded r) (hc : Cached r) : Cached r' := by
  intro n c hn
  -- a step that touches the card of another entity cannot matter: the map is injective
  cases h with
  | allocate => exact hc n c hn
  | spawnMapped n' hm hn' hfree =>
    dsimp only at hn ⊢
    obtain ⟨e, hrel, hcard⟩ := hc n c hn
    have hne : n ≠ n' := fun h => hfree e (h ▸ hrel)
    have hfresh := hb.ne_fresh hrel
    refine ⟨e, BiMap.rel_insert.mpr (Or.inr ⟨hrel, hne, hfresh⟩), ?_⟩
    rwa [update_of_ne hfresh]
  | spawnTracker =>
    dsimp only at hn ⊢
    obtain ⟨e, hrel, hcard⟩ := hc n c hn
    refine ⟨e, hrel, ?_⟩
    rwa [update_of_ne (hb.ne_fresh hrel)]
  | own n' e' c' card' hrel' hcard' hm hs =>
    dsimp only at hn ⊢
    by_cases hne : n = n'
    · subst hne
      rw [update_self] at hn
      -- card and cache are written together
      refine ⟨e', hrel', fun card hcard => ?_⟩
      rw [update_self] at hcard
      rw [← Option.some.inj hcard]
      exact hn
    · rw [update_of_ne hne] at hn
      obtain ⟨e, hrel, hcard⟩ := hc n c hn
      refine ⟨e, hrel, ?_⟩
      rwa [update_of_ne (hrel.right_ne hrel' hne)]
  | cacheOwner n' e' c' card' hrel' hcard' howner' =>
    dsimp only at hn ⊢
    by_cases hne : n = n'
    · subst hne
      rw [update_self] at hn
      refine ⟨e', hrel', fun card hcard => ?_⟩
      -- the cache is filled from the card
      rw [← Option.some.inj (hcard'.symm.trans hcard), howner', hn]
    · rw [update_of_ne hne] at hn
      exact hc n c hn
  | despawnMapped n' e' hrel' =>
    dsimp only at hn ⊢
    have hne := ne_of_update_none hn
    obtain ⟨e, hrel, hcard⟩ := hc n c (of_update_none hn)
    refine ⟨e, BiMap.rel_removeByLeft.mpr ⟨hrel, hne⟩, ?_⟩
    rwa [update_of_ne (hrel.right_ne hrel' hne)]
  | despawnTracker e' =>
    obtain ⟨e, hrel, hcard⟩ := hc n c hn
    exact ⟨e, hrel, fun card h => hcard card (of_update_none h)⟩
  | despawnUnmapped e' =>
    obtain ⟨e, hrel, hcard⟩ := hc n c hn
    exact ⟨e, hrel, fun card h => hcard card (of_update_none h)⟩

theorem cached_steps (h : Steps m r r') (hb : Bounded r) (hc : Cached r) : Cached r' := by
  induction h with
  | refl => exact hc
  | tail hprev hstep ih => exact cached_step hstep (bounded_steps hprev hb) ih

/-! ## Coherence -/

/-- The stores agree: the map is the `Networked` component, trackers have no identifier, session
agents have one, and a cached owner is the owner. -/
structure Coherent (r : Roster) : Prop extends Bounded r where
  mapped : ∀ n e, r.bimap.Rel n e ↔ ∃ card, r.cards e = some card ∧ card.networked = some n
  trackers : ∀ e card, r.cards e = some card → card.tracker = true → card.networked = none
  sessions : ∀ e card, r.cards e = some card → card.session = true → card.networked ≠ none
  cached : ∀ n c, r.owners n = some c →
    ∃ e card, r.bimap.Rel n e ∧ r.cards e = some card ∧ card.owner = some c

theorem Coherent.card_of_rel (h : Coherent r)
    (hrel : r.bimap.Rel n e) : ∃ card, r.cards e = some card ∧ card.networked = some n :=
  (h.mapped n e).mp hrel

theorem coherent_spawnMapped (h : Coherent r) (n : NetworkId) (hn : n.val < r.nextId)
    (hfree : ∀ e, ¬ r.bimap.Rel n e) :
    Coherent { r with
      cards := update r.cards ⟨r.nextEntity⟩ (some (networkedCard n))
      nextEntity := r.nextEntity + 1
      bimap := r.bimap.insert n ⟨r.nextEntity⟩ } where
  toBounded := bounded_step (.spawnMapped (m := 0) r n (Nat.zero_le _) hn hfree) h.toBounded
  mapped n' e := by
    dsimp only
    -- neither the identifier nor the handle is in use, so no pair is displaced
    rw [BiMap.rel_insert_fresh hfree h.fresh_ent]
    by_cases he : e = ⟨r.nextEntity⟩
    · subst he
      rw [update_self]
      constructor
      · rintro (⟨rfl, -⟩ | hrel)
        · exact ⟨_, rfl, rfl⟩
        · exact absurd hrel (h.fresh_ent n')
      · rintro ⟨card, hcard, hnet⟩
        rw [← Option.some.inj hcard] at hnet
        exact Or.inl ⟨(Option.some.inj hnet).symm, rfl⟩
    · rw [update_of_ne he, ← h.mapped n' e]
      exact ⟨fun hor => hor.resolve_left fun hand => he hand.2, Or.inr⟩
  trackers e card hcard ht := by
    rcases of_update_some hcard with ⟨-, rfl⟩ | ⟨-, hold⟩
    · cases ht
    · exact h.trackers e card hold ht
  sessions e card hcard hs := by
    rcases of_update_some hcard with ⟨-, rfl⟩ | ⟨-, hold⟩
    · cases hs
    · exact h.sessions e card hold hs
  cached n' c hc := by
    obtain ⟨e, card, hrel, hcard, howner⟩ := h.cached n' c hc
    refine ⟨e, card, (BiMap.rel_insert_fresh hfree h.fresh_ent).mpr (Or.inr hrel), ?_, howner⟩
    dsimp only
    rwa [update_of_ne (h.ne_fresh hrel)]

theorem coherent_spawnTracker (h : Coherent r) : Coherent { r with
      cards := update r.cards ⟨r.nextEntity⟩ (some trackerCard)
      nextEntity := r.nextEntity + 1 } where
  toBounded := bounded_step (.spawnTracker (m := 0) r) h.toBounded
  mapped n e := by
    dsimp only
    by_cases he : e = ⟨r.nextEntity⟩
    · subst he
      rw [update_self]
      refine ⟨fun hrel => absurd hrel (h.fresh_ent n), ?_⟩
      rintro ⟨card, hcard, hnet⟩
      rw [← Option.some.inj hcard] at hnet
      cases hnet
    · rw [update_of_ne he]
      exact h.mapped n e
  trackers e card hcard ht := by
    rcases of_update_some hcard with ⟨-, rfl⟩ | ⟨-, hold⟩
    · rfl
    · exact h.trackers e card hold ht
  sessions e card hcard hs := by
    rcases of_update_some hcard with ⟨-, rfl⟩ | ⟨-, hold⟩
    · cases hs
    · exact h.sessions e card hold hs
  cached n c hc := by
    obtain ⟨e, card, hrel, hcard, howner⟩ := h.cached n c hc
    refine ⟨e, card, hrel, ?_, howner⟩
    dsimp only
    rwa [update_of_ne (h.ne_fresh hrel)]

/-- Replacing a card by one with the same identifier and tracker flag, when the cache agrees with
the new owner. -/
theorem coherent_replace (h : Coherent r) {new : Card}
    {owners : NetworkId → Option ClientId} (hcard : r.cards e = some card)
    (hnet : new.networked = card.networked) (htracker : new.tracker = card.tracker)
    (hsession : new.session = true → new.networked ≠ none)
    (hcached : ∀ n c, owners n = some c →
      ∃ e' card', r.bimap.Rel n e' ∧ update r.cards e (some new) e' = some card' ∧
        card'.owner = some c) :
    Coherent { r with cards := update r.cards e (some new), owners := owners } where
  ids := h.ids
  ents := h.ents
  cards e' h' := by
    rcases ne_none_of_update h' with rfl | hold
    · exact h.cards e' (by simp [hcard])
    · exact h.cards e' hold
  mapped n e' := by
    dsimp only
    rw [h.mapped n e']
    by_cases he : e' = e
    · subst he
      rw [update_self, hcard]
      simp only [Option.some.injEq, exists_eq_left', hnet]
    · rw [update_of_ne he]
  trackers e' card' hcard' ht := by
    rcases of_update_some hcard' with ⟨-, rfl⟩ | ⟨-, hold⟩
    · rw [hnet]
      exact h.trackers e card hcard (htracker ▸ ht)
    · exact h.trackers e' card' hold ht
  sessions e' card' hcard' hs := by
    rcases of_update_some hcard' with ⟨-, rfl⟩ | ⟨-, hold⟩
    · exact hsession hs
    · exact h.sessions e' card' hold hs
  cached := hcached

/-- Removing an entity together with its pair and its cache entry. -/
theorem coherent_despawnMapped (h : Coherent r) (hrel : r.bimap.Rel n e) : Coherent { r with
      cards := update r.cards e none
      bimap := r.bimap.removeByLeft n
      owners := update r.owners n none } where
  toBounded := bounded_step (.despawnMapped (m := 0) r n e hrel) h.toBounded
  mapped n' e' := by
    dsimp only
    rw [BiMap.rel_removeByLeft]
    by_cases he : e' = e
    · subst he
      rw [update_self]
      refine ⟨fun hand => absurd (hand.1.left_unique hrel) hand.2, ?_⟩
      rintro ⟨card, hcard, -⟩
      cases hcard
    · rw [update_of_ne he, ← h.mapped n' e']
      refine ⟨fun hand => hand.1, fun hrel' => ⟨hrel', ?_⟩⟩
      rintro rfl
      exact he (hrel'.right_unique hrel)
  trackers e' card hcard ht := h.trackers e' card (of_update_none hcard) ht
  sessions e' card hcard hs := h.sessions e' card (of_update_none hcard) hs
  cached n' c hc := by
    dsimp only at hc ⊢
    have hne := ne_of_update_none hc
    obtain ⟨e', card, hrel', hcard, howner⟩ := h.cached n' c (of_update_none hc)
    refine ⟨e', card, BiMap.rel_removeByLeft.mpr ⟨hrel', hne⟩, ?_, howner⟩
    rwa [update_of_ne (hrel'.right_ne hrel hne)]

/-- Removing an entity without an identifier. -/
theorem coherent_despawnUnmapped (h : Coherent r) (hfree : ∀ n, ¬ r.bimap.Rel n e) :
    Coherent { r with cards := update r.cards e none } where
  toBounded := bounded_step (.despawnUnmapped (m := 0) r e hfree) h.toBounded
  mapped n e' := by
    dsimp only
    by_cases he : e' = e
    · subst he
      rw [update_self]
      refine ⟨fun hrel => absurd hrel (hfree n), ?_⟩
      rintro ⟨card, hcard, -⟩
      cases hcard
    · rw [update_of_ne he]
      exact h.mapped n e'
  trackers e' card hcard ht := h.trackers e' card (of_update_none hcard) ht
  sessions e' card hcard hs := h.sessions e' card (of_update_none hcard) hs
  cached n c hc := by
    obtain ⟨e', card, hrel, hcard, howner⟩ := h.cached n c hc
    refine ⟨e', card, hrel, ?_, howner⟩
    dsimp only
    have hne : e' ≠ e := fun he => hfree n (he ▸ hrel)
    rwa [update_of_ne hne]

theorem Coherent.not_rel_of_tracker (h : Coherent r)
    (hcard : r.cards e = some card) (ht : card.tracker = true) (n : NetworkId) :
    ¬ r.bimap.Rel n e := by
  intro hrel
  obtain ⟨card', hcard', hnet⟩ := h.card_of_rel hrel
  rw [hcard] at hcard'
  rw [← Option.some.inj hcard', h.trackers e card hcard ht] at hnet
  cases hnet

theorem coherent_step (hstep : Step m r r') (h : Coherent r) : Coherent r' := by
  cases hstep with
  | allocate =>
    exact ⟨bounded_step (.allocate (m := m) r) h.toBounded, h.mapped, h.trackers, h.sessions,
      h.cached⟩
  | spawnMapped n hm hn hfree => exact coherent_spawnMapped h n hn hfree
  | spawnTracker => exact coherent_spawnTracker h
  | own n e c card hrel hcard hm hsession =>
    -- a session agent never gets another owner
    refine coherent_replace h hcard rfl rfl (fun hs => ?_) fun n' c' hc' => ?_
    · rw [show card.session = true from hs] at hsession
      cases hsession
    · by_cases hne : n' = n
      · subst hne
        rw [update_self] at hc'
        exact ⟨e, _, hrel, update_self .., hc'⟩
      · rw [update_of_ne hne] at hc'
        obtain ⟨e', card', hrel', hcard', howner'⟩ := h.cached n' c' hc'
        refine ⟨e', card', hrel', ?_, howner'⟩
        rwa [update_of_ne (hrel'.right_ne hrel hne)]
  | cacheOwner n e c card hrel hcard howner =>
    refine ⟨⟨h.ids, h.ents, h.cards⟩, h.mapped, h.trackers, h.sessions, fun n' c' hc' => ?_⟩
    dsimp only at hc' ⊢
    by_cases hne : n' = n
    · subst hne
      rw [update_self] at hc'
      exact ⟨e, card, hrel, hcard, howner.trans hc'⟩
    · rw [update_of_ne hne] at hc'
      exact h.cached n' c' hc'
  | despawnMapped n e hrel => exact coherent_despawnMapped h hrel
  | despawnTracker e card hcard ht =>
    exact coherent_despawnUnmapped h (h.not_rel_of_tracker hcard ht)
  | despawnUnmapped e hfree => exact coherent_despawnUnmapped h hfree

theorem coherent_steps (hsteps : Steps m r r') (h : Coherent r) : Coherent r' := by
  induction hsteps with
  | refl => exact h
  | tail _ hstep ih => exact coherent_step hstep ih

/-! ## Marks and restarts -/

theorem bounded_mark (hb : Bounded r)
    (hcard : r.cards e = some card) : Bounded (r.mark e card) := by
  refine ⟨hb.ids, hb.ents, fun e' h => ?_⟩
  rcases ne_none_of_update h with rfl | hold
  · exact hb.cards e' (by simp [hcard])
  · exact hb.cards e' hold

theorem cached_mark (hc : Cached r) (hcard : r.cards e = some card) : Cached (r.mark e card) := by
  intro n c hn
  obtain ⟨e', hrel, howner⟩ := hc n c hn
  refine ⟨e', hrel, fun card' hcard' => ?_⟩
  rcases of_update_some hcard' with ⟨rfl, rfl⟩ | ⟨-, hold⟩
  · exact howner card hcard
  · exact howner card' hold

theorem coherent_mark (h : Coherent r)
    (hcard : r.cards e = some card) (hnet : card.networked = some n) :
    Coherent (r.mark e card) := by
  refine coherent_replace h hcard rfl rfl (fun _ => by simp [hnet]) fun n' c hc => ?_
  obtain ⟨e', card', hrel', hcard', howner'⟩ := h.cached n' c hc
  by_cases he : e' = e
  · subst he
    rw [hcard] at hcard'
    obtain rfl := Option.some.inj hcard'
    exact ⟨e', _, hrel', update_self .., howner'⟩
  · exact ⟨e', card', hrel', (update_of_ne he ..).trans hcard', howner'⟩

section Restart

variable {r : Roster} (hempty : ∀ n e, ¬ r.bimap.Rel n e) (first : Nat)
include hempty

theorem bounded_restart (hb : Bounded r) : Bounded (r.restart first) :=
  ⟨fun n e hrel => absurd hrel (hempty n e), hb.ents, hb.cards⟩

theorem coherent_restart (h : Coherent r) : Coherent (r.restart first) :=
  ⟨bounded_restart hempty first h.toBounded, h.mapped, h.trackers, h.sessions, h.cached⟩

end Restart

/-! ## No strays -/

/-- Every live entity has an identifier or counts down to a respawn. -/
def Full (r : Roster) : Prop :=
  ∀ e card, r.cards e = some card → card.networked ≠ none ∨ card.tracker = true

theorem full_step (hstep : Step m r r') (h : Full r) : Full r' := by
  intro e card hcard
  cases hstep with
  | allocate => exact h e card hcard
  | cacheOwner => exact h e card hcard
  | spawnMapped n =>
    rcases of_update_some hcard with ⟨-, rfl⟩ | ⟨-, hold⟩
    · exact .inl nofun
    · exact h e card hold
  | spawnTracker =>
    rcases of_update_some hcard with ⟨-, rfl⟩ | ⟨-, hold⟩
    · exact .inr rfl
    · exact h e card hold
  | own n e' c card' hrel hcard' =>
    rcases of_update_some hcard with ⟨-, rfl⟩ | ⟨-, hold⟩
    · exact h e' card' hcard'
    · exact h e card hold
  | despawnMapped n e' => exact h e card (of_update_none hcard)
  | despawnTracker e' => exact h e card (of_update_none hcard)
  | despawnUnmapped e' => exact h e card (of_update_none hcard)

theorem full_steps (hsteps : Steps m r r') (h : Full r) : Full r' := by
  induction hsteps with
  | refl => exact h
  | tail _ hstep ih => exact full_step hstep ih

theorem full_mark (h : Full r) (hcard : r.cards e = some card) : Full (r.mark e card) := by
  intro e' card' hcard'
  rcases of_update_some hcard' with ⟨-, rfl⟩ | ⟨-, hold⟩
  · exact h e card hcard
  · exact h e' card' hold

/-! ## Session agents -/

/-- `e` is a session agent of `c` under the identifier `n`. -/
def IsAgent (r : Roster) (e : Entity) (c : ClientId) (n : NetworkId) : Prop :=
  ∃ card, r.cards e = some card ∧ card.session = true ∧ card.owner = some c ∧
    card.networked = some n

theorem Coherent.rel_of_isAgent (h : Coherent r) (hagent : IsAgent r e c n) : r.bimap.Rel n e := by
  obtain ⟨card, hcard, -, -, hnet⟩ := hagent
  exact (h.mapped n e).mpr ⟨card, hcard, hnet⟩

/-- No step makes a session agent. -/
theorem isAgent_of_step (hstep : Step m r r') (h : IsAgent r' e c n) : IsAgent r e c n := by
  obtain ⟨card, hcard, hs, howner, hnet⟩ := h
  cases hstep with
  | allocate => exact ⟨card, hcard, hs, howner, hnet⟩
  | cacheOwner => exact ⟨card, hcard, hs, howner, hnet⟩
  | spawnMapped n' =>
    rcases of_update_some hcard with ⟨-, rfl⟩ | ⟨-, hold⟩
    · cases hs
    · exact ⟨card, hold, hs, howner, hnet⟩
  | spawnTracker =>
    rcases of_update_some hcard with ⟨-, rfl⟩ | ⟨-, hold⟩
    · cases hs
    · exact ⟨card, hold, hs, howner, hnet⟩
  | own n' e' c' card' hrel' hcard' hm hsession =>
    rcases of_update_some hcard with ⟨-, rfl⟩ | ⟨-, hold⟩
    · rw [show card'.session = true from hs] at hsession
      cases hsession
    · exact ⟨card, hold, hs, howner, hnet⟩
  | despawnMapped n' e' => exact ⟨card, of_update_none hcard, hs, howner, hnet⟩
  | despawnTracker e' => exact ⟨card, of_update_none hcard, hs, howner, hnet⟩
  | despawnUnmapped e' => exact ⟨card, of_update_none hcard, hs, howner, hnet⟩

theorem isAgent_of_steps (hsteps : Steps m r r') (h : IsAgent r' e c n) : IsAgent r e c n := by
  induction hsteps with
  | refl => exact h
  | tail _ hstep ih => exact ih (isAgent_of_step hstep h)

/-- The mark makes one session agent. -/
theorem isAgent_of_mark {e' : Entity} (h : IsAgent (r.mark e card) e' c n) :
    (e' = e ∧ card.owner = some c ∧ card.networked = some n) ∨ IsAgent r e' c n := by
  obtain ⟨card', hcard', hs, howner, hnet⟩ := h
  rcases of_update_some hcard' with ⟨rfl, rfl⟩ | ⟨-, hold⟩
  · exact Or.inl ⟨rfl, howner, hnet⟩
  · exact Or.inr ⟨card', hold, hs, howner, hnet⟩

/-- Whatever is mapped to `n` is a session agent of `c`. -/
def AgentOrGone (r : Roster) (n : NetworkId) (c : ClientId) : Prop :=
  ∀ e, r.bimap.Rel n e →
    ∃ card, r.cards e = some card ∧ card.session = true ∧ card.owner = some c

/-- Steps that only hand out identifiers above `n` keep what is mapped to `n`, or remove it. -/
theorem agentOrGone_step (hstep : Step m r r') (h : Coherent r) (hn : n.val < m)
    (ha : AgentOrGone r n c) :
    AgentOrGone r' n c := by
  intro e hrel
  have hold := rel_of_step hstep hn hrel
  obtain ⟨card, hcard, hrest⟩ := ha e hold
  -- it remains to see that the step did not touch the card of `e`
  refine ⟨card, ?_, hrest⟩
  cases hstep with
  | allocate => exact hcard
  | cacheOwner => exact hcard
  | spawnMapped n' => exact (update_of_ne (h.ne_fresh hold) ..).trans hcard
  | spawnTracker => exact (update_of_ne (h.ne_fresh hold) ..).trans hcard
  | own n' e' c' card' hrel' hcard' hm =>
    -- only identifiers from `m` on get an owner, and `n` is below
    have hne : n ≠ n' := fun heq => by rw [heq] at hn; omega
    exact (update_of_ne (hold.right_ne hrel' hne) ..).trans hcard
  | despawnMapped n' e' hrel' =>
    have hne := (BiMap.rel_removeByLeft.mp hrel).2
    exact (update_of_ne (hold.right_ne hrel' hne) ..).trans hcard
  | despawnTracker e' card' hcard' ht =>
    have hne : e ≠ e' := fun heq => h.not_rel_of_tracker hcard' ht n (heq ▸ hold)
    exact (update_of_ne hne ..).trans hcard
  | despawnUnmapped e' hfree =>
    have hne : e ≠ e' := fun heq => hfree n (heq ▸ hold)
    exact (update_of_ne hne ..).trans hcard

theorem agentOrGone_steps (hsteps : Steps m r r') (h : Coherent r) (hn : n.val < m)
    (ha : AgentOrGone r n c) :
    AgentOrGone r' n c := by
  induction hsteps with
  | refl => exact ha
  | tail hprev hstep ih => exact agentOrGone_step hstep (coherent_steps hprev h) hn ih

theorem agentOrGone_mark (ha : AgentOrGone r n c) (hcard : r.cards e = some card) :
    AgentOrGone (r.mark e card) n c := by
  intro e' hrel
  obtain ⟨card', hcard', hs, howner⟩ := ha e' hrel
  by_cases he : e' = e
  · subst he
    rw [hcard] at hcard'
    obtain rfl := Option.some.inj hcard'
    exact ⟨_, update_self .., rfl, howner⟩
  · exact ⟨card', (update_of_ne he ..).trans hcard', hs, howner⟩

theorem agentOrGone_marked
    (hrel : r.bimap.Rel n e) (howner : card.owner = some c) : AgentOrGone (r.mark e card) n c := by
  intro e' hrel'
  rw [hrel'.right_unique hrel]
  exact ⟨_, update_self .., rfl, howner⟩

end Roster

end Aetheris
