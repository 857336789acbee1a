import Aetheris.EcsBevy.Growth
import Aetheris.EcsBevy.Ownership

/-!
# What a simulation step announces

The gameplay systems push some events to the reliable queue themselves, `despawn_networked` pushes
its own, and the step gathers a second list that it appends at the end. This module says what each
part appends (`Pushes`), from the single write up to the step as a whole.

The despawns the systems ask for come as lists that may name an entity twice. Whoever works through
such a list despawns and announces each mapped entity of it once (`Retires`): the second time the
entity is not on the map any more.
-/

namespace Aetheris

open Ecs

variable {F : Type}

/-! ## Appending to the queue -/

/-- `w'` has the queue of `w` with `events` at its end. Without the resource there is no queue. -/
def Pushes (events : List (Option ClientId × WireEvent)) (w w' : World F) : Prop :=
  w'.reliableEvents = w.reliableEvents.map (· ++ events)

namespace Pushes

variable {events events' : List (Option ClientId × WireEvent)} {w w' w'' : World F}

theorem of_eq (h : w'.reliableEvents = w.reliableEvents) : Pushes [] w w' := by
  unfold Pushes
  rw [h]
  cases w.reliableEvents <;> simp

theorem refl (w : World F) : Pushes [] w w := of_eq rfl

theorem of_written {ks : List Comp} (h : Written ks w w') : Pushes [] w w' :=
  of_eq h.reliableEvents

theorem trans (h : Pushes events w w') (h' : Pushes events' w' w'') :
    Pushes (events ++ events') w w'' := by
  unfold Pushes at h h' ⊢
  rw [h', h, Option.map_map]
  simp only [Function.comp_def, List.append_assoc]

theorem push (w : World F) (events : List (Option ClientId × WireEvent)) :
    Pushes events w (w.pushReliable events) := rfl

theorem andSilent (h : Pushes events w w') (h' : Pushes [] w' w'') : Pushes events w w'' :=
  List.append_nil events ▸ h.trans h'

theorem foldl_silent {σ α : Type} (π : σ → World F) {f : σ → α → σ}
    (hf : ∀ s x, Pushes [] (π s) (π (f s x))) (l : List α) (s : σ) :
    Pushes [] (π s) (π (l.foldl f s)) := by
  induction l generalizing s with
  | nil => exact refl _
  | cons x l ih => exact (hf s x).trans (ih (f s x))

end Pushes

namespace BevyWorldAdapter

/-! ## Despawning by identifier -/

variable {a' : BevyWorldAdapter F} {e : Entity} {event : NetworkId → PlatformEvent}
  {f : BevyWorldAdapter F × Events → Entity → BevyWorldAdapter F × Events} {n : NetworkId}

/-- In a coherent adapter whatever is mapped lives, so its despawn is announced. -/
theorem despawnNetworked_pushes {a : BevyWorldAdapter F} (h : a.roster.Coherent)
    (hrel : a.bimap.Rel n e) :
    Pushes [(none, .entityDespawned n)] a.world (a.despawnNetworked n).1.world := by
  obtain ⟨card, hcard, -⟩ := h.card_of_rel hrel
  have halive : a.world.alive e = true := alive_of_card hcard
  unfold despawnNetworked
  simp only [BiMap.getByLeft_eq_some.mpr hrel]
  split
  · rfl
  · next hdead => exact absurd halive hdead

/-! ## Lists of entities to despawn -/

abbrev newsOf (event : NetworkId → PlatformEvent) (ids : List NetworkId) : Events :=
  ids.map fun n => (none, .platformEvent (event n))

abbrev despawnsOf (ids : List NetworkId) : Events := ids.map fun n => (none, .entityDespawned n)

/-- One round despawns the entity by its identifier, after preparations that keep the map and say
nothing, and notes `event`. An entity without an identifier is passed over. -/
structure Retires (event : NetworkId → PlatformEvent)
    (f : BevyWorldAdapter F × Events → Entity → BevyWorldAdapter F × Events) : Prop where
  moves : ∀ acc e, Moves acc.1 (f acc e).1
  mapped : ∀ acc e n, acc.1.bimap.Rel n e → ∃ b, Grows acc.1 b ∧ Pushes [] acc.1.world b.world ∧
    f acc e = ((b.despawnNetworked n).1, acc.2 ++ newsOf event [n])
  unmapped : ∀ acc e, (∀ n, ¬ acc.1.bimap.Rel n e) → (f acc e).1.bimap = acc.1.bimap ∧
    Pushes [] acc.1.world (f acc e).1.world ∧ (f acc e).2 = acc.2

/-- What has become of the list `es`: `ids` are the identifiers that were on it. -/
structure Retired (event : NetworkId → PlatformEvent) (es : List Entity) (ids : List NetworkId)
    (acc acc' : BevyWorldAdapter F × Events) : Prop where
  nodup : ids.Nodup
  mem : ∀ n, n ∈ ids ↔ ∃ e ∈ es, acc.1.bimap.Rel n e
  despawns : Pushes (despawnsOf ids) acc.1.world acc'.1.world
  noted : acc'.2 = acc.2 ++ newsOf event ids
  stays : ∀ n e, acc.1.bimap.Rel n e → e ∉ es → acc'.1.bimap.Rel n e
  gone : ∀ n, ∀ e ∈ es, ¬ acc'.1.bimap.Rel n e

/-- An entity that is not new has the identifier it had. -/
theorem Moves.rel_of_rel {a : BevyWorldAdapter F} (hm : Moves a a') (h : a.roster.Coherent)
    (he : e.id < a.world.ecs.next) (hrel : a'.bimap.Rel n e) :
    a.bimap.Rel n e := by
  have hsteps := hm.steps _ (Nat.le_refl _) h.toBounded
  obtain ⟨card', hcard', hnet'⟩ := (Roster.coherent_steps hsteps h).card_of_rel hrel
  obtain ⟨card, hcard, hnet⟩ := Roster.networked_of_steps hsteps he hcard'
  exact (h.mapped n e).mpr ⟨card, hcard, hnet.trans hnet'⟩

theorem Moves.next_le {a : BevyWorldAdapter F} (hm : Moves a a') (h : a.roster.Coherent) :
    a.world.ecs.next ≤ a'.world.ecs.next :=
  Roster.nextEntity_le_steps (hm.steps _ (Nat.le_refl _) h.toBounded)

/-- Two lists, one after the other. -/
theorem Retired.append {es es' : List Entity}
    {ids ids' : List NetworkId} {acc acc₁ acc₂ : BevyWorldAdapter F × Events}
    (h : Retired event es ids acc acc₁) (h' : Retired event es' ids' acc₁ acc₂)
    (hm : Moves acc.1 acc₁.1) (hm' : Moves acc₁.1 acc₂.1) (hc : acc.1.roster.Coherent)
    (hes : ∀ e ∈ es ++ es', e.id < acc.1.world.ecs.next) :
    Retired event (es ++ es') (ids ++ ids') acc acc₂ := by
  have hold : ∀ e ∈ es', ∀ n, acc₁.1.bimap.Rel n e → acc.1.bimap.Rel n e := fun e he n =>
    hm.rel_of_rel hc (hes e (List.mem_append_right es he))
  have hmem : ∀ n, n ∈ ids ++ ids' ↔ ∃ e ∈ es ++ es', acc.1.bimap.Rel n e := by
    intro n
    rw [List.mem_append, h.mem, h'.mem]
    constructor
    · rintro (⟨e, he, hrel⟩ | ⟨e, he, hrel⟩)
      · exact ⟨e, List.mem_append_left _ he, hrel⟩
      · exact ⟨e, List.mem_append_right _ he, hold e he n hrel⟩
    · rintro ⟨e, he, hrel⟩
      -- an entity on both lists is gone after the first
      by_cases hfirst : e ∈ es
      · exact Or.inl ⟨e, hfirst, hrel⟩
      · have he' : e ∈ es' := (List.mem_append.mp he).resolve_left hfirst
        exact Or.inr ⟨e, he', h.stays n e hrel hfirst⟩
  refine ⟨?_, hmem, ?_, ?_, fun n e hrel he => ?_, fun n e he => ?_⟩
  · refine List.nodup_append.mpr ⟨h.nodup, h'.nodup, ?_⟩
    rintro n hn n' hn' rfl
    obtain ⟨e, he, hrel⟩ := (h.mem n).mp hn
    obtain ⟨e', he', hrel'⟩ := (h'.mem n).mp hn'
    obtain rfl := hrel.right_unique (hold e' he' n hrel')
    exact h.gone n e he hrel'
  · rw [despawnsOf, List.map_append]
    exact h.despawns.trans h'.despawns
  · rw [h'.noted, h.noted, newsOf, newsOf, newsOf, List.map_append, List.append_assoc]
  · rw [List.mem_append, not_or] at he
    exact h'.stays n e (h.stays n e hrel he.1) he.2
  · rcases List.mem_append.mp he with he | he
    · intro hrel
      have hnext := Nat.lt_of_lt_of_le (hes e (List.mem_append_left _ he)) (hm.next_le hc)
      exact h.gone n e he (hm'.rel_of_rel (hm.coherent hc) hnext hrel)
    · exact h'.gone n e he

theorem Retires.round
    (hf : Retires event f) (acc : BevyWorldAdapter F × Events) (h : acc.1.roster.Coherent)
    (he : e.id < acc.1.world.ecs.next) :
    ∃ ids, Retired event [e] ids acc (f acc e) := by
  by_cases hmap : ∃ n, acc.1.bimap.Rel n e
  · obtain ⟨n, hrel⟩ := hmap
    obtain ⟨b, hgrows, hsilent, hround⟩ := hf.mapped acc e n hrel
    have hb := hgrows.rel h.toBounded
    have hpush := hsilent.trans (despawnNetworked_pushes (hgrows.toMoves.coherent h) (hb n e hrel))
    rw [hround]
    refine ⟨[n], List.nodup_singleton n, fun n' => ?_, hpush, rfl, fun n' e' hrel' he' => ?_,
      fun n' e' he' hrel' => ?_⟩
    · simp only [List.mem_singleton, exists_eq_left]
      exact ⟨fun heq => heq ▸ hrel, fun hrel' => hrel'.left_unique hrel⟩
    · refine rel_despawnNetworked.mpr ⟨hb n' e' hrel', fun heq => ?_⟩
      subst heq
      exact he' (List.mem_singleton.mpr (hrel'.right_unique hrel))
    · obtain rfl := List.mem_singleton.mp he'
      obtain ⟨hrelb, hne⟩ := rel_despawnNetworked.mp hrel'
      exact hne ((hgrows.toMoves.rel_of_rel h he hrelb).left_unique hrel)
  · have hfree : ∀ n, ¬ acc.1.bimap.Rel n e := fun n hrel => hmap ⟨n, hrel⟩
    obtain ⟨hbimap, hsilent, hnoted⟩ := hf.unmapped acc e hfree
    refine ⟨[], List.nodup_nil, fun n => ?_, hsilent, ?_, fun n e' hrel _ => hbimap ▸ hrel,
      fun n e' he' => ?_⟩
    · simpa using hfree n
    · rw [hnoted]
      exact (List.append_nil _).symm
    · rw [hbimap, List.mem_singleton.mp he']
      exact hfree n

theorem Retires.foldl (hf : Retires event f) (es : List Entity) (acc : BevyWorldAdapter F × Events)
    (h : acc.1.roster.Coherent) (hes : ∀ e ∈ es, e.id < acc.1.world.ecs.next) :
    ∃ ids, Retired event es ids acc (es.foldl f acc) := by
  induction es generalizing acc with
  | nil => exact ⟨[], List.nodup_nil, by simp, .refl _, by simp, fun _ _ hrel _ => hrel, by simp⟩
  | cons e es ih =>
    have hmoves := hf.moves acc e
    obtain ⟨ids, hfirst⟩ := hf.round acc h (hes e List.mem_cons_self)
    obtain ⟨ids', hrest⟩ := ih (f acc e) (hmoves.coherent h) fun e' he' =>
      Nat.lt_of_lt_of_le (hes e' (List.mem_cons_of_mem e he')) (hmoves.next_le h)
    exact ⟨ids ++ ids', hfirst.append hrest hmoves (Moves.foldl Prod.fst hf.moves es _) h hes⟩

variable [F32 F]

theorem spawnKind_pushes (a : BevyWorldAdapter F) (kind : UInt16) (x y rot : F) :
    Pushes [] a.world (a.spawnKind kind x y rot).1.world :=
  .of_eq (spawnKindFuel_reliableEvents 2 a kind x y rot)

/-- A spawn by kind whose entity is then given other values. -/
theorem spawnKind_edit_grows (ks : List Comp) (a : BevyWorldAdapter F) (kind : UInt16)
    (x y rot : F) {f : Entity → World F → World F} (h : ∀ e w, Written ks w (f e w))
    (hnet : .networked ∉ ks) (howner : .networkOwner ∉ ks)
    (ha' : a' = match (a.spawnKind kind x y rot).1.bimap.getByLeft (a.spawnKind kind x y rot).2 with
      | some e => (a.spawnKind kind x y rot).1.onWorld (f e)
      | none => (a.spawnKind kind x y rot).1) :
    Grows a a' ∧ Pushes [] a.world a'.world := by
  have hgrows := spawnKind_grows a kind x y rot
  have hsilent := spawnKind_pushes a kind x y rot
  generalize a.spawnKind kind x y rot = s at hgrows hsilent ha'
  split at ha'
  · next e _ =>
    subst ha'
    have hedit := onWorld_moves ks s.1 (h e s.1.world).edits hnet howner
    exact ⟨⟨hgrows.toMoves.trans hedit, hgrows.rel⟩, hsilent.andSilent (.of_written (h e s.1.world))⟩
  · subst ha'
    exact ⟨hgrows, hsilent⟩

theorem dropPayload_grows (a : BevyWorldAdapter F) (e : Entity) :
    Grows a (a.dropPayload e) ∧ Pushes [] a.world (a.dropPayload e).world := by
  unfold dropPayload
  split
  · dsimp only
    split
    · exact spawnKind_edit_grows [.dataDropComponent] a _ _ _ _
        (fun drop w => Written.modify w drop (by decide) _) (by decide) (by decide) rfl
    · exact ⟨.refl a, .refl _⟩
  · exact ⟨.refl a, .refl _⟩

theorem terminate_retires : Retires .termination (terminate (F := F)) where
  moves := terminate_moves
  mapped acc e n hrel := by
    obtain ⟨hdrop, hsilent⟩ := dropPayload_grows acc.1 e
    have htracker : Grows (acc.1.dropPayload e) ((acc.1.dropPayload e).spawnReinitTracker e) := by
      refine .of_bimap (spawnReinitTracker_deeds _ e).moves ?_
      unfold spawnReinitTracker
      split <;> rfl
    have hsilent' : Pushes [] (acc.1.dropPayload e).world
        ((acc.1.dropPayload e).spawnReinitTracker e).world := by
      unfold spawnReinitTracker
      split
      · exact .of_eq rfl
      · exact .refl _
    refine ⟨_, hdrop.trans htracker, hsilent.trans hsilent', ?_⟩
    simp only [terminate, BiMap.getByRight_eq_some.mpr hrel]
    rfl
  unmapped acc e hfree := by
    simp only [terminate, BiMap.getByRight_eq_none.mpr hfree]
    exact ⟨trivial, .refl _, trivial⟩

/-! ## After the announcements -/

/-- The map grows and nothing is announced. -/
structure GrowsSilently (a a' : BevyWorldAdapter F) : Prop extends Grows a a' where
  silent : Pushes [] a.world a'.world

namespace GrowsSilently

omit [F32 F]

theorem trans {a b c : BevyWorldAdapter F} (h : GrowsSilently a b) (h' : GrowsSilently b c) :
    GrowsSilently a c :=
  ⟨h.toGrows.trans h'.toGrows, h.silent.trans h'.silent⟩

theorem foldl {α : Type} {f : BevyWorldAdapter F → α → BevyWorldAdapter F}
    (h : ∀ a x, GrowsSilently a (f a x)) (l : List α) (a : BevyWorldAdapter F) :
    GrowsSilently a (l.foldl f a) :=
  ⟨.foldl (fun a x => (h a x).toGrows) l a,
    Pushes.foldl_silent BevyWorldAdapter.world (fun a x => (h a x).silent) l a⟩

theorem of_world {a a' : BevyWorldAdapter F} (hmoves : Moves a a') (hbimap : a'.bimap = a.bimap)
    (hqueue : a'.world.reliableEvents = a.world.reliableEvents) : GrowsSilently a a' :=
  ⟨.of_bimap hmoves hbimap, .of_eq hqueue⟩

end GrowsSilently

variable (a : BevyWorldAdapter F)

/-- The part of the step after the announcements. -/
def aftermath (a : BevyWorldAdapter F) : BevyWorldAdapter F :=
  ((a.spawnBeams.onWorld processRegen).reinitStage.respawnStage).onWorld clampStage

theorem beforeHook_eq (P : Platform F) (a : BevyWorldAdapter F) :
    a.beforeHook P = ((a.motionStage P).gameplayStage P).aftermath := rfl

end BevyWorldAdapter

end Aetheris
