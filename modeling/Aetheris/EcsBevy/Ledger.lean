import Aetheris.EcsBevy.Announcements
import Aetheris.EcsBevy.Collection

/-!
# The account of each system

Extraction, collection and beams each change the world, push events of their own, and hand a list of
entities to the step that despawns them. A `Ledger` is the account of such a part of the step: what
it pushes, what it notes for later, and which identifiers leave the map. Accounts compose, and there
is one for each of the three systems.
-/

namespace Aetheris

open Ecs

variable {F : Type}

/-- An event of one of the four kinds: exhaustion, pick-up, termination, despawn. -/
def isAccount : Option ClientId × WireEvent → Bool
  | (_, .entityDespawned _) => true
  | (_, .platformEvent (.resourceExhausted _)) => true
  | (_, .platformEvent (.payloadCollected _ _)) => true
  | (_, .platformEvent (.termination _)) => true
  | _ => false

namespace BevyWorldAdapter

/-! ## The account of a part of the step -/

/-- A part of the step pushes `pushed` and the despawns of `ids`, up to order and to events of other
kinds, and notes `noted`. The entities of `ids` are older than `first`, and exactly they leave the
map. -/
structure Ledger (first : Nat) (pushed noted : Events) (ids : List NetworkId)
    (acc acc' : BevyWorldAdapter F × Events) : Prop where
  moves : Moves acc.1 acc'.1
  pushes : ∃ events, Pushes events acc.1.world acc'.1.world ∧
    (events.filter isAccount).Perm (pushed ++ despawnsOf ids)
  notes : ∃ events, acc'.2 = acc.2 ++ events ∧ events.Perm noted
  nodup : ids.Nodup
  mapped : ∀ n ∈ ids, ∃ e, e.id < first ∧ acc.1.bimap.Rel n e
  stays : ∀ n e, acc.1.bimap.Rel n e → n ∉ ids → acc'.1.bimap.Rel n e
  gone : ∀ n ∈ ids, ∀ e, e.id < first → ¬ acc'.1.bimap.Rel n e

namespace Ledger

variable {first : Nat} {pushed pushed' noted noted' : Events} {ids ids' : List NetworkId}
  {acc acc' acc'' : BevyWorldAdapter F × Events}

theorem trans (h : Ledger first pushed noted ids acc acc')
    (h' : Ledger first pushed' noted' ids' acc' acc'') (hc : acc.1.roster.Coherent)
    (hfirst : first ≤ acc.1.world.ecs.next) :
    Ledger first (pushed ++ pushed') (noted ++ noted') (ids ++ ids') acc acc'' where
  moves := h.moves.trans h'.moves
  pushes := by
    obtain ⟨events, hpush, hperm⟩ := h.pushes
    obtain ⟨events', hpush', hperm'⟩ := h'.pushes
    refine ⟨events ++ events', hpush.trans hpush', ?_⟩
    rw [List.filter_append, despawnsOf, List.map_append]
    refine (hperm.append hperm').trans ?_
    simp only [List.append_assoc]
    refine List.Perm.append_left pushed ?_
    simp only [← List.append_assoc]
    exact List.Perm.append_right _ List.perm_append_comm
  notes := by
    obtain ⟨events, hnoted, hperm⟩ := h.notes
    obtain ⟨events', hnoted', hperm'⟩ := h'.notes
    exact ⟨events ++ events', by rw [hnoted', hnoted, List.append_assoc], hperm.append hperm'⟩
  nodup := by
    refine List.nodup_append.mpr ⟨h.nodup, h'.nodup, ?_⟩
    rintro n hn n' hn' rfl
    obtain ⟨e, he, hrel⟩ := h'.mapped n hn'
    exact h.gone n hn e he hrel
  mapped n hn := by
    rcases List.mem_append.mp hn with hn | hn
    · exact h.mapped n hn
    · obtain ⟨e, he, hrel⟩ := h'.mapped n hn
      exact ⟨e, he, h.moves.rel_of_rel hc (Nat.lt_of_lt_of_le he hfirst) hrel⟩
  stays n e hrel hn := by
    rw [List.mem_append, not_or] at hn
    exact h'.stays n e (h.stays n e hrel hn.1) hn.2
  gone n hn e he hrel := by
    rcases List.mem_append.mp hn with hn | hn
    · have hnext := Nat.lt_of_lt_of_le he (Nat.le_trans hfirst (h.moves.next_le hc))
      exact h.gone n hn e he (h'.moves.rel_of_rel (h.moves.coherent hc) hnext hrel)
    · exact h'.gone n hn e he hrel

/-- A system that changes the world only. -/
theorem of_world {a a' : BevyWorldAdapter F} {events evs : Events} (first : Nat)
    (hmoves : Moves a a') (hbimap : a'.bimap = a.bimap) (hpush : Pushes evs a.world a'.world) :
    Ledger first (evs.filter isAccount) [] [] (a, events) (a', events) where
  moves := hmoves
  pushes := ⟨evs, hpush, by rw [despawnsOf, List.map_nil, List.append_nil]⟩
  notes := ⟨[], (List.append_nil _).symm, List.Perm.refl _⟩
  nodup := List.nodup_nil
  mapped n hn := nomatch hn
  stays n e hrel _ := hbimap ▸ hrel
  gone n hn := nomatch hn

end Ledger

/-! ## A system and the despawns it asks for -/

/-- The identifiers of the listed entities, each once. -/
def idsOf (bimap : BiMap NetworkId Entity) (es : List Entity) : List NetworkId :=
  (es.filterMap bimap.getByRight).dedup

variable {acc : BevyWorldAdapter F × Events} {bimap : BiMap NetworkId Entity} {e : Entity}
  {es : List Entity} {first : Nat} {ids : List NetworkId} {n : NetworkId}

theorem lt_next_of_alive {a : BevyWorldAdapter F} (h : a.roster.Coherent)
    (he : a.world.alive e = true) : e.id < a.world.ecs.next := by
  refine h.toBounded.cards e fun hnone => ?_
  rw [World.card_eq_none.mp hnone] at he
  cases he

theorem mem_exhaustedResources {w : World F} :
    (∃ tracker, (e, n, tracker) ∈ exhaustedResources w bimap) ↔
      bimap.Rel n e ∧ w.has e .transform = true ∧
        ∃ r : Resource, w.get e .resource = some r ∧ r.payloadRemaining = 0 := by
  constructor
  · rintro ⟨tracker, hmem⟩
    obtain ⟨e', -, hsome⟩ := List.mem_filterMap.mp hmem
    split at hsome
    · next resource transform hresource htransform =>
      dsimp only at hsome
      split at hsome
      · next hzero =>
        obtain ⟨n', hn', heq⟩ := Option.map_eq_some_iff.mp hsome
        simp only [Prod.mk.injEq] at heq
        obtain ⟨rfl, rfl, -⟩ := heq
        exact ⟨BiMap.getByRight_eq_some.mp hn', Option.isSome_iff_exists.mpr ⟨_, htransform⟩,
          resource, hresource, hzero⟩
      · cases hsome
    · cases hsome
  · rintro ⟨hrel, htransform, resource, hresource, hzero⟩
    obtain ⟨transform, htransform⟩ := Option.isSome_iff_exists.mp htransform
    change w.get e .transform = some transform at htransform
    have hquery : e ∈ w.query [.resource, .transform] := by
      refine World.mem_query.mpr ⟨Storage.alive_of_get hresource, fun k hk => ?_⟩
      rcases List.mem_pair.mp hk with rfl | rfl
      · exact Option.isSome_iff_exists.mpr ⟨_, hresource⟩
      · exact Option.isSome_iff_exists.mpr ⟨_, htransform⟩
    refine ⟨⟨300, 301, Transform.x transform, Transform.y transform, resource.totalCapacity⟩,
      List.mem_filterMap.mpr ⟨e, hquery, ?_⟩⟩
    simp only [hresource, htransform]
    rw [if_pos hzero, BiMap.getByRight_eq_some.mpr hrel]
    rfl

variable (w : World F)

variable [F32 F]

/-- The identifier and amount a claim announces. -/
def announced (bimap : BiMap NetworkId Entity) (c : Claim) : Option (NetworkId × UInt16) :=
  if 0 < c.amount then (bimap.getByRight c.drop).map fun n => (n, c.amount) else none

/-- A drop is emptied by a claim on all that it holds. -/
theorem mem_emptied {w : World F} {d : Entity} :
    d ∈ (processPayloadCollection w bimap).2 ↔ ∃ c ∈ collectClaims w, c.drop = d ∧ 0 < c.amount ∧
      w.get d .dataDropComponent = some ⟨c.amount⟩ := by
  have hown : ClaimsOwn (collectClaims w) ((w, []) : World F × List Entity).1 := collectClaims_own w
  refine (mem_foldl_applyClaim bimap hown d).trans ?_
  simp

/-- Beams can damage it. -/
def damageable (w : World F) (e : Entity) : Bool :=
  w.has e .priorityPool || w.has e .integrityPool || w.has e .resourceIntegrity

omit [F32 F] in
theorem damageable_of_edits {ks : List Comp} {w w' : World F} (h : Edits ks w w') (e : Entity) :
    damageable w' e = damageable w e := by
  unfold damageable
  rw [h.has, h.has, h.has]

theorem damageable_of_beamHits {w : World F} {b : BeamData F}
    {t : Entity} (h : beamHits w bimap b t = true) : damageable w t = true := by
  unfold beamHits at h
  split at h
  · simp only [Bool.and_eq_true] at h
    exact h.1.1.2
  · cases h

theorem processBeam_lists (bimap : BiMap NetworkId Entity) (acc : BeamAcc F) (b : BeamData F) :
    (∀ e ∈ (processBeam bimap acc b).toDespawn, e ∈ acc.toDespawn ∨ e = b.entity) ∧
      ∀ e ∈ (processBeam bimap acc b).terminations,
        e ∈ acc.terminations ∨ damageable (processBeam bimap acc b).world e = true := by
  have hspent : ∀ e ∈ acc.toDespawn ++ [b.entity], e ∈ acc.toDespawn ∨ e = b.entity := by
    simp
  unfold processBeam
  split
  · exact ⟨hspent, fun _ he => Or.inl he⟩
  · dsimp only
    split
    · next t ht =>
      refine ⟨hspent, fun e he => ?_⟩
      dsimp only at he
      split at he
      · refine (List.mem_append.mp he).imp_right fun he => ?_
        rw [List.mem_singleton.mp he, damageable_of_edits (applyBeamHit_written _ t).edits]
        exact damageable_of_beamHits (List.find?_some ht)
      · exact Or.inl he
    · exact ⟨fun _ he => Or.inl he, fun _ he => Or.inl he⟩

/-- Terminated entities are damageable, and what is spent is a beam. -/
theorem processBeams_lists (bimap : BiMap NetworkId Entity) :
    (∀ e ∈ (processBeams w bimap).2.2, damageable w e = true) ∧
      ∀ e ∈ (processBeams w bimap).2.1, w.has e .beamMarker = true := by
  -- along the beams: the hits change values, not what entities carry
  have hrun : ∀ (bs : List (BeamData F)) (acc : BeamAcc F),
      (∀ b ∈ bs, w.has b.entity .beamMarker = true) →
      (∀ e, damageable acc.world e = damageable w e) →
      (∀ e ∈ acc.terminations, damageable w e = true) →
      (∀ e ∈ acc.toDespawn, w.has e .beamMarker = true) →
      (∀ e ∈ (bs.foldl (processBeam bimap) acc).terminations, damageable w e = true) ∧
        ∀ e ∈ (bs.foldl (processBeam bimap) acc).toDespawn, w.has e .beamMarker = true := by
    intro bs
    induction bs with
    | nil => exact fun _ _ _ hterminations hspent => ⟨hterminations, hspent⟩
    | cons b bs ih =>
      intro acc hbs hworld hterminations hspent
      obtain ⟨hspent', hterminations'⟩ := processBeam_lists bimap acc b
      have hsame : ∀ e, damageable (processBeam bimap acc b).world e = damageable w e := fun e =>
        (damageable_of_edits (processBeam_written bimap acc b).edits e).trans (hworld e)
      refine ih _ (fun b' hb' => hbs b' (List.mem_cons_of_mem b hb')) hsame ?_ ?_
      · intro e he
        rcases hterminations' e he with he | he
        · exact hterminations e he
        · exact (hsame e).symm.trans he
      · intro e he
        rcases hspent' e he with he | rfl
        · exact hspent e he
        · exact hbs b List.mem_cons_self
  have hbeams : ∀ b ∈ beamData w, w.has b.entity .beamMarker = true := by
    intro b hb
    obtain ⟨e, he, hsome⟩ := List.mem_filterMap.mp hb
    split at hsome
    · rw [← Option.some.inj hsome]
      exact (World.mem_query.mp he).2 _ (by decide)
    · cases hsome
  exact hrun (beamData w) ⟨w, [], [], []⟩ hbeams (fun _ => rfl) (by simp) (by simp)

end BevyWorldAdapter

end Aetheris
