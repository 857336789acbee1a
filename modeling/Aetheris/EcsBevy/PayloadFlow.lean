import Aetheris.EcsBevy.Checked
import Aetheris.EcsBevy.Payload

/-!
# The flow of payload

Payload moves through three systems in the first part of a step: from resources into stores, from
drops into stores, and from the stores of terminated agents into new drops. Each of them works on
lists that were read before, with entities despawned in between. This module follows the payload
through them, up to the end of the beam stage. Only the resources that beams destroy take any of it
with them (`beam_flow`).
-/

namespace Aetheris

open Ecs

variable {F : Type}

/-! ## Extraction -/

variable {acc : World F × List Entity} {c : Claim} {claims : List Claim} {w : World F}

theorem executeTransfer_payload {t : Transfer} (h : t.Ready w) :
    (executeTransfer w t).payload = w.payload := by
  obtain ⟨store, hstore⟩ := Option.isSome_iff_exists.mp h.store
  obtain ⟨resource, hresource⟩ := Option.isSome_iff_exists.mp h.resource
  have hroom := h.room store hstore
  change w.get t.agent .dataStore = some store at hstore
  change w.get t.resource .resource = some resource at hresource
  have hadd : min (min t.amount (Resource.payloadRemaining resource))
      (DataStore.capacity store - DataStore.payloadCount store) ≤ _ := Std.min_le_right
  have hsub : min (min t.amount (Resource.payloadRemaining resource))
      (DataStore.capacity store - DataStore.payloadCount store) ≤
        Resource.payloadRemaining resource :=
    UInt16.le_trans Std.min_le_left Std.min_le_right
  unfold executeTransfer
  simp only [hstore, hresource]
  generalize min (min t.amount (Resource.payloadRemaining resource))
    (DataStore.capacity store - DataStore.payloadCount store) = amount at hadd hsub ⊢
  split
  · have hfill := World.payload_modify hstore fun s : DataStore =>
      { s with payloadCount := s.payloadCount + amount }
    generalize hw' : w.modify t.agent .dataStore (fun s : DataStore =>
      { s with payloadCount := s.payloadCount + amount }) = w' at hfill ⊢
    have hresource' : w'.get t.resource .resource = some resource := by
      rw [← hw', World.get_modify_of_ne _ _ (Or.inr (by decide)), hresource]
    have htake := World.payload_modify hresource' fun r : Resource =>
      { r with payloadRemaining := r.payloadRemaining - amount }
    -- neither the sum nor the difference leaves its counter
    have hsum : (DataStore.payloadCount store + amount).toNat =
        (DataStore.payloadCount store).toNat + amount.toNat := by
      rw [UInt16.toNat_add, Nat.mod_eq_of_lt (add_room_lt hroom hadd)]
    have hrest : (Resource.payloadRemaining resource - amount).toNat =
        (Resource.payloadRemaining resource).toNat - amount.toNat := UInt16.toNat_sub_of_le _ _ hsub
    have hle := UInt16.le_iff_toNat_le.mp hsub
    simp only [payloadOf] at hfill htake
    omega
  · rfl

theorem executeTransfers_payload {transfers : List Transfer}
    (h : ∀ t ∈ transfers, t.Ready w) : (transfers.foldl executeTransfer w).payload = w.payload := by
  induction transfers generalizing w with
  | nil => rfl
  | cons t transfers ih =>
    have hrest : ∀ t' ∈ transfers, t'.Ready (executeTransfer w t) := fun t' ht' =>
      executeTransfer_ready t (h t' (List.mem_cons_of_mem t ht'))
    exact (ih hrest).trans (executeTransfer_payload (h t List.mem_cons_self))

section Extraction

variable [F32 F]

/-- The transfers of one extraction are ready when they start. -/
theorem afterTransfers_ready (w : World F) (bimap : BiMap NetworkId Entity) :
    ∃ (disabled : List Entity) (transfers : List Transfer), (∀ t ∈ transfers, t.Ready w) ∧
      afterTransfers w bimap = transfers.foldl executeTransfer (disabled.foldl disableBeam w) := by
  unfold afterTransfers
  have hattempts := collectAttempt_store w bimap
    (w.query [.extractionBeam, .transform, .dataStore]) ([], []) fun _ hx => (nomatch hx)
  generalize (w.query [.extractionBeam, .transform, .dataStore]).foldl (collectAttempt w bimap)
    ([], []) = read at hattempts ⊢
  have hready := validateAttempt_ready w read.1 hattempts ([], read.2) fun _ ht => (nomatch ht)
  exact ⟨_, _, hready, rfl⟩

theorem afterTransfers_payload (w : World F) (bimap : BiMap NetworkId Entity) :
    (afterTransfers w bimap).payload = w.payload := by
  obtain ⟨disabled, transfers, hready, hshape⟩ := afterTransfers_ready w bimap
  have hdisabled := (disableBeams_written disabled w).edits
  rw [hshape, executeTransfers_payload fun t ht => (hready t ht).of_edits hdisabled (by decide)]
  exact World.payload_of_edits hdisabled (by decide)

/-- Without an active beam nothing is read and nothing changes. -/
theorem afterTransfers_of_dormant {w : World F} (h : Dormant w) (bimap : BiMap NetworkId Entity) :
    afterTransfers w bimap = w := by
  have hskip : ∀ (es : List Entity) (acc : List (ExtractionAttempt F) × List Entity),
      es.foldl (collectAttempt w bimap) acc = acc := by
    intro es
    induction es with
    | nil => exact fun _ => rfl
    | cons e es ih =>
      intro acc
      have hone : collectAttempt w bimap acc e = acc := by
        unfold collectAttempt
        split
        · next beam transform store hbeam _ _ =>
          rw [if_neg]
          rw [(h e).beam beam hbeam]
          exact Bool.false_ne_true
        · rfl
      rw [List.foldl_cons, hone, ih]
  unfold afterTransfers
  rw [hskip]
  rfl

end Extraction

/-! ## Collection -/

theorem takeFromDrop_payload {drop : DataDropComponent}
    (h : w.get c.drop .dataDropComponent = some drop) (hle : c.amount ≤ drop.amount) :
    (takeFromDrop w c).1.payload + c.amount.toNat = w.payload := by
  have hnat := UInt16.le_iff_toNat_le.mp hle
  unfold takeFromDrop
  simp only [h]
  split
  · next hall =>
    have htake := World.payload_modify h fun _ : DataDropComponent => ⟨0⟩
    have hall := UInt16.le_iff_toNat_le.mp hall
    simp only [payloadOf, UInt16.toNat_zero] at htake
    dsimp only
    omega
  · have htake := World.payload_modify h fun d : DataDropComponent => ⟨d.amount - c.amount⟩
    have hrest : (drop.amount - c.amount).toNat = drop.amount.toNat - c.amount.toNat :=
      UInt16.toNat_sub_of_le _ _ hle
    simp only [payloadOf] at htake
    dsimp only
    omega

theorem storePayload_payload
    (hfit : ClaimsFit (c :: claims) w) (hstore : w.has c.agent .dataStore = true) :
    (storePayload w c).payload = w.payload + c.amount.toNat := by
  obtain ⟨store, hstore⟩ := Option.isSome_iff_exists.mp hstore
  change w.get c.agent .dataStore = some store at hstore
  have hfits := hfit c.agent store hstore
  have htotal : claimedTotal (c :: claims) c.agent =
      c.amount.toNat + claimedTotal claims c.agent := by simp [claimedTotal]
  have hsum : (DataStore.payloadCount store + c.amount).toNat =
      (DataStore.payloadCount store).toNat + c.amount.toNat := by
    rw [UInt16.toNat_add, Nat.mod_eq_of_lt (by omega)]
  have hfill := World.payload_modify hstore fun s : DataStore =>
    { s with payloadCount := s.payloadCount + c.amount }
  simp only [payloadOf] at hfill
  unfold storePayload
  omega

theorem applyClaim_payload (bimap : BiMap NetworkId Entity) (hfit : ClaimsFit (c :: claims) acc.1)
    (hown : ClaimsOwn (c :: claims) acc.1) (hstore : acc.1.has c.agent .dataStore = true) :
    (applyClaim bimap acc c).1.payload = acc.1.payload := by
  obtain ⟨drop, hdrop, hle⟩ := hown.holds c List.mem_cons_self
  have hstored := storePayload_payload hfit hstore
  have hdrop' : (storePayload acc.1 c).get c.drop .dataDropComponent = some drop :=
    (World.get_modify_of_ne _ _ (Or.inr (by decide))).trans hdrop
  have htaken := takeFromDrop_payload hdrop' hle
  unfold applyClaim
  split
  · dsimp only
    rw [World.payload_of_edits (announceCollection_edited bimap _ c).edits (by simp)]
    omega
  · rfl

theorem applyClaims_payload (bimap : BiMap NetworkId Entity) (hfit : ClaimsFit claims acc.1)
    (hown : ClaimsOwn claims acc.1)
    (hstores : ∀ c ∈ claims, acc.1.has c.agent .dataStore = true) :
    (claims.foldl (applyClaim bimap) acc).1.payload = acc.1.payload := by
  induction claims generalizing acc with
  | nil => rfl
  | cons c claims ih =>
    have hhas : ∀ e k, (applyClaim bimap acc c).1.has e k = acc.1.has e k :=
      (applyClaim_edited bimap acc c).edits.has
    rw [List.foldl_cons, ih (applyClaim_claimsFit bimap hfit) (hown.tail bimap) fun c' hc' =>
      (hhas _ _).trans (hstores c' (List.mem_cons_of_mem c hc'))]
    exact applyClaim_payload bimap hfit hown (hstores c List.mem_cons_self)

section Collection

variable [F32 F]

variable {c : Claim} {w : World F}

theorem collectClaims_store (h : c ∈ collectClaims w) : w.has c.agent .dataStore = true := by
  obtain ⟨d, -, hof⟩ := List.mem_filterMap.mp h
  obtain ⟨-, drop, store, -, hstore, -⟩ := claimOf_spec hof
  exact Option.isSome_iff_exists.mpr ⟨store, hstore⟩

theorem collection_payload (bimap : BiMap NetworkId Entity) (hfit : ClaimsFit (collectClaims w) w) :
    (processPayloadCollection w bimap).1.payload = w.payload := by
  have hown : ClaimsOwn (collectClaims w) ((w, []) : World F × List Entity).1 := collectClaims_own w
  exact applyClaims_payload bimap hfit hown fun c hc => collectClaims_store hc

/-- Empty drops are claimed for nothing. -/
theorem claims_of_dormant (h : Dormant w) (hc : c ∈ collectClaims w) : c.amount = 0 := by
  obtain ⟨drop, hdrop, hle⟩ := (collectClaims_own w).holds c hc
  rw [(h c.drop).drop drop hdrop] at hle
  exact UInt16.le_zero_iff.mp hle

theorem collection_of_dormant (h : Dormant w) (bimap : BiMap NetworkId Entity) :
    processPayloadCollection w bimap = (w, []) := by
  have hclaims : ∀ c ∈ collectClaims w, c.amount = 0 := fun _ => claims_of_dormant h
  unfold processPayloadCollection
  generalize collectClaims w = claims at hclaims
  induction claims with
  | nil => rfl
  | cons c claims ih =>
    have hone : applyClaim bimap (w, []) c = (w, []) := by
      unfold applyClaim
      rw [hclaims c List.mem_cons_self, if_neg (by decide)]
    rw [List.foldl_cons, hone]
    exact ih fun c' hc' => hclaims c' (List.mem_cons_of_mem c hc')

end Collection

namespace BevyWorldAdapter

/-! ## Despawns without loss -/

/-- Despawns one by one. What is yet to be despawned meets `R` all along, and nothing is lost with an
entity that does. -/
theorem Flow.foldl (fit : Prop) {σ : Type} (π : σ → BevyWorldAdapter F) {f : σ → Entity → σ}
    (R : World F → Entity → Prop) (hf : ∀ s e, R (π s).world e → Flow fit 0 0 (π s) (π (f s e)))
    (hkeep : ∀ s e e', R (π s).world e' → R (π (f s e)).world e') (es : List Entity) (s : σ)
    (hes : ∀ e ∈ es, R (π s).world e) : Flow fit 0 0 (π s) (π (es.foldl f s)) := by
  induction es generalizing s with
  | nil => exact Flow.refl fit (π s)
  | cons e es ih =>
    refine (hf s e (hes e List.mem_cons_self)).trans (ih (f s e) fun e' he' => ?_)
    exact hkeep s e e' (hes e' (List.mem_cons_of_mem e he'))

variable {a : BevyWorldAdapter F} {acc : BevyWorldAdapter F × Events} {e e' : Entity}
  {es : List Entity} {k : Comp} {n : NetworkId} {w : World F}

/-- Nothing is lost with an expendable entity. -/
theorem despawnNetworked_flow (fit : Prop)
    (hright : a.bimap.getByRight e = some n) (hspent : Expendable (a.world.get e)) :
    Flow fit 0 0 a (a.despawnNetworked n).1 := by
  refine (Flow.of_despawn fit (BiMap.getByRight_eq_some.mp hright) fun k =>
    hspent.mortal).convert fun ha => ?_
  rw [hspent.held ha.tidy]

theorem despawnMapped_flow (fit : Prop) (event : NetworkId → PlatformEvent) (es : List Entity)
    (acc : BevyWorldAdapter F × Events) (hes : ∀ e ∈ es, Expendable (acc.1.world.get e)) :
    Flow fit 0 0 acc.1 (es.foldl (despawnMapped event) acc).1 := by
  have hround : ∀ (acc : BevyWorldAdapter F × Events) e, Expendable (acc.1.world.get e) →
      Flow fit 0 0 acc.1 (despawnMapped event acc e).1 := by
    intro acc e hspent
    unfold despawnMapped
    split
    · next n hright => exact despawnNetworked_flow fit hright hspent
    · exact Flow.refl fit acc.1
  refine Flow.foldl fit Prod.fst (fun w e => Expendable (w.get e)) hround (fun acc e e' h => ?_)
    es acc hes
  unfold despawnMapped
  split
  · next n hright =>
    exact h.of_despawn (get_despawnNetworked (BiMap.getByRight_eq_some.mp hright) e')
  · exact h

/-! ## The stages up to the collection -/

theorem toggleStage_of_dormant (h : Dormant w) : toggleStage w = w := by
  have hquery : w.query [.latestInput, .extractionBeam] = [] := by
    refine List.eq_nil_iff_forall_not_mem.mpr fun e he => ?_
    have hinput := (World.mem_query.mp he).2 .latestInput (by decide)
    have hnone : w.get e .latestInput = none := (h e).input
    rw [World.has, Storage.has, show w.ecs.get e .latestInput = none from hnone] at hinput
    cases hinput
  unfold toggleStage
  rw [hquery]
  rfl

variable [F32 F] (P : Platform F)

variable (fit : Prop)

theorem motion_flow (a : BevyWorldAdapter F) : Flow fit 0 0 a (a.motionStage P) := by
  have hedits := (motionStage_written P a).edits
  have hidle : Dormant a.world → Dormant (a.motionStage P).world := by
    intro h
    have hmove := h.of_edits (moveStage_written P.headingFuel (1.0 / F32.ofU64 a.tickRate)
      a.world).edits (by decide)
    have hwrap := hmove.of_edits (wrapStage_written a.bimap _).edits (by decide)
    have htoggle := toggleStage_of_dormant hwrap
    unfold motionStage onWorld
    dsimp only
    rw [htoggle]
    exact hwrap
  obtain ⟨w, hw⟩ : ∃ w, a.motionStage P = { a with world := w } := by
    unfold motionStage onWorld
    exact ⟨_, rfl⟩
  rw [hw] at hedits hidle ⊢
  exact Flow.of_writes fit hedits (by decide) hidle fun _ _ =>
    World.payload_of_edits hedits (by decide)

theorem spawnTrackers_flow (trackers : List (ResourceRespawn F)) (a : BevyWorldAdapter F) :
    Flow fit 0 0 a { a with world := trackers.foldl spawnTracker a.world } ∧
      ∀ e, a.world.alive e = true → ∀ k,
        (trackers.foldl spawnTracker a.world).get e k = a.world.get e k := by
  induction trackers generalizing a with
  | nil => exact ⟨Flow.refl fit a, fun _ _ _ => rfl⟩
  | cons tracker trackers ih =>
    have hspawn : Flow fit 0 0 a { a with world := spawnTracker a.world tracker } :=
      Flow.of_tracker fit (spawnTracker_one_moves a tracker) (by simp [Flow.trackerComps])
    obtain ⟨hrest, hget⟩ := ih { a with world := spawnTracker a.world tracker }
    refine ⟨hspawn.trans hrest, fun e he k => ?_⟩
    have hne : e ≠ a.world.spawned := fun heq => by
      rw [heq, World.not_alive_spawned] at he
      cases he
    have halive : (spawnTracker a.world tracker).alive e = true := by
      rw [spawnTracker, World.alive_spawn, he, Bool.or_true]
    rw [List.foldl_cons, hget e halive k]
    exact (World.get_spawn _ _ _ _).trans (if_neg hne)

theorem handleResourceExhaustion_flow (a : BevyWorldAdapter F) :
    Flow fit 0 0 a { a with world := (handleResourceExhaustion a.world a.bimap).1 } ∧
      ∀ e ∈ (handleResourceExhaustion a.world a.bimap).2,
        Expendable ((handleResourceExhaustion a.world a.bimap).1.get e) := by
  have hlisted : ∀ e ∈ (exhaustedResources a.world a.bimap).map Prod.fst,
      Spent (a.world.get e) := by
    intro e he
    obtain ⟨⟨e, n, tracker⟩, hmem, rfl⟩ := List.mem_map.mp he
    obtain ⟨-, -, r, hr, hempty⟩ := mem_exhaustedResources.mp ⟨tracker, hmem⟩
    exact .resource r hr hempty
  unfold handleResourceExhaustion
  generalize exhaustedResources a.world a.bimap = exhausted at hlisted ⊢
  dsimp only
  have hevents : ∀ ev ∈ exhausted.map (fun x => ((none : Option ClientId),
      WireEvent.platformEvent (.resourceExhausted x.2.1))), ev.1 = none := by
    intro ev hev
    obtain ⟨x, -, rfl⟩ := List.mem_map.mp hev
    rfl
  generalize exhausted.map (fun x => ((none : Option ClientId),
    WireEvent.platformEvent (.resourceExhausted x.2.1))) = events at hevents ⊢
  have hpush : Flow fit 0 0 a { a with world := a.world.pushReliable events } :=
    Flow.of_edits fit (Edits.pushReliable [] a.world hevents) (by simp)
  obtain ⟨htrackers, hget⟩ := spawnTrackers_flow fit (exhausted.map (·.2.2))
    { a with world := a.world.pushReliable events }
  refine ⟨hpush.trans htrackers, fun e he => ?_⟩
  have hspent := hlisted e he
  obtain ⟨k, -, hk⟩ := hspent.mortal
  have hsame : ((exhausted.map (·.2.2)).foldl spawnTracker (a.world.pushReliable events)).get e =
      a.world.get e := funext fun k => hget e (World.alive_of_has hk) k
  rw [hsame]
  exact Or.inr hspent

theorem extraction_flow (acc : BevyWorldAdapter F × Events) :
    Flow fit 0 0 acc.1 (extractionStage acc).1 := by
  have hedits := (afterTransfers_written acc.1.world acc.1.bimap).edits
  have htransfers : Flow fit 0 0 acc.1
      { acc.1 with world := afterTransfers acc.1.world acc.1.bimap } := by
    refine Flow.of_writes fit hedits (by decide) (fun h => ?_) fun _ _ =>
      afterTransfers_payload acc.1.world acc.1.bimap
    rw [afterTransfers_of_dormant h]
    exact h
  obtain ⟨hexhausted, hlisted⟩ := handleResourceExhaustion_flow fit
    { acc.1 with world := afterTransfers acc.1.world acc.1.bimap }
  unfold extractionStage
  rw [processExtraction_eq]
  dsimp only at hexhausted hlisted
  generalize handleResourceExhaustion (afterTransfers acc.1.world acc.1.bimap) acc.1.bimap = out
    at hexhausted hlisted ⊢
  exact (htransfers.trans hexhausted).trans (despawnMapped_flow fit .resourceExhausted out.2
    ({ acc.1 with world := out.1 }, acc.2) hlisted)

theorem interaction_flow (a : BevyWorldAdapter F) :
    Flow fit 0 0 a { a with world := processInteraction P a.world a.bimap } :=
  Flow.of_edits fit (processInteraction_edits P a.world a.bimap) (by decide)

theorem beforeCollection_flow (a : BevyWorldAdapter F) : Flow fit 0 0 a (a.beforeCollection P) := by
  have hmotion := motion_flow P fit a
  have hextraction := extraction_flow fit (a.motionStage P, [])
  unfold beforeCollection
  generalize extractionStage (a.motionStage P, []) = s at hextraction ⊢
  exact (hmotion.trans hextraction).trans (interaction_flow P fit s.1)

theorem collection_flow (acc : BevyWorldAdapter F × Events) :
    Flow (ClaimsFit (collectClaims acc.1.world) acc.1.world) 0 0 acc.1
      (collectionStage acc).1 := by
  have hedits := (processPayloadCollection_edited acc.1.world acc.1.bimap).edits
  have hcollect : Flow (ClaimsFit (collectClaims acc.1.world) acc.1.world) 0 0 acc.1
      { acc.1 with world := (processPayloadCollection acc.1.world acc.1.bimap).1 } := by
    refine Flow.of_writes _ hedits (by decide) (fun h => ?_) fun hfit _ =>
      collection_payload acc.1.bimap hfit
    rw [collection_of_dormant h]
    exact h
  have hemptied : ∀ d ∈ (processPayloadCollection acc.1.world acc.1.bimap).2,
      Expendable ((processPayloadCollection acc.1.world acc.1.bimap).1.get d) := by
    intro d hd
    obtain ⟨c, hc, rfl, -, hdrop⟩ := mem_emptied.mp hd
    have hown : ClaimsOwn (collectClaims acc.1.world)
        ((acc.1.world, []) : World F × List Entity).1 := collectClaims_own acc.1.world
    have hafter : (processPayloadCollection acc.1.world acc.1.bimap).1.get c.drop
        .dataDropComponent = some ⟨c.amount - c.amount⟩ :=
      foldl_applyClaim_drop acc.1.bimap hown hc hdrop
    exact Or.inr (.drop _ hafter (UInt16.sub_self _))
  unfold collectionStage
  generalize processPayloadCollection acc.1.world acc.1.bimap = out at hcollect hemptied ⊢
  exact hcollect.trans (despawnMapped_flow _ (.payloadCollected · 0) out.2
    ({ acc.1 with world := out.1 }, acc.2) hemptied)

/-! ## Terminations -/

theorem held_filled_drop {amount : UInt16} {x y rot : F}
    {master : NetworkId} (h : w.get e = placedCells n entityTypeDataDrop x y rot master) :
    (w.modify e .dataDropComponent fun _ : DataDropComponent => ⟨amount⟩).held e =
      amount.toNat := by
  have hdrop : w.get e .dataDropComponent = some ⟨0⟩ := by
    rw [h]
    rfl
  have hempty := held_placed (by decide) h
  have hself : (w.modify e .dataDropComponent fun _ : DataDropComponent => ⟨amount⟩).get e
      .dataDropComponent = some ⟨amount⟩ := by
    rw [World.get_modify_self, hdrop]
    rfl
  unfold World.held at hempty ⊢
  rw [World.amountIn_congr (World.get_modify_of_ne w _ (Or.inr (by decide))),
    World.amountIn_congr (World.get_modify_of_ne w _ (Or.inr (by decide))),
    World.amountIn_of_get hself]
  simp only [payloadOf]
  omega

/-- What was in the store lies in the drop. -/
theorem dropPayload_flow (a : BevyWorldAdapter F) (e : Entity) :
    Flow fit 0 (a.world.amountIn .dataStore e) a (a.dropPayload e) := by
  unfold dropPayload
  split
  · next store hstore =>
    rw [World.amountIn_of_get hstore]
    dsimp only
    split
    · next hpos =>
      have hfill : ∀ (drop : Entity) (w : World F), Written [.dataDropComponent] w
          (w.modify drop .dataDropComponent fun _ : DataDropComponent => ⟨store.payloadCount⟩) :=
        fun drop w => Written.modify w drop (by decide) _
      refine Flow.of_spawnKind fit a entityTypeDataDrop _ _ _ hfill (by decide)
        (fun drop w e' he' k => get_modify_other _ drop w e' he' k) (fun hidle => ?_)
        (fun drop w n x y rot master hcells => held_filled_drop hcells) rfl
      rw [(hidle e).store store hstore] at hpos
      exact absurd hpos (by decide)
    · next hzero =>
      have hempty : DataStore.payloadCount store = 0 :=
        UInt16.le_zero_iff.mp (UInt16.not_lt.mp hzero)
      simp only [payloadOf, hempty]
      exact Flow.refl fit a
  · next hnone =>
    rw [World.amountIn_of_none hnone]
    exact Flow.refl fit a

theorem spawnReinitTracker_flow (a : BevyWorldAdapter F) (e : Entity) :
    Flow fit 0 0 a (a.spawnReinitTracker e) := by
  have hmoves := (spawnReinitTracker_deeds a e).moves
  unfold spawnReinitTracker at hmoves ⊢
  split
  · next htarget =>
    rw [if_pos htarget] at hmoves
    exact Flow.of_tracker fit hmoves (by simp [Flow.trackerComps])
  · exact Flow.refl fit a

omit [F32 F] in
theorem ne_spawned_of_lt (h : e.id < w.ecs.next) : e ≠ w.spawned := by
  rintro rfl
  exact Nat.lt_irrefl _ h

theorem get_dropPayload (ha : a.HasMaster) (e : Entity)
    (he' : e'.id < a.world.ecs.next) (k : Comp) :
    (a.dropPayload e).world.get e' k = a.world.get e' k := by
  have hne := ne_spawned_of_lt he'
  unfold dropPayload
  split
  · dsimp only
    split
    · have hplaced := spawnKind_placed ha entityTypeDataDrop
      generalize hs : a.spawnKind entityTypeDataDrop _ _ _ = s
      have hplaced : Placed a entityTypeDataDrop s := hs ▸ hplaced _ _ _
      simp only [hplaced.mapped]
      exact (get_modify_other _ _ _ e' hne k).trans (hplaced.others e' hne k)
    · rfl
  · rfl

theorem get_spawnReinitTracker (a : BevyWorldAdapter F) (e : Entity)
    (he' : e'.id < a.world.ecs.next) (k : Comp) :
    (a.spawnReinitTracker e).world.get e' k = a.world.get e' k := by
  unfold spawnReinitTracker
  split
  · exact (World.get_spawn _ _ _ _).trans (if_neg (ne_spawned_of_lt he'))
  · rfl

omit [F32 F] in
/-- What beams can destroy is no drop. -/
theorem held_of_fragile (hw : Tidy w) (hk : k ∈ fragileComps)
    (hhas : w.has e k = true) : w.held e = w.amountIn .resource e + w.amountIn .dataStore e := by
  have hdrop : w.get e .dataDropComponent = none := by
    by_contra hsome
    have hclash : (Comp.dataDropComponent, k) ∈ clashes :=
      List.mem_append_left _ (List.mem_append_left _
        (List.mem_append_right _ (List.mem_map_of_mem hk)))
    have hnone := hw.get_eq_none hclash (Option.isSome_iff_ne_none.mpr hsome)
    rw [World.has, Storage.has, show w.ecs.get e k = none from hnone] at hhas
    cases hhas
  rw [World.held, World.amountIn_of_none hdrop, Nat.add_zero]

/-- The entity goes: its store has become a drop, and what it was a resource of is lost. -/
theorem terminate_mapped (ha : Settled acc.1) (hrel : acc.1.bimap.Rel n e) (hk : k ∈ fragileComps)
    (hhas : acc.1.world.has e k = true) :
    Settled (terminate acc e).1 ∧
      (terminate acc e).1.world.payload + acc.1.world.amountIn .resource e =
        acc.1.world.payload ∧
      ∀ e' : Entity, e'.id < acc.1.world.ecs.next → ∀ k,
        (terminate acc e).1.world.get e' k = if e' = e then none else acc.1.world.get e' k := by
  have hdrop := dropPayload_flow True acc.1 e
  have htracker := spawnReinitTracker_flow True (acc.1.dropPayload e) e
  have hget : ∀ e' : Entity, e'.id < acc.1.world.ecs.next → ∀ k,
      ((acc.1.dropPayload e).spawnReinitTracker e).world.get e' k = acc.1.world.get e' k :=
    fun e' he' k => (get_spawnReinitTracker _ e
      (Nat.lt_of_lt_of_le he' (hdrop.moves.next_le ha.coherent)) k).trans
        (get_dropPayload ha.master e he' k)
  have hgrown : ((acc.1.dropPayload e).spawnReinitTracker e).bimap.Rel n e := by
    have hkept := (dropPayload_grows acc.1 e).1.rel ha.coherent.toBounded n e hrel
    unfold spawnReinitTracker
    split <;> exact hkept
  have hterminate : (terminate acc e).1 =
      (((acc.1.dropPayload e).spawnReinitTracker e).despawnNetworked n).1 := by
    unfold terminate
    simp only [BiMap.getByRight_eq_some.mpr hrel]
  rw [hterminate]
  have hprepared := hdrop.trans htracker
  generalize (acc.1.dropPayload e).spawnReinitTracker e = b at hprepared hget hgrown ⊢
  have hold : e.id < acc.1.world.ecs.next := lt_next_of_alive ha.coherent (World.alive_of_has hhas)
  have hb := hprepared.settled ha
  have hdespawn := Flow.of_despawn True hgrown fun _ _ =>
    ⟨k, List.mem_append_left _ (List.mem_append_left _ hk), by
      rw [World.has, Storage.has, show b.world.ecs.get e k = _ from hget e hold k]
      exact hhas⟩
  refine ⟨hdespawn.settled hb, ?_, fun e' he' k' => ?_⟩
  · have hfirst := hprepared.payload trivial ha
    have hthen := hdespawn.payload trivial hb
    have hheld : b.world.held e = acc.1.world.held e := World.held_congr fun k' _ => hget e hold k'
    have hfragile := held_of_fragile ha.tidy hk hhas
    omega
  · rw [get_despawnNetworked hgrown, hget e' he']

/-- What the resources among `es` hold that are despawned by identifier, each counted once however
often it is listed. -/
def lostWith (b : BevyWorldAdapter F) (es : List Entity) : Nat :=
  ∑ e ∈ es.toFinset with (b.bimap.getByRight e).isSome = true, b.world.amountIn .resource e

omit [F32 F] in
theorem lostWith_cons {a' : BevyWorldAdapter F} (hgone : ∀ n, ¬ a'.bimap.Rel n e)
    (hothers : ∀ e' ∈ es, e' ≠ e → (∀ n, a'.bimap.Rel n e' ↔ a.bimap.Rel n e') ∧
      a'.world.amountIn .resource e' = a.world.amountIn .resource e') :
    a.lostWith (e :: es) =
      (if (a.bimap.getByRight e).isSome = true then a.world.amountIn .resource e else 0) +
        a'.lostWith es := by
  have hnone : a'.bimap.getByRight e = none := BiMap.getByRight_eq_none.mpr hgone
  have hsame : ∀ e' ∈ es.toFinset.erase e,
      (if (a'.bimap.getByRight e').isSome = true then a'.world.amountIn .resource e' else 0) =
        if (a.bimap.getByRight e').isSome = true then a.world.amountIn .resource e' else 0 := by
    intro e' he'
    obtain ⟨hne, hmem⟩ := Finset.mem_erase.mp he'
    obtain ⟨hrel, hamount⟩ := hothers e' (List.mem_toFinset.mp hmem) hne
    have hright : a'.bimap.getByRight e' = a.bimap.getByRight e' := by
      refine Option.ext fun n => ?_
      rw [BiMap.getByRight_eq_some, BiMap.getByRight_eq_some]
      exact hrel n
    rw [hright, hamount]
  unfold lostWith
  rw [Finset.sum_filter, Finset.sum_filter, List.toFinset_cons,
    ← Finset.add_sum_erase _ _ (Finset.mem_insert_self e _), Finset.erase_insert_eq_erase,
    ← Finset.sum_congr rfl hsame]
  congr 1
  refine Finset.sum_erase _ ?_
  rw [hnone]
  rfl

/-- Terminated already, or still there to be terminated. -/
def Doomed (a : BevyWorldAdapter F) (e : Entity) : Prop :=
  e.id < a.world.ecs.next ∧
    ((∀ n, ¬ a.bimap.Rel n e) ∨ ∃ k ∈ fragileComps, a.world.has e k = true)

/-- Of the entities there were, only `e` has gone. -/
structure Removed (e : Entity) (a a' : BevyWorldAdapter F) : Prop where
  next_le : a.world.ecs.next ≤ a'.world.ecs.next
  get : ∀ e' : Entity, e'.id < a.world.ecs.next → ∀ k,
    a'.world.get e' k = if e' = e then none else a.world.get e' k
  gone : ∀ n, ¬ a'.bimap.Rel n e
  rel : ∀ e' : Entity, e'.id < a.world.ecs.next → e' ≠ e → ∀ n,
    a'.bimap.Rel n e' ↔ a.bimap.Rel n e'

namespace Removed

variable {e e' : Entity} {a a' : BevyWorldAdapter F}

omit [F32 F]

theorem doomed (h : Removed e a a') (he' : Doomed a e') : Doomed a' e' := by
  obtain ⟨hold, hfate⟩ := he'
  refine ⟨Nat.lt_of_lt_of_le hold h.next_le, ?_⟩
  by_cases hne : e' = e
  · exact Or.inl (hne ▸ h.gone)
  · refine hfate.imp (fun hfree n hrel => hfree n ((h.rel e' hold hne n).mp hrel)) ?_
    rintro ⟨k, hk, hhas⟩
    refine ⟨k, hk, ?_⟩
    rw [World.has, Storage.has, show a'.world.ecs.get e' k = _ from h.get e' hold k, if_neg hne]
    exact hhas

theorem lostWith (h : Removed e a a') {es : List Entity} (hes : ∀ e' ∈ es, Doomed a e') :
    a.lostWith (e :: es) =
      (if (a.bimap.getByRight e).isSome = true then a.world.amountIn .resource e else 0) +
        a'.lostWith es := by
  refine lostWith_cons h.gone fun e' he' hne => ⟨h.rel e' (hes e' he').1 hne, ?_⟩
  exact World.amountIn_congr ((h.get e' (hes e' he').1 _).trans (if_neg hne))

end Removed

/-- A round that terminates something. -/
theorem terminate_removed (ha : Settled acc.1) (hrel : acc.1.bimap.Rel n e) (hk : k ∈ fragileComps)
    (hhas : acc.1.world.has e k = true) :
    Settled (terminate acc e).1 ∧ Removed e acc.1 (terminate acc e).1 ∧
      (terminate acc e).1.world.payload + acc.1.world.amountIn .resource e =
        acc.1.world.payload := by
  have hold : e.id < acc.1.world.ecs.next := lt_next_of_alive ha.coherent (World.alive_of_has hhas)
  obtain ⟨hsettled, hpayload, hget⟩ := terminate_mapped ha hrel hk hhas
  obtain ⟨ids, hretired⟩ := terminate_retires.round acc ha.coherent hold
  have hmoves := terminate_moves acc e
  refine ⟨hsettled, ⟨hmoves.next_le ha.coherent, hget,
    fun n => hretired.gone n e List.mem_cons_self, fun e' he' hne n => ⟨?_, ?_⟩⟩, hpayload⟩
  · exact hmoves.rel_of_rel ha.coherent he'
  · exact fun h => hretired.stays n e' h fun hmem => hne (List.mem_singleton.mp hmem)

/-- An entity that is listed twice is passed over the second time, since its identifier is gone. -/
theorem terminate_unmapped (hfree : ∀ n, ¬ acc.1.bimap.Rel n e) : terminate acc e = acc := by
  unfold terminate
  simp only [BiMap.getByRight_eq_none.mpr hfree]

theorem terminations_payload (ha : Settled acc.1) (hes : ∀ e ∈ es, Doomed acc.1 e) :
    Settled (es.foldl terminate acc).1 ∧
      (es.foldl terminate acc).1.world.payload + acc.1.lostWith es = acc.1.world.payload ∧
      ∀ e' : Entity, e'.id < acc.1.world.ecs.next →
        (∀ k, (es.foldl terminate acc).1.world.get e' k = none) ∨
          ∀ k, (es.foldl terminate acc).1.world.get e' k = acc.1.world.get e' k := by
  induction es generalizing acc with
  | nil => exact ⟨ha, rfl, fun _ _ => Or.inr fun _ => rfl⟩
  | cons e es ih =>
    rw [List.foldl_cons]
    have hrest : ∀ e' ∈ es, Doomed acc.1 e' := fun e' he' => hes e' (List.mem_cons_of_mem e he')
    by_cases hmapped : ∃ n, acc.1.bimap.Rel n e
    · obtain ⟨n, hrel⟩ := hmapped
      obtain ⟨k, hk, hhas⟩ :=
        (hes e List.mem_cons_self).2.resolve_left fun hfree => hfree n hrel
      obtain ⟨ha', hremoved, hpayload⟩ := terminate_removed ha hrel hk hhas
      obtain ⟨hsettled, hpayload', hfates⟩ := ih ha' fun e' he' => hremoved.doomed (hrest e' he')
      have hlost := hremoved.lostWith hrest
      rw [if_pos (Option.isSome_iff_exists.mpr ⟨n, BiMap.getByRight_eq_some.mpr hrel⟩)] at hlost
      refine ⟨hsettled, by omega, fun e' he' => ?_⟩
      have hget := hremoved.get e' he'
      rcases hfates e' (Nat.lt_of_lt_of_le he' hremoved.next_le) with hnone | hsame
      · exact Or.inl hnone
      · by_cases hne : e' = e
        · exact Or.inl fun k => by rw [hsame, hget, if_pos hne]
        · exact Or.inr fun k => by rw [hsame, hget, if_neg hne]
    · have hfree : ∀ n, ¬ acc.1.bimap.Rel n e := fun n hrel => hmapped ⟨n, hrel⟩
      have hlost := lostWith_cons hfree fun e' (_ : e' ∈ es) _ => ⟨fun _ => Iff.rfl, rfl⟩
      rw [if_neg (by rw [BiMap.getByRight_eq_none.mpr hfree]; decide), Nat.zero_add] at hlost
      rw [terminate_unmapped hfree, hlost]
      exact ih ha hrest

/-! ## The beam stage -/

theorem despawnBeam_flow (fit : Prop) (es : List Entity) (acc : BevyWorldAdapter F × Events)
    (hes : ∀ e ∈ es, Expendable (acc.1.world.get e)) :
    Flow fit 0 0 acc.1 (es.foldl despawnBeam acc).1 := by
  have hround : ∀ (acc : BevyWorldAdapter F × Events) e, Expendable (acc.1.world.get e) →
      Flow fit 0 0 acc.1 (despawnBeam acc e).1 := by
    intro acc e hspent
    have hmoves := despawnBeam_moves acc e
    unfold despawnBeam at hmoves ⊢
    split
    · next n hright => exact despawnNetworked_flow fit hright hspent
    · next hright =>
      simp only [hright] at hmoves
      split
      · next halive =>
        rw [if_pos halive] at hmoves
        refine (Flow.of_despawnLocal fit (fun k => hspent.mortal) hmoves).convert fun ha => ?_
        rw [hspent.held ha.tidy]
      · exact Flow.refl fit acc.1
  refine Flow.foldl fit Prod.fst (fun w e => Expendable (w.get e)) hround (fun acc e e' h => ?_)
    es acc hes
  unfold despawnBeam
  split
  · next n hright =>
    exact h.of_despawn (get_despawnNetworked (BiMap.getByRight_eq_some.mp hright) e')
  · split
    · exact h.of_despawn (World.get_despawn acc.1.world e e')
    · exact h

theorem terminate_keeps (acc : BevyWorldAdapter F × Events) (e : Entity) :
    (Tidy acc.1.world → Tidy (terminate acc e).1.world) ∧
      (Dormant acc.1.world → Dormant (terminate acc e).1.world) := by
  have hprepared := (dropPayload_flow True acc.1 e).trans (spawnReinitTracker_flow True _ e)
  unfold terminate
  split
  · next n _ =>
    have hadds : Adds ((acc.1.dropPayload e).spawnReinitTracker e).world
        (((acc.1.dropPayload e).spawnReinitTracker e).despawnNetworked n).1.world :=
      .of_evolves (despawnNetworked_evolves [] _ n) nofun
    exact ⟨hadds.tidy ∘ hprepared.tidy, hadds.idle ∘ hprepared.idle⟩
  · exact ⟨id, id⟩

theorem terminations_keep (es : List Entity) (acc : BevyWorldAdapter F × Events) :
    (Tidy acc.1.world → Tidy (es.foldl terminate acc).1.world) ∧
      (Dormant acc.1.world → Dormant (es.foldl terminate acc).1.world) := by
  induction es generalizing acc with
  | nil => exact ⟨id, id⟩
  | cons e es ih =>
    obtain ⟨htidy, hidle⟩ := terminate_keeps acc e
    obtain ⟨htidy', hidle'⟩ := ih (terminate acc e)
    exact ⟨htidy' ∘ htidy, hidle' ∘ hidle⟩

theorem terminations_flow (fit : Prop) (hes : Settled acc.1 → ∀ e ∈ es, Doomed acc.1 e) :
    Flow fit (acc.1.lostWith es) 0 acc.1 (es.foldl terminate acc).1 where
  moves := Moves.foldl Prod.fst terminate_moves es acc
  tidy := (terminations_keep es acc).1
  idle := (terminations_keep es acc).2
  master ha := (terminations_payload ha (hes ha)).1.master
  payload _ ha := (terminations_payload ha (hes ha)).2.1

omit [F32 F] in
theorem despawnBeam_adds (acc : BevyWorldAdapter F × Events) (e : Entity) :
    Adds acc.1.world (despawnBeam acc e).1.world := by
  unfold despawnBeam
  split
  · next n _ => exact .of_evolves (despawnNetworked_evolves [] acc.1 n) nofun
  · split
    · exact .of_evolves (Evolves.despawn [] acc.1.world e) nofun
    · exact .refl _

omit [F32 F] in
theorem fragile_of_damageable (h : damageable w e = true) :
    ∃ k ∈ fragileComps, w.has e k = true := by
  simp only [damageable, Bool.or_eq_true] at h
  rcases h with (h | h) | h
  · exact ⟨.priorityPool, by decide, h⟩
  · exact ⟨.integrityPool, by decide, h⟩
  · exact ⟨.resourceIntegrity, by decide, h⟩

/-- What the resources hold that the beams of this world destroy. -/
def destroyed (b : BevyWorldAdapter F) : Nat := b.lostWith (processBeams b.world b.bimap).2.2

/-- The stage after the world has been edited by the beams. -/
theorem beamStage_ends (fit : Prop) (acc : BevyWorldAdapter F × Events)
    {spent terminated : List Entity}
    (hterminated : ∀ e ∈ terminated, damageable acc.1.world e = true)
    (hspent : ∀ e ∈ spent, acc.1.world.has e .beamMarker = true) :
    Flow fit (acc.1.lostWith terminated) 0 acc.1
      (spent.foldl despawnBeam (terminated.foldl terminate acc)).1 := by
  have hdoomed : Settled acc.1 → ∀ e ∈ terminated, Doomed acc.1 e := by
    intro ha e he
    obtain ⟨k, hk, hhas⟩ := fragile_of_damageable (hterminated e he)
    exact ⟨lt_next_of_alive ha.coherent (World.alive_of_has hhas), Or.inr ⟨k, hk, hhas⟩⟩
  have hflow := terminations_flow fit hdoomed
  have hadds : Adds (terminated.foldl terminate acc).1.world
      (spent.foldl despawnBeam (terminated.foldl terminate acc)).1.world :=
    Adds.foldl (fun s : BevyWorldAdapter F × Events => s.1.world) despawnBeam_adds spent _
  have hmoves := Moves.foldl Prod.fst despawnBeam_moves spent (terminated.foldl terminate acc)
  have hbeams : Settled acc.1 → Flow fit 0 0 (terminated.foldl terminate acc).1
      (spent.foldl despawnBeam (terminated.foldl terminate acc)).1 := by
    intro ha
    obtain ⟨-, -, hfates⟩ := terminations_payload ha (hdoomed ha)
    refine despawnBeam_flow fit spent _ fun e he => ?_
    have hhas := hspent e he
    refine (hfates e (lt_next_of_alive ha.coherent (World.alive_of_has hhas))).imp_right
      fun hsame => .transient .beamMarker (by decide) ?_
    rw [hsame]
    exact hhas
  exact
    { moves := hflow.moves.trans hmoves
      tidy := hadds.tidy ∘ hflow.tidy
      idle := hadds.idle ∘ hflow.idle
      master := fun ha => (hflow.trans (hbeams ha)).master ha
      payload := fun hfit ha => (hflow.trans (hbeams ha)).payload hfit ha }

theorem beam_flow (fit : Prop) (acc : BevyWorldAdapter F × Events) :
    Flow fit acc.1.destroyed 0 acc.1 (beamStage acc).1 := by
  have hedits := (processBeams_edited acc.1.world acc.1.bimap).edits
  obtain ⟨hterminated, hspent⟩ := processBeams_lists acc.1.world acc.1.bimap
  unfold destroyed beamStage
  generalize processBeams acc.1.world acc.1.bimap = out at hedits hterminated hspent ⊢
  have hhits : Flow fit 0 0 acc.1 { acc.1 with world := out.1 } :=
    Flow.of_edits fit hedits (by decide)
  have hends : Flow fit ({ acc.1 with world := out.1 }.lostWith out.2.2) 0
      { acc.1 with world := out.1 } (out.2.1.foldl despawnBeam
        (out.2.2.foldl terminate ({ acc.1 with world := out.1 }, acc.2))).1 :=
    beamStage_ends fit ({ acc.1 with world := out.1 }, acc.2)
      (fun e he => (damageable_of_edits hedits e).trans (hterminated e he))
      (fun e he => (hedits.has e _).trans (hspent e he))
  -- the hits do not touch what resources hold
  have hlost : { acc.1 with world := out.1 }.lostWith out.2.2 = acc.1.lostWith out.2.2 :=
    Finset.sum_congr rfl fun e _ => World.amountIn_congr (hedits.get e _ (by decide))
  rw [hlost] at hends
  exact (hhits.trans hends).convert fun _ => by omega

end BevyWorldAdapter

end Aetheris
