import Aetheris.EcsBevy.Simulate
import Mathlib.Logic.Relation

/-!
# What the gameplay systems write

`Edited ks w w'` says that `w'` comes from `w` by accessing components of `ks` mutably and by
announcing events to everybody, one after the other, and `Written ks w w'` that nothing is
announced. Each system gets one lemma with its list of components; nothing later looks into a system
to find out what it does.

`Edits ks w w'` is what such a sequence amounts to: the same entities live and carry the same
components, every value outside of `ks` is untouched, and what was queued is addressed to everybody
(`Announces`).
-/

namespace Aetheris

open Ecs Relation

variable {F : Type}

/-- Whatever is added to the reliable queue is addressed to everybody. -/
def Announces (w w' : World F) : Prop :=
  ∀ ev ∈ w'.reliableQueue, ev ∈ w.reliableQueue ∨ ev.1 = none

namespace Announces

theorem of_eq {w w' : World F} (h : w'.reliableEvents = w.reliableEvents) : Announces w w' := by
  intro ev hev
  rw [World.reliableQueue, h] at hev
  exact Or.inl hev

theorem refl (w : World F) : Announces w w := of_eq rfl

theorem trans {w w' w'' : World F} (h : Announces w w') (h' : Announces w' w'') :
    Announces w w'' := by
  intro ev hev
  rcases h' ev hev with hmid | hnone
  · exact h ev hmid
  · exact Or.inr hnone

theorem push (w : World F) {evs : List (Option ClientId × WireEvent)}
    (h : ∀ ev ∈ evs, ev.1 = none) : Announces w (w.pushReliable evs) := by
  intro ev hev
  unfold World.pushReliable World.reliableQueue at hev
  unfold World.reliableQueue
  cases hq : w.reliableEvents with
  | none => simp [hq] at hev
  | some queue =>
    simp only [hq, Option.map_some, Option.getD_some] at hev ⊢
    exact (List.mem_append.mp hev).imp_right (h ev)

end Announces

structure Edits (ks : List Comp) (w w' : World F) : Prop where
  alive : ∀ e, w'.alive e = w.alive e
  has : ∀ e k, w'.has e k = w.has e k
  get : ∀ e k, k ∉ ks → w'.get e k = w.get e k
  next : w'.ecs.next = w.ecs.next
  queue : Announces w w'

namespace Edits

theorem refl (ks : List Comp) (w : World F) : Edits ks w w :=
  ⟨fun _ => rfl, fun _ _ => rfl, fun _ _ _ => rfl, rfl, Announces.refl w⟩

variable {k : Comp} {ks : List Comp} {w w' : World F}

theorem trans {w'' : World F} (h : Edits ks w w') (h' : Edits ks w' w'') : Edits ks w w'' where
  alive e := (h'.alive e).trans (h.alive e)
  has e k := (h'.has e k).trans (h.has e k)
  get e k hk := (h'.get e k hk).trans (h.get e k hk)
  next := h'.next.trans h.next
  queue := h.queue.trans h'.queue

theorem mono {ks' : List Comp} (h : Edits ks w w') (hsub : ks ⊆ ks') : Edits ks' w w' :=
  { h with get := fun e k hk => h.get e k fun hmem => hk (hsub hmem) }

theorem modify (w : World F) (e : Entity) (hk : k ∈ ks)
    (f : CompVal F k → CompVal F k) : Edits ks w (w.modify e k f) where
  alive e' := World.alive_modify w e e' k f
  has e' k' := World.has_modify w e e' k k' f
  get _ _ hk' := World.get_modify_of_ne w f (Or.inr fun h => hk' (h ▸ hk))
  next := rfl
  queue := Announces.of_eq rfl

/-- One more write after the others. -/
theorem andModify (h : Edits ks w w') (e : Entity)
    (hk : k ∈ ks) (f : CompVal F k → CompVal F k) : Edits ks w (w'.modify e k f) :=
  h.trans (modify w' e hk f)

/-- Worlds with the same storage differ in resources only. -/
theorem of_ecs_eq (ks : List Comp) (h : w'.ecs = w.ecs) (hq : Announces w w') : Edits ks w w' := by
  obtain ⟨ecs, _, _, _, _⟩ := w
  obtain ⟨ecs', _, _, _, _⟩ := w'
  obtain rfl : ecs' = ecs := h
  exact ⟨fun _ => rfl, fun _ _ => rfl, fun _ _ _ => rfl, rfl, hq⟩

theorem pushReliable (ks : List Comp) (w : World F) {evs : List (Option ClientId × WireEvent)}
    (h : ∀ ev ∈ evs, ev.1 = none) : Edits ks w (w.pushReliable evs) :=
  of_ecs_eq ks rfl (Announces.push w h)

end Edits

/-! ## Elementary edits -/

/-- Platform events for everybody. -/
def News (events : List (Option ClientId × WireEvent)) : Prop :=
  ∀ ev ∈ events, ∃ event, ev = (none, .platformEvent event)

variable {events : List (Option ClientId × WireEvent)}

theorem News.unaddressed (h : News events) : ∀ ev ∈ events, ev.1 = none := by
  intro ev hev
  obtain ⟨event, rfl⟩ := h ev hev
  rfl

theorem News.concat (h : News events) (event : PlatformEvent) :
    News (events ++ [(none, .platformEvent event)]) := by
  intro ev hev
  rcases List.mem_append.mp hev with hold | hnew
  · exact h ev hold
  · exact ⟨event, List.mem_singleton.mp hnew⟩

inductive Edit (ks : List Comp) : World F → World F → Prop where
  | modify (w : World F) (e : Entity) (k : Comp) (hk : k ∈ ks) (f : CompVal F k → CompVal F k) :
      Edit ks w (w.modify e k f)
  | announce (w : World F) (events : List (Option ClientId × WireEvent))
      (h : News events) : Edit ks w (w.pushReliable events)

abbrev Edited (ks : List Comp) : World F → World F → Prop := ReflTransGen (Edit ks)

namespace Edited

theorem mono {ks ks' : List Comp} {w w' : World F} (h : Edited ks w w') (hsub : ks ⊆ ks') :
    Edited ks' w w' := by
  refine ReflTransGen.mono (fun a b hstep => ?_) _ _ h
  cases hstep with
  | modify e k hk f => exact .modify a e k (hsub hk) f
  | announce events hevents => exact .announce a events hevents

/-- A loop whose every round edits `ks` edits `ks`; `π` finds the world in the loop state. -/
theorem foldl {σ α : Type} {ks : List Comp} (π : σ → World F) {f : σ → α → σ}
    (h : ∀ s x, Edited ks (π s) (π (f s x))) (l : List α) (s : σ) :
    Edited ks (π s) (π (l.foldl f s)) := by
  induction l generalizing s with
  | nil => exact .refl
  | cons x l ih => exact (h s x).trans (ih (f s x))

theorem edits {ks : List Comp} {w w' : World F} (h : Edited ks w w') : Edits ks w w' := by
  induction h with
  | refl => exact Edits.refl ks w
  | tail _ hstep ih =>
    cases hstep with
    | modify e k hk f => exact ih.andModify e hk f
    | announce events hevents =>
      exact ih.trans (Edits.pushReliable ks _ hevents.unaddressed)

end Edited

/-- One write to a component of `ks`. -/
inductive Write (ks : List Comp) : World F → World F → Prop where
  | modify (w : World F) (e : Entity) (k : Comp) (hk : k ∈ ks) (f : CompVal F k → CompVal F k) :
      Write ks w (w.modify e k f)

/-- Writes only, nothing is announced. -/
abbrev Written (ks : List Comp) : World F → World F → Prop := ReflTransGen (Write ks)

namespace Written

variable {k : Comp} {ks : List Comp} {w w' : World F}

theorem mono {ks' : List Comp} (h : Written ks w w') (hsub : ks ⊆ ks') : Written ks' w w' := by
  refine ReflTransGen.mono (fun a b hstep => ?_) _ _ h
  cases hstep with
  | modify e k hk f => exact .modify a e k (hsub hk) f

theorem modify (w : World F) (e : Entity) (hk : k ∈ ks)
    (f : CompVal F k → CompVal F k) : Written ks w (w.modify e k f) := .single (.modify w e k hk f)

/-- One more write after the others. -/
theorem andModify (h : Written ks w w') (e : Entity)
    (hk : k ∈ ks) (f : CompVal F k → CompVal F k) : Written ks w (w'.modify e k f) :=
  h.tail (.modify w' e k hk f)

theorem ite {a b : World F} {p : Prop} [Decidable p] (ha : Written ks w a)
    (hb : Written ks w b) : Written ks w (if p then a else b) := by
  split
  · exact ha
  · exact hb

/-- A loop whose every round writes `ks` writes `ks`; `π` finds the world in the loop state. -/
theorem foldl {σ α : Type} (π : σ → World F) {f : σ → α → σ}
    (h : ∀ s x, Written ks (π s) (π (f s x))) (l : List α) (s : σ) :
    Written ks (π s) (π (l.foldl f s)) := by
  induction l generalizing s with
  | nil => exact .refl
  | cons x l ih => exact (h s x).trans (ih (f s x))

theorem reliableEvents (h : Written ks w w') : w'.reliableEvents = w.reliableEvents := by
  induction h with
  | refl => rfl
  | tail _ hstep ih =>
    cases hstep with
    | modify e k hk f => exact ih

theorem edited (h : Written ks w w') : Edited ks w w' := by
  refine ReflTransGen.mono (fun a b hstep => ?_) _ _ h
  cases hstep with
  | modify e k hk f => exact .modify a e k hk f

theorem edits (h : Written ks w w') : Edits ks w w' :=
  h.edited.edits

end Written

/-! ## Movement, wrapping, toggles, clamp -/

theorem moveStage_written [F32 F] (fuel : Nat) (dt : F) (w : World F) :
    Written [.velocity, .transform] w (moveStage fuel dt w) := by
  refine Written.foldl id (fun w e => ?_) _ w
  show Written _ w (moveEntity fuel dt w e)
  unfold moveEntity
  split
  · exact (Written.modify w e (by decide) _).trans (Written.modify _ e (by decide) _)
  · exact ReflTransGen.refl

theorem wrapStage_written [F32 F] (bimap : BiMap NetworkId Entity) (w : World F) :
    Written [.transform] w (wrapStage bimap w) := by
  refine Written.foldl id (fun w e => ?_) _ w
  show Written _ w (wrapEntity _ w e)
  unfold wrapEntity
  split
  · dsimp only
    split
    · -- the two coordinates are wrapped one after the other
      apply Written.ite
      · refine Written.andModify ?_ e (by decide) _
        apply Written.ite
        · exact Written.modify w e (by decide) _
        · exact ReflTransGen.refl
      · apply Written.ite
        · exact Written.modify w e (by decide) _
        · exact ReflTransGen.refl
    · exact ReflTransGen.refl
  · exact ReflTransGen.refl

variable (w : World F)

theorem toggleStage_written : Written [.extractionBeam] w (toggleStage w) := by
  refine Written.foldl id (fun w e => ?_) _ w
  show Written _ w (toggleEntity w e)
  unfold toggleEntity
  split
  · exact Written.ite (Written.modify w e (by decide) _) (ReflTransGen.refl)
  · exact ReflTransGen.refl

theorem clampStage_written [F32 F] : Written [.transform, .velocity] w (clampStage w) := by
  refine Written.foldl id (fun w e => ?_) _ w
  show Written _ w (clampEntity w e)
  unfold clampEntity
  split
  · apply Written.ite
    · refine Written.andModify ?_ e (by decide) _
      apply Written.ite
      · exact Written.modify w e (by decide) _
      · exact ReflTransGen.refl
    · apply Written.ite
      · exact Written.modify w e (by decide) _
      · exact ReflTransGen.refl
  · exact ReflTransGen.refl

theorem motionStage_written [F32 F] (P : Platform F) (a : BevyWorldAdapter F) :
    Written [.velocity, .transform, .extractionBeam] a.world (a.motionStage P).world := by
  unfold BevyWorldAdapter.motionStage BevyWorldAdapter.onWorld
  dsimp only
  have hmove := moveStage_written P.headingFuel (1.0 / F32.ofU64 a.tickRate) a.world
  generalize moveStage P.headingFuel (1.0 / F32.ofU64 a.tickRate) a.world = w₁ at hmove ⊢
  have hwrap := wrapStage_written a.bimap w₁
  have htoggle := toggleStage_written (wrapStage a.bimap w₁)
  exact ((hmove.mono (by decide)).trans (hwrap.mono (by decide))).trans (htoggle.mono (by decide))

/-! ## Extraction and collection -/

theorem disableBeams_written (es : List Entity) (w : World F) :
    Written [.extractionBeam] w (es.foldl disableBeam w) :=
  Written.foldl id (fun w e => Written.modify w e (by decide) _) es w

theorem executeTransfer_written (t : Transfer) :
    Written [.dataStore, .resource] w (executeTransfer w t) := by
  unfold executeTransfer
  split
  · refine Written.ite ?_ (ReflTransGen.refl)
    exact (Written.modify w _ (by decide) _).trans (Written.modify _ _ (by decide) _)
  · exact ReflTransGen.refl

/-- The world when the extraction starts to look for exhausted resources. -/
def afterTransfers [F32 F] (w : World F) (bimap : BiMap NetworkId Entity) : World F :=
  let (attempts, unmapped) :=
    (w.query [.extractionBeam, .transform, .dataStore]).foldl (collectAttempt w bimap) ([], [])
  let (transfers, disabled) := attempts.foldl (validateAttempt w) ([], unmapped)
  transfers.foldl executeTransfer (disabled.foldl disableBeam w)

theorem processExtraction_eq [F32 F] (bimap : BiMap NetworkId Entity) :
    processExtraction w bimap = handleResourceExhaustion (afterTransfers w bimap) bimap := rfl

theorem afterTransfers_shape [F32 F] (bimap : BiMap NetworkId Entity) :
    ∃ (disabled : List Entity) (transfers : List Transfer),
      afterTransfers w bimap = transfers.foldl executeTransfer (disabled.foldl disableBeam w) :=
  ⟨_, _, rfl⟩

theorem afterTransfers_written [F32 F] (bimap : BiMap NetworkId Entity) :
    Written [.extractionBeam, .dataStore, .resource] w (afterTransfers w bimap) := by
  obtain ⟨disabled, transfers, hshape⟩ := afterTransfers_shape w bimap
  rw [hshape]
  exact ((disableBeams_written disabled w).mono (by decide)).trans
    ((Written.foldl id executeTransfer_written transfers _).mono (by decide))

/-- What is exhausted is announced and leaves a tracker. -/
theorem processExtraction_shape [F32 F] (bimap : BiMap NetworkId Entity) :
    ∃ (events : List (Option ClientId × WireEvent)) (trackers : List (ResourceRespawn F)),
      News events ∧ (processExtraction w bimap).1 =
        trackers.foldl spawnTracker ((afterTransfers w bimap).pushReliable events) := by
  rw [processExtraction_eq]
  refine ⟨_, _, ?_, rfl⟩
  intro ev hev
  obtain ⟨_, -, rfl⟩ := List.mem_map.mp hev
  exact ⟨_, rfl⟩

theorem takeFromDrop_written (c : Claim) : Written [.dataDropComponent] w (takeFromDrop w c).1 := by
  unfold takeFromDrop
  split
  · split
    · exact Written.modify w _ (by decide) _
    · exact Written.modify w _ (by decide) _
  · exact ReflTransGen.refl

theorem announceCollection_edited (bimap : BiMap NetworkId Entity) (w : World F) (c : Claim) :
    Edited [] w (announceCollection bimap w c) := by
  unfold announceCollection
  split
  · exact .single (.announce w _ (by simp [News]))
  · exact ReflTransGen.refl

theorem applyClaim_edited (bimap : BiMap NetworkId Entity) (acc : World F × List Entity)
    (c : Claim) : Edited [.dataStore, .dataDropComponent] acc.1 (applyClaim bimap acc c).1 := by
  unfold applyClaim
  split
  · have hstore : Written [.dataStore, .dataDropComponent] acc.1 (storePayload acc.1 c) :=
      Written.modify acc.1 c.agent (by decide) _
    have hdrop := takeFromDrop_written (storePayload acc.1 c) c
    have hannounce :=
      announceCollection_edited bimap (takeFromDrop (storePayload acc.1 c) c).1 c
    exact (hstore.edited.trans (hdrop.mono (by decide)).edited).trans (hannounce.mono (by decide))
  · exact ReflTransGen.refl

theorem processPayloadCollection_edited [F32 F] (bimap : BiMap NetworkId Entity) :
    Edited [.dataStore, .dataDropComponent] w (processPayloadCollection w bimap).1 :=
  Edited.foldl Prod.fst (applyClaim_edited bimap) _ (w, [])

/-! ## Tool use and beams -/

variable [F32 F]

omit [F32 F] in
theorem tryUseTool_written (P : Platform F) (tick : UInt64)
    (acc : World F × List (Entity × Transform F)) (e : Entity) :
    Written [.tool] acc.1 (tryUseTool P tick acc e).1 := by
  unfold tryUseTool
  split
  · dsimp only
    split
    · split
      · exact Written.modify _ e (by decide) _
      · exact .refl
    · exact .refl
  · exact .refl

theorem requestBeam_eq (bimap : BiMap NetworkId Entity) (w : World F)
    (attempt : Entity × Transform F) :
    ∃ spawn, requestBeam bimap w attempt =
      { w with beamSpawnRequests := w.beamSpawnRequests.map (· ++ [spawn]) } := ⟨_, rfl⟩

/-- Asking for beams only appends to the requests. -/
theorem requestBeams_eq (bimap : BiMap NetworkId Entity) (attempts : List (Entity × Transform F))
    (w : World F) :
    ∃ spawns, attempts.foldl (requestBeam bimap) w =
      { w with beamSpawnRequests := w.beamSpawnRequests.map (· ++ spawns) } := by
  induction attempts generalizing w with
  | nil => exact ⟨[], by simp⟩
  | cons attempt attempts ih =>
    obtain ⟨spawn, hspawn⟩ := requestBeam_eq bimap w attempt
    obtain ⟨spawns, hspawns⟩ := ih (requestBeam bimap w attempt)
    refine ⟨spawn :: spawns, ?_⟩
    rw [List.foldl_cons, hspawns, hspawn]
    simp [Function.comp_def]

/-- Tool use writes the tools and then asks for beams. -/
theorem processInteraction_shape (P : Platform F) (w : World F) (bimap : BiMap NetworkId Entity) :
    ∃ w' spawns, Written [.tool] w w' ∧ processInteraction P w bimap =
      { w' with beamSpawnRequests := w'.beamSpawnRequests.map (· ++ spawns) } := by
  have htools := Written.foldl Prod.fst (tryUseTool_written P w.currentServerTick)
    (w.query [.latestInput, .tool, .transform]) (w, [])
  obtain ⟨spawns, hspawns⟩ := requestBeams_eq bimap
    ((w.query [.latestInput, .tool, .transform]).foldl (tryUseTool P w.currentServerTick) (w, [])).2
    ((w.query [.latestInput, .tool, .transform]).foldl (tryUseTool P w.currentServerTick) (w, [])).1
  exact ⟨_, spawns, htools, hspawns⟩

theorem processInteraction_edits (P : Platform F) (w : World F) (bimap : BiMap NetworkId Entity) :
    Edits [.tool] w (processInteraction P w bimap) := by
  obtain ⟨w', spawns, hwritten, hshape⟩ := processInteraction_shape P w bimap
  rw [hshape]
  exact hwritten.edits.trans (Edits.of_ecs_eq _ rfl (Announces.of_eq rfl))

omit [F32 F] in
theorem applyBeamHit_written (t : Entity) :
    Written [.priorityPool, .integrityPool, .resourceIntegrity] w (applyBeamHit w t).1 := by
  unfold applyBeamHit
  cases hp : w.get t .priorityPool with
  | none =>
    dsimp only
    split
    · split
      · exact Written.modify w t (by decide) _
      · exact Written.modify w t (by decide) _
      · exact ReflTransGen.refl
    · exact ReflTransGen.refl
  | some p =>
    dsimp only
    split
    · split
      · exact (Written.modify w t (by decide) _).andModify t (by decide) _
      · exact (Written.modify w t (by decide) _).andModify t (by decide) _
      · exact Written.modify w t (by decide) _
    · exact Written.modify w t (by decide) _

/-- The components a beam can change. -/
def beamComps : List Comp := [.beamMarker, .priorityPool, .integrityPool, .resourceIntegrity]

theorem processBeam_written (bimap : BiMap NetworkId Entity) (acc : BeamAcc F) (b : BeamData F) :
    Written beamComps acc.world (processBeam bimap acc b).world := by
  unfold processBeam
  split
  · exact ReflTransGen.refl
  · dsimp only
    split
    · exact (Written.modify _ b.entity (by decide) _).trans
        ((applyBeamHit_written _ _).mono (by decide))
    · exact Written.modify _ b.entity (by decide) _

/-- Beams only report hits. -/
theorem processBeam_events (bimap : BiMap NetworkId Entity) (acc : BeamAcc F) (b : BeamData F)
    (h : ∀ ev ∈ acc.interactionEvents, ∃ source target, ev = (none, .interaction source target 25)) :
    ∀ ev ∈ (processBeam bimap acc b).interactionEvents,
      ∃ source target, ev = (none, .interaction source target 25) := by
  unfold processBeam
  split
  · exact h
  · dsimp only
    split
    · dsimp only
      split
      · next n _ =>
        intro ev hev
        rcases List.mem_append.mp hev with hold | hnew
        · exact h ev hold
        · exact ⟨b.marker.owner, n, List.mem_singleton.mp hnew⟩
      · exact h
    · exact h

theorem processBeams_shape (bimap : BiMap NetworkId Entity) :
    ∃ w' events, Written beamComps w w' ∧ (processBeams w bimap).1 = w'.pushReliable events ∧
      ∀ ev ∈ events, ∃ source target, ev = (none, .platformEvent (.interaction source target 25)) := by
  have hwritten := Written.foldl BeamAcc.world (processBeam_written bimap) (beamData w)
    ⟨w, [], [], []⟩
  have hevents : ∀ (bs : List (BeamData F)) (acc : BeamAcc F),
      (∀ ev ∈ acc.interactionEvents, ∃ source target, ev = (none, .interaction source target 25)) →
      ∀ ev ∈ (bs.foldl (processBeam bimap) acc).interactionEvents,
        ∃ source target, ev = (none, .interaction source target 25) := by
    intro bs
    induction bs with
    | nil => exact fun _ h => h
    | cons b bs ih => exact fun acc h => ih _ (processBeam_events bimap acc b h)
  refine ⟨_, _, hwritten, rfl, fun ev hev => ?_⟩
  obtain ⟨⟨c, event⟩, hev', rfl⟩ := List.mem_map.mp hev
  obtain ⟨source, target, heq⟩ := hevents (beamData w) ⟨w, [], [], []⟩ (by simp) _ hev'
  obtain ⟨rfl, rfl⟩ := Prod.mk.inj heq
  exact ⟨source, target, rfl⟩

theorem processBeams_edited (bimap : BiMap NetworkId Entity) :
    Edited beamComps w (processBeams w bimap).1 := by
  obtain ⟨w', events, hwritten, hshape, hevents⟩ := processBeams_shape w bimap
  rw [hshape]
  refine hwritten.edited.tail (.announce _ _ fun ev hev => ?_)
  obtain ⟨source, target, rfl⟩ := hevents ev hev
  exact ⟨_, rfl⟩

/-! ## Countdowns -/

omit [F32 F] in
theorem processRegen_written : Written [.priorityPool, .priorityRegenTimer] w (processRegen w) := by
  refine Written.foldl id (fun w e => ?_) _ w
  show Written _ w (regenEntity w e)
  unfold regenEntity
  split
  · dsimp only
    split
    · exact Written.modify w e (by decide) _
    · apply Written.ite
      · exact Written.modify w e (by decide) _
      · exact ReflTransGen.refl
  · exact ReflTransGen.refl

omit [F32 F] in
theorem tickRespawn_written (acc : World F × List (F × F × UInt16) × List Entity) (e : Entity) :
    Written [.resourceRespawn] acc.1 (tickRespawn acc e).1 := by
  unfold tickRespawn
  split
  · dsimp only
    split
    · exact Written.modify _ e (by decide) _
    · exact Written.modify _ e (by decide) _
  · exact ReflTransGen.refl

omit [F32 F] in
theorem tickRespawnTimer_written (acc : World F × List (F × F) × List Entity) (e : Entity) :
    Written [.respawnTimer] acc.1 (tickRespawnTimer acc e).1 := by
  unfold tickRespawnTimer
  split
  · dsimp only
    split
    · split
      · exact Written.modify _ e (by decide) _
      · exact Written.modify _ e (by decide) _
    · exact Written.modify _ e (by decide) _
  · exact ReflTransGen.refl

end Aetheris
