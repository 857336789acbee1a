import Aetheris.EcsBevy.Changes
import Aetheris.EcsBevy.Identity

/-!
# What a cleared world does next

`clear_world` despawns every networked entity and every tracker of a resource, so that nothing comes
back by itself. A terminated training target leaves a tracker too, with a `RespawnTimer`, and that
one stays: 600 ticks after the termination the target is back, in a new master workspace
(`target_returns`). Without such a timer the cleared world has no entity at all, and the simulation
leaves it like that.
-/

namespace Aetheris

open Ecs Relation

variable {F : Type}

namespace BevyWorldAdapter

/-! ## Between two operations -/

/-- A hook that makes and removes no entity, keeps identities and asks for no beam. -/
structure Tame (hook : World F → World F) : Prop where
  cards : ∀ w, KeepsCards w (hook w)
  requests : ∀ w, (hook w).beamSpawnRequests = w.beamSpawnRequests

/-- What holds between any two operations of a run: the identifier map is right, every entity has an
identifier or is a tracker, and no beam is waiting to be spawned. -/
structure Kept (a : BevyWorldAdapter F) : Prop extends Sound a where
  full : a.roster.Full
  tame : ∀ hook, a.postSimulateHook = some hook → Tame hook
  plain : ∀ r ∈ a.replicators, r.Plain
  requests : a.world.beamSpawnRequests.getD [] = []

variable {a : BevyWorldAdapter F}

/-- Built around a blank world, and given a hook. -/
theorem Fresh.kept (h : Fresh a) {hook : Option (World F → World F)}
    (hhook : ∀ f, hook = some f → Tame f) : Kept { a with postSimulateHook := hook } := by
  obtain ⟨hblank, hplain, -⟩ := h.spec
  refine ⟨h.sound_hook fun f hf => (hhook f hf).cards, ?_, hhook, hplain, hblank.requests⟩
  intro e card hcard
  have halive : a.world.alive e = true := alive_of_card hcard
  rw [hblank.alive e] at halive
  cases halive

namespace Kept

variable {a a' : BevyWorldAdapter F}

theorem of_moves (h : Kept a) (hm : Moves a a')
    (hrequests : a'.world.beamSpawnRequests.getD [] = []) : Kept a' where
  toSound := h.toSound.of_moves hm
  full := Roster.full_steps (h.toSound.steps hm) h.full
  tame hook hhook := h.tame hook (hm.setup.hook ▸ hhook)
  plain := hm.setup.replicators ▸ h.plain
  requests := hrequests

theorem of_changes (h : Kept a) (hm : Moves a a') (hc : Changes false a a') : Kept a' :=
  h.of_moves hm (hc.requests h.requests)

variable (P : Platform F)

theorem clearWorld [F32 F] (h : Kept a) : Kept (a.clearWorld P) := by
  obtain ⟨b, hmoves, -, hroster, hsetup⟩ := clearWorld_spec P a
  obtain ⟨c, hchanges, hc⟩ := clearWorld_changes P a
  refine ⟨h.toSound.clearWorld P, ?_, fun hook hhook => h.tame hook (hsetup.hook ▸ hhook),
    hsetup.replicators ▸ h.plain, ?_⟩
  · rw [hroster]
    exact fun e card => Roster.full_steps (h.toSound.steps hmoves) h.full e card
  · rw [hc]
    exact hchanges.requests h.requests

variable [F32 F]

theorem spawnSessionAgent (h : Kept a) (kind : UInt16) (x y rot : F) (c : ClientId) :
    Kept (a.spawnSessionAgent kind x y rot c).1 := by
  have hsound := h.toSound.spawnSessionAgent kind x y rot c
  have hrequests := (spawnSessionAgent_changes a kind x y rot c).requests h.requests
  obtain ⟨-, b, e, card, hmoves, -, hcard, -, -, hroster, hsetup⟩ :=
    spawnSessionAgent_spec a kind x y rot c
  have hsetup' := hmoves.setup.trans hsetup
  refine ⟨hsound, ?_, fun hook hhook => h.tame hook (hsetup'.hook ▸ hhook),
    hsetup'.replicators ▸ h.plain, hrequests⟩
  rw [hroster]
  exact Roster.full_mark (Roster.full_steps (h.toSound.steps hmoves) h.full) hcard

theorem simulate (h : Kept a) : Kept (a.simulate P) := by
  refine h.of_moves (simulate_moves P h.discreet) ?_
  have hbefore := (beamsTaken_deeds P a).changes.requests (beamsTaken_requests P a)
  have hhook := (beforeHook_moves P a).setup.hook
  rw [simulate_eq]
  generalize a.beforeHook P = b at hbefore hhook ⊢
  unfold runHook
  split
  · next hook hsome =>
    have htame := h.tame hook (hhook ▸ hsome)
    rw [onWorld, htame.requests]
    exact hbefore
  · exact hbefore

theorem run (h : Kept a) (op : Op F) : Kept (op.run P a) := by
  cases op with
  | spawnSessionAgent kind x y rot client => exact h.spawnSessionAgent kind x y rot client
  | clearWorld => exact h.clearWorld P
  | simulate => exact h.simulate P
  | advanceTick => exact h.of_moves (advanceTick_moves a) h.requests
  | extractDeltas => exact h.of_moves (extractDeltas_moves P a) h.requests
  | extractReliableEvents => exact h.of_moves (extractReliableEvents_moves a) h.requests
  | postExtract => exact h.of_moves (postExtract_moves a) h.requests
  | _ => exact h.of_changes (Op.moves P h.discreet trivial) (Op.changes P h.plain trivial)

theorem runOps (h : Kept a) (ops : List (Op F)) : Kept (a.runOps P ops) := by
  induction ops generalizing a with
  | nil => exact h
  | cons op ops ih => exact ih (h.run P op)

end Kept

/-! ## Right after a clear -/

variable (P : Platform F)

/-- The identifier map is empty, so by coherence nobody carries an identifier. -/
theorem networked_clearWorld [F32 F] (h : Sound a) (e : Entity) :
    (a.clearWorld P).world.get e .networked = none := by
  obtain ⟨b, -, hempty, hroster, -⟩ := clearWorld_spec P a
  rw [Option.eq_none_iff_forall_ne_some]
  intro n hn
  have halive : (a.clearWorld P).world.alive e = true := Storage.alive_of_get hn
  have hrel : (a.clearWorld P).roster.bimap.Rel n e :=
    ((h.clearWorld P).coherent.mapped n e).mpr (networked_iff.mpr ⟨halive, hn⟩)
  rw [hroster] at hrel
  exact hempty n e hrel

/-- What survives a clear was there before, and is no tracker of a resource. -/
theorem get_of_clearWorld {e : Entity} {k : Comp} {v : CompVal F k}
    (h : (a.clearWorld P).world.get e k = some v) :
    a.world.get e k = some v ∧ (a.clearWorld P).world.has e .resourceRespawn = false := by
  let ids := (P.bimapOrder a.bimap.pairs).map Prod.fst
  let b := ids.foldl (fun a id => (a.despawnNetworked id).1) a
  have hevolves : Evolves [] a.world b.world :=
    Evolves.foldl BevyWorldAdapter.world (fun a n => despawnNetworked_evolves [] a n) ids a
  have hget : ∀ k, (a.clearWorld P).world.get e k =
      if e ∈ b.world.query [.resourceRespawn] then none else b.world.get e k :=
    despawnAll_get _ b.world e
  have halive : b.world.alive e = true ∧ e ∉ b.world.query [.resourceRespawn] := by
    rw [hget] at h
    split at h
    · cases h
    · next hmem => exact ⟨Storage.alive_of_get h, hmem⟩
  constructor
  · rw [hget, if_neg halive.2, hevolves.get e k List.not_mem_nil halive.1] at h
    exact h
  · show ((a.clearWorld P).world.get e .resourceRespawn).isSome = false
    rw [hget, if_neg halive.2]
    by_contra hhas
    have hhas' : b.world.has e .resourceRespawn = true := Bool.eq_true_of_not_eq_false hhas
    exact halive.2 (World.mem_query.mpr ⟨halive.1, by simpa using hhas'⟩)

/-- Every entity is mapped or a tracker. The mapped ones are gone, and so are the trackers of
resources; a tracker of a training target would be left. -/
theorem Kept.alive_clearWorld [F32 F] (h : Kept a)
    (htimers : ∀ e, a.world.has e .respawnTimer = false) (e : Entity) :
    (a.clearWorld P).world.alive e = false := by
  by_contra hne
  have halive := Bool.eq_true_of_not_eq_false hne
  rcases (h.clearWorld P).full e _ (World.card_of_alive halive) with hnet | htracker
  · exact hnet (networked_clearWorld P h.toSound e)
  · rcases Bool.or_eq_true _ _ |>.mp htracker with hresource | htimer
    · obtain ⟨v, hv⟩ := Option.isSome_iff_exists.mp hresource
      rw [(get_of_clearWorld P hv).2] at hresource
      cases hresource
    · obtain ⟨v, hv⟩ := Option.isSome_iff_exists.mp htimer
      have hold : a.world.has e .respawnTimer = true :=
        Option.isSome_iff_exists.mpr ⟨v, (get_of_clearWorld P hv).1⟩
      rw [htimers e] at hold
      cases hold

end BevyWorldAdapter

/-! ## Worlds with nothing but trackers of training targets -/

def Idle (w : World F) : Prop :=
  ∀ e k, w.has e k = true → k = .trainingTarget ∨ k = .respawnTimer

namespace Idle

theorem of_not_alive {w : World F} (h : ∀ e, w.alive e = false) : Idle w := by
  intro e k hk
  have hnone : w.get e k = none := World.get_of_not_alive (h e) k
  rw [show w.has e k = (w.get e k).isSome from rfl, hnone] at hk
  cases hk

theorem query {w : World F} (h : Idle w) {ks : List Comp}
    (hks : ∃ k ∈ ks, k ≠ .trainingTarget ∧ k ≠ .respawnTimer) : w.query ks = [] := by
  obtain ⟨k, hk, htarget, htimer⟩ := hks
  rw [List.eq_nil_iff_forall_not_mem]
  intro e he
  rcases h e k ((World.mem_query.mp he).2 k hk) with heq | heq
  · exact htarget heq
  · exact htimer heq

variable [F32 F] {a : BevyWorldAdapter F}

theorem motionStage (P : Platform F) (h : Idle a.world) : a.motionStage P = a := by
  have hmove : moveStage P.headingFuel (1.0 / F32.ofU64 a.tickRate) a.world = a.world := by
    rw [moveStage, h.query (by decide), List.foldl_nil]
  have hwrap : wrapStage a.bimap a.world = a.world := by
    rw [wrapStage, h.query (by decide), List.foldl_nil]
  have htoggle : toggleStage a.world = a.world := by
    rw [toggleStage, h.query (by decide), List.foldl_nil]
  rw [BevyWorldAdapter.motionStage, BevyWorldAdapter.onWorld, hmove, hwrap, htoggle]

theorem extractionStage (h : Idle a.world) : BevyWorldAdapter.extractionStage (a, []) = (a, []) := by
  have hexhausted : exhaustedResources a.world a.bimap = [] := by
    rw [exhaustedResources, h.query (by decide), List.filterMap_nil]
  have hextract : processExtraction a.world a.bimap = (a.world, []) := by
    rw [processExtraction, h.query (by decide)]
    simp [handleResourceExhaustion, hexhausted, World.pushReliable_nil]
  rw [BevyWorldAdapter.extractionStage, hextract]
  rfl

theorem gameplayStage (P : Platform F) (h : Idle a.world) : a.gameplayStage P = a := by
  have hinteract : processInteraction P a.world a.bimap = a.world := by
    rw [processInteraction, h.query (by decide)]
    rfl
  have hcollect : BevyWorldAdapter.collectionStage (a, []) = (a, []) := by
    rw [BevyWorldAdapter.collectionStage, processPayloadCollection, collectClaims,
      h.query (by decide)]
    rfl
  have hbeams : BevyWorldAdapter.beamStage (a, []) = (a, []) := by
    rw [BevyWorldAdapter.beamStage, processBeams, beamData, h.query (by decide)]
    simp [World.pushReliable_nil]
  rw [BevyWorldAdapter.gameplayStage, h.extractionStage]
  dsimp only
  rw [hinteract, hcollect, hbeams]
  dsimp only
  rw [BevyWorldAdapter.onWorld, World.pushReliable_nil]

/-- Only the countdowns of training targets go on. -/
theorem beforeHook (P : Platform F) (h : Idle a.world)
    (hrequests : a.world.beamSpawnRequests.getD [] = []) :
    a.beforeHook P = a.reinitStage.respawnStage.onWorld clampStage := by
  have hbeams : a.spawnBeams = a := by
    have hnone : (a.world.beamSpawnRequests.map fun _ => []) = a.world.beamSpawnRequests := by
      cases hspawns : a.world.beamSpawnRequests with
      | none => rfl
      | some spawns =>
        rw [hspawns, Option.getD_some] at hrequests
        rw [hrequests, Option.map_some]
    rw [BevyWorldAdapter.spawnBeams, hrequests, List.foldl_nil, BevyWorldAdapter.onWorld, hnone]
  have hregen : a.onWorld processRegen = a := by
    rw [BevyWorldAdapter.onWorld, processRegen, h.query (by decide), List.foldl_nil]
  rw [BevyWorldAdapter.beforeHook, h.motionStage, h.gameplayStage, hbeams, hregen]

end Idle

namespace BevyWorldAdapter

variable [F32 F] (P : Platform F)

/-! ## Ticks of an empty world -/

/-- What a tick does to the world when nobody asks for anything. -/
def Op.IsTick : Op F → Prop
  | .advanceTick | .simulate | .extractDeltas | .extractReliableEvents | .postExtract => True
  | _ => False

variable {a : BevyWorldAdapter F} {e : Entity}

theorem beforeHook_of_not_alive (hempty : ∀ e, a.world.alive e = false)
    (hrequests : a.world.beamSpawnRequests.getD [] = []) : a.beforeHook P = a := by
  have hquery : ∀ ks, a.world.query ks = [] := by
    intro ks
    rw [List.eq_nil_iff_forall_not_mem]
    intro e he
    have halive := (World.mem_query.mp he).1
    rw [hempty e] at halive
    cases halive
  have hreinit : a.reinitStage = a := by
    rw [reinitStage, processTargetReinitialization, hquery]
    rfl
  have hrespawn : a.respawnStage = a := by
    rw [respawnStage, processRespawn, hquery]
    rfl
  have hclamp : a.onWorld clampStage = a := by
    rw [onWorld, clampStage, hquery, List.foldl_nil]
  rw [(Idle.of_not_alive hempty).beforeHook P hrequests, hreinit, hrespawn, hclamp]

omit [F32 F] in
/-- A hook that makes no entity makes none in an empty world. -/
theorem alive_runHook (h : Kept a)
    (hdead : a.world.alive e = false) : a.runHook.world.alive e = false := by
  unfold runHook
  split
  · next hook hhook =>
    have hcard : (hook a.world).card e = a.world.card e :=
      congrFun ((h.tame hook hhook).cards a.world).card e
    rw [World.card_eq_none.mpr hdead] at hcard
    exact World.card_eq_none.mp hcard
  · exact hdead

theorem Kept.alive_run (h : Kept a) (hempty : ∀ e, a.world.alive e = false)
    {op : Op F} (hop : op.IsTick) (e : Entity) : (op.run P a).world.alive e = false := by
  cases op with
  | simulate =>
    rw [Op.run, simulate_eq, beforeHook_of_not_alive P hempty h.requests]
    exact alive_runHook h (hempty e)
  | advanceTick => exact hempty e
  | extractDeltas => exact hempty e
  | extractReliableEvents => exact hempty e
  | postExtract => exact hempty e
  | _ => exact hop.elim

theorem Kept.alive_runOps (h : Kept a)
    (hempty : ∀ e, a.world.alive e = false) {ops : List (Op F)} (hops : ∀ op ∈ ops, op.IsTick)
    (e : Entity) : (a.runOps P ops).world.alive e = false := by
  induction ops generalizing a with
  | nil => exact hempty e
  | cons op ops ih =>
    obtain ⟨hop, hops⟩ := List.forall_mem_cons.mp hops
    exact ih (h.run P op) (h.alive_run P hempty hop) hops

/-- After any run of an adapter, a clear leaves no networked entity; and if no entity carried a
`RespawnTimer` when the world was cleared, no number of ticks brings one back. -/
theorem cleared_stays_clear {a : BevyWorldAdapter F} (h : Fresh a)
    {hook : Option (World F → World F)} (hhook : ∀ f, hook = some f → Tame f)
    (ops ticks : List (Op F)) (hticks : ∀ op ∈ ticks, op.IsTick) :
    let b := runOps P { a with postSimulateHook := hook } ops
    (∀ e, (b.clearWorld P).world.get e .networked = none) ∧
      ((∀ e, b.world.has e .respawnTimer = false) →
        ∀ e, ((b.clearWorld P).runOps P ticks).world.get e .networked = none) := by
  have hb := (h.kept hhook).runOps P ops
  intro b
  refine ⟨networked_clearWorld P hb.toSound, fun htimers e => ?_⟩
  have hempty := hb.alive_clearWorld P htimers
  exact World.get_of_not_alive ((hb.clearWorld P).alive_runOps P hempty hticks e) _

/-- A session agent and a second entity, cleared, and then two ticks. -/
theorem cleared_stays_clear_agent :
    let a : BevyWorldAdapter ℚ := newWithRng World.new 60 ⟨1, 0⟩
    let b := runOps rationalPlatform { a with postSimulateHook := some id }
      [.spawnSessionAgent 1 0 0 0 ⟨7⟩, .spawnNetworked, .simulate]
    (∀ e, b.world.has e .respawnTimer = false) ∧
      (∀ e, (b.clearWorld rationalPlatform).world.get e .networked = none) ∧
      ∀ e, ((b.clearWorld rationalPlatform).runOps rationalPlatform
        [.advanceTick, .simulate, .extractDeltas, .extractReliableEvents, .postExtract, .advanceTick,
          .simulate]).world.get e .networked = none := by
  intro a b
  have htimers : ∀ e, b.world.has e .respawnTimer = false := by
    have hquery : b.world.query [.respawnTimer] = [] := by decide +kernel
    intro e
    by_contra hne
    have hhas := Bool.eq_true_of_not_eq_false hne
    have hmem : e ∈ b.world.query [.respawnTimer] :=
      World.mem_query.mpr ⟨World.alive_of_has hhas, by simpa using hhas⟩
    rw [hquery] at hmem
    cases hmem
  have hid : ∀ f, some id = some f → Tame (F := ℚ) f := by
    rintro f ⟨⟩
    exact ⟨fun _ => ⟨rfl, rfl⟩, fun _ => rfl⟩
  have hclear := cleared_stays_clear rationalPlatform
    (.newWithRng World.new blank_new 60 ⟨1, 0⟩ [] (by simp)) hid
    [.spawnSessionAgent 1 0 0 0 ⟨7⟩, .spawnNetworked, .simulate]
    [.advanceTick, .simulate, .extractDeltas, .extractReliableEvents, .postExtract, .advanceTick,
      .simulate] (by simp [Op.IsTick])
  exact ⟨htimers, hclear.1, hclear.2 htimers⟩

/-! ## A tracker that survives the clear -/

/-- The only thing in the world is a tracker with `delay` ticks to go. -/
structure Lonely (a : BevyWorldAdapter F) (e : Entity) (delay : UInt16) : Prop where
  idle : Idle a.world
  only : ∀ e', a.world.has e' .respawnTimer = true → e' = e
  timer : ∃ x y, a.world.get e .respawnTimer = some ⟨delay, .coordinate x y⟩
  hook : a.postSimulateHook = none
  requests : a.world.beamSpawnRequests.getD [] = []

namespace Lonely

variable {a : BevyWorldAdapter F} {e : Entity} {delay : UInt16}

omit [F32 F] in
theorem query (h : Lonely a e delay) : a.world.query [.respawnTimer] = [e] := by
  obtain ⟨x, y, htimer⟩ := h.timer
  have hhas : a.world.has e .respawnTimer = true := Option.isSome_iff_exists.mpr ⟨_, htimer⟩
  refine List.perm_singleton.mp ((List.perm_ext_iff_of_nodup (World.nodup_query _ _)
    (List.nodup_singleton e)).mpr fun e' => ?_)
  rw [World.mem_query, List.mem_singleton]
  constructor
  · exact fun he' => h.only e' (he'.2 _ (List.mem_singleton.mpr rfl))
  · rintro rfl
    exact ⟨World.alive_of_has hhas, by simpa using hhas⟩

/-- More than one tick to go: one less after the simulation. -/
theorem simulate (h : Lonely a e delay) (hdelay : delay.satSub 1 ≠ 0) :
    Lonely (a.simulate P) e (delay.satSub 1) := by
  obtain ⟨x, y, htimer⟩ := h.timer
  let w := a.world.modify e .respawnTimer fun t : RespawnTimer F =>
    { t with delayTicks := delay.satSub 1 }
  have hidle : Idle w := fun e' k hk => h.idle e' k (by rwa [World.has_modify] at hk)
  have hreinit : a.reinitStage = { a with world := w } := by
    rw [reinitStage, processTargetReinitialization, h.query]
    simp [tickRespawnTimer, htimer, hdelay, w]
  have hrespawn : { a with world := w }.respawnStage = { a with world := w } := by
    rw [respawnStage, processRespawn, hidle.query (by decide)]
    rfl
  have hclamp : clampStage w = w := by
    rw [clampStage, hidle.query (by decide), List.foldl_nil]
  have hsimulate : a.simulate P = { a with world := w } := by
    rw [simulate_eq, h.idle.beforeHook P h.requests, hreinit, hrespawn, onWorld, hclamp, runHook,
      h.hook]
  rw [hsimulate]
  refine ⟨hidle, fun e' he' => h.only e' (by rwa [World.has_modify] at he'), ⟨x, y, ?_⟩, h.hook,
    h.requests⟩
  show w.get e .respawnTimer = _
  rw [World.get_modify_self, htimer]
  rfl

/-- At the end of the countdown the tracker asks for a target. -/
theorem reinitStage_last (h : Lonely a e delay) (hdelay : delay.satSub 1 = 0) :
    ∃ n e', a.reinitStage.bimap.Rel n e' := by
  obtain ⟨x, y, htimer⟩ := h.timer
  have htarget : ∃ w, a.reinitStage = { a with world := w }.respawnTarget (x, y) := by
    rw [reinitStage, processTargetReinitialization, h.query]
    simp only [List.foldl_cons, List.foldl_nil, tickRespawnTimer, htimer, hdelay, if_true,
      List.nil_append]
    exact ⟨_, rfl⟩
  obtain ⟨w, hw⟩ := htarget
  rw [hw]
  obtain ⟨-, e', hrel, -⟩ := spawnKind_spec { a with world := w } entityTypeTrainingTarget x y 0.0
  exact ⟨_, e', hrel⟩

/-- The last stages of the simulation leave the target where it is. -/
theorem simulate_last (h : Lonely a e delay) (hb : a.roster.Bounded)
    (hdelay : delay.satSub 1 = 0) : ∃ n e', (a.simulate P).bimap.Rel n e' := by
  have hmoves := (reinitStage_deeds a).moves
  obtain ⟨n, e', hrel⟩ := h.reinitStage_last hdelay
  rw [simulate_eq, h.idle.beforeHook P h.requests]
  generalize a.reinitStage = b at hmoves hrel ⊢
  have hgrows := respawnStage_grows b
  have hhook : b.respawnStage.postSimulateHook = none :=
    (hmoves.setup.trans hgrows.setup).hook.trans h.hook
  have hrel' := hgrows.rel (Roster.bounded_steps (hmoves.steps _ (Nat.le_refl _) hb) hb) n e' hrel
  generalize b.respawnStage = c at hhook hrel' ⊢
  refine ⟨n, e', ?_⟩
  rw [onWorld, runHook, hhook]
  exact hrel'

end Lonely

/-- However long the countdown is, the target comes back. -/
theorem Lonely.returns {delay : UInt16} (hkept : Kept a) (h : Lonely a e delay) :
    ∃ k n e', (a.runOps P (List.replicate k .simulate)).bimap.Rel n e' := by
  -- the induction is on the ticks to go, and every tick but the last keeps the tracker alone
  induction hd : delay.toNat using Nat.strong_induction_on generalizing a delay with
  | _ d ih =>
    by_cases hlast : delay.satSub 1 = 0
    · obtain ⟨n, e', hrel⟩ := h.simulate_last P hkept.coherent.toBounded hlast
      refine ⟨1, n, e', ?_⟩
      rw [List.replicate_one, runOps_cons, runOps_nil, Op.run]
      exact hrel
    · have hlt : (delay.satSub 1).toNat < d := by
        have hne : (delay.satSub 1).toNat ≠ 0 := fun h0 => hlast (UInt16.toNat_inj.mp h0)
        rw [UInt16.toNat_satSub, hd, show (1 : UInt16).toNat = 1 from rfl] at hne ⊢
        omega
      obtain ⟨k, n, e', hrel⟩ := ih _ hlt (hkept.simulate P) (h.simulate P hlast) rfl
      refine ⟨k + 1, n, e', ?_⟩
      rw [List.replicate_succ, runOps_cons, Op.run]
      exact hrel

/-- A training target and six beams in the same place, and one tick: the target is terminated. -/
def shootingOps : List (Op ℚ) :=
  .spawnKind entityTypeTrainingTarget 0 0 0 ::
    List.replicate 6 (.spawnKind entityTypeBeam 0 0 0) ++ [.simulate]

/-- The adapter cleared right after that tick. -/
def clearedAdapter : BevyWorldAdapter ℚ :=
  ((newWithRng World.new 60 ⟨1, 0⟩).runOps rationalPlatform shootingOps).clearWorld rationalPlatform

theorem arena_kept : Kept ((newWithRng World.new 60 ⟨1, 0⟩ : BevyWorldAdapter ℚ)) :=
  (Fresh.newWithRng World.new blank_new 60 ⟨1, 0⟩ [] (by simp)).kept nofun

theorem clearedAdapter_kept : Kept clearedAdapter :=
  (arena_kept.runOps rationalPlatform shootingOps).clearWorld rationalPlatform

/-- Of the target only its tracker is left. -/
theorem clearedAdapter_lonely : Lonely clearedAdapter ⟨9⟩ 599 := by
  have hentities : clearedAdapter.world.ecs.entities = [⟨9⟩] := by decide +kernel
  have hcomps : ∀ k, clearedAdapter.world.has ⟨9⟩ k = true →
      k = .trainingTarget ∨ k = .respawnTimer := by
    decide +kernel
  have htimer : (clearedAdapter.world.get ⟨9⟩ .respawnTimer : Option (RespawnTimer ℚ)) =
      some ⟨599, .coordinate 50 50⟩ := by
    decide +kernel
  have hhook : clearedAdapter.postSimulateHook.isNone = true := by decide +kernel
  have honly : ∀ e k, clearedAdapter.world.has e k = true → e = ⟨9⟩ := by
    intro e k hk
    have hmem := (Storage.mem_entities _ e).mpr (World.alive_of_has hk)
    rw [hentities] at hmem
    exact List.mem_singleton.mp hmem
  refine ⟨fun e k hk => ?_, fun e => honly e _, ⟨50, 50, htimer⟩,
    Option.isNone_iff_eq_none.mp hhook, clearedAdapter_kept.requests⟩
  obtain rfl := honly e k hk
  exact hcomps k hk

/-- The world is cleared, nobody spawns anything, and the simulation brings the target back. -/
theorem target_returns :
    ∃ (a : BevyWorldAdapter ℚ) (ops ticks : List (Op ℚ)), Fresh a ∧
      (∀ op ∈ ticks, op.IsTick) ∧
      ∃ e, (((a.runOps rationalPlatform ops).clearWorld rationalPlatform).runOps rationalPlatform
        ticks).world.get e .networked ≠ none := by
  obtain ⟨k, n, e, hrel⟩ := clearedAdapter_lonely.returns rationalPlatform clearedAdapter_kept
  refine ⟨newWithRng World.new 60 ⟨1, 0⟩, shootingOps, List.replicate k .simulate,
    .newWithRng World.new blank_new 60 ⟨1, 0⟩ [] (by simp), ?_, e, ?_⟩
  · intro op hop
    rw [List.eq_of_mem_replicate hop]
    trivial
  · have hcoherent :=
      (clearedAdapter_kept.runOps rationalPlatform (List.replicate k .simulate)).coherent
    obtain ⟨-, hn⟩ := networked_iff.mp ((hcoherent.mapped n e).mp hrel)
    rw [clearedAdapter] at hn
    rw [hn]
    exact Option.some_ne_none n

end BevyWorldAdapter

end Aetheris
