import Aetheris.EcsBevy.Scene
import Aetheris.Lib.Saturating

/-!
# Respawn delays

What leaves the game for a while leaves a tracker behind, an entity without an identifier that counts
down once in every simulation step and is replaced by a new resource or training target when it
reaches zero. Resources and training targets have trackers of their own; both are a `Clock` here.

Between two steps nothing touches a tracker, and in a step nothing but its own countdown does. So the
step that replaces it is known when it is created (`Waits.due_iff`). A tracker is created and counted
down for the first time in one and the same step: the tracker of a resource starts one higher to make
up for it, that of a training target does not.
-/

namespace Aetheris

open Ecs Relation

variable {F : Type}

/-! ## Clocks -/

/-- A component that counts down, with what is left of it. -/
structure Clock (F : Type) where
  comp : Comp
  left : CompVal F comp → Nat
  tick : CompVal F comp → CompVal F comp
  left_tick : ∀ v, left (tick v) = left v - 1

def resourceClock : Clock F where
  comp := .resourceRespawn
  left r := r.remaining.toNat
  tick r := { r with remaining := r.remaining.satSub 1 }
  left_tick r := UInt32.toNat_satSub r.remaining 1

def targetClock : Clock F where
  comp := .respawnTimer
  left t := t.delayTicks.toNat
  tick t := { t with delayTicks := t.delayTicks.satSub 1 }
  left_tick t := UInt16.toNat_satSub t.delayTicks 1

namespace Clock

variable (c : Clock F)

/-- The next countdown of `e` reaches zero. -/
def isDue (w : World F) (e : Entity) : Bool := (w.get e c.comp).any fun v => decide (c.left v ≤ 1)

def due (w : World F) : List Entity := (w.query [c.comp]).filter (c.isDue w)

def tickAll (w : World F) (es : List Entity) : World F :=
  es.foldl (fun w e => w.modify e c.comp c.tick) w

/-- Everything counts down, and what reaches zero goes. -/
def pass (w : World F) : World F :=
  (c.due w).foldl World.despawn (c.tickAll w (w.query [c.comp]))

/-- A loop body that counts one entity down and lists it, with its `out`, when it is due. -/
def Counts {α : Type} (out : CompVal F c.comp → List α)
    (f : World F × List α × List Entity → Entity → World F × List α × List Entity) : Prop :=
  ∀ acc e, f acc e = (acc.1.modify e c.comp c.tick,
    if c.isDue acc.1 e then (acc.2.1 ++ (acc.1.get e c.comp).elim [] out, acc.2.2 ++ [e])
    else acc.2)

variable {c} {α : Type} {out : CompVal F c.comp → List α}
  {f : World F × List α × List Entity → Entity → World F × List α × List Entity}

theorem Counts.of_cases (hnone : ∀ acc e, acc.1.get e c.comp = none → f acc e = acc)
    (hsome : ∀ acc e v, acc.1.get e c.comp = some v → f acc e = (acc.1.modify e c.comp c.tick,
      if c.left v ≤ 1 then (acc.2.1 ++ out v, acc.2.2 ++ [e]) else acc.2)) : c.Counts out f := by
  intro acc e
  cases hv : acc.1.get e c.comp with
  | none =>
    rw [hnone acc e hv, World.modify_of_none _ _ hv, isDue, hv]
    rfl
  | some v =>
    rw [hsome acc e v hv, isDue, hv]
    simp

/-- The loop over different entities, of which the ones ahead are as they were. -/
theorem Counts.foldl (h : c.Counts out f) (w : World F) (es : List Entity) (hnodup : es.Nodup)
    (acc : World F × List α × List Entity) (hacc : ∀ e ∈ es, acc.1.get e c.comp = w.get e c.comp) :
    es.foldl f acc = (c.tickAll acc.1 es,
      acc.2.1 ++ (es.filter (c.isDue w)).flatMap (fun e => (w.get e c.comp).elim [] out),
      acc.2.2 ++ es.filter (c.isDue w)) := by
  induction es generalizing acc with
  | nil => simp [tickAll]
  | cons e es ih =>
    obtain ⟨hfresh, hnodup⟩ := List.nodup_cons.mp hnodup
    obtain ⟨he, hes⟩ := List.forall_mem_cons.mp hacc
    have hdue : c.isDue acc.1 e = c.isDue w e := by rw [isDue, he, isDue]
    have hahead : ∀ e' ∈ es, (f acc e).1.get e' c.comp = w.get e' c.comp := by
      intro e' he'
      have hne : e' ≠ e := by
        rintro rfl
        exact hfresh he'
      rw [h acc e, World.get_modify_of_ne _ _ (Or.inl hne), hes e' he']
    rw [List.foldl_cons, ih hnodup (f acc e) hahead, h acc e, hdue, he, tickAll, tickAll,
      List.foldl_cons]
    by_cases hd : c.isDue w e = true
    · simp [hd]
    · simp [hd]

/-- The whole countdown as one pass. -/
theorem Counts.pass (h : c.Counts out f) (w : World F) :
    let acc := (w.query [c.comp]).foldl f (w, [], [])
    (acc.2.2.foldl World.despawn acc.1, acc.2.1) =
      (c.pass w, (c.due w).flatMap fun e => (w.get e c.comp).elim [] out) := by
  intro acc
  have hacc := h.foldl w (w.query [c.comp]) (w.nodup_query _) (w, [], []) fun _ _ => rfl
  simp only [acc, hacc, List.nil_append, Clock.pass, due]

end Clock

/-! ## The two countdowns -/

theorem UInt32.satSub_one_eq_zero (n : UInt32) : n.satSub 1 = 0 ↔ n.toNat ≤ 1 := by
  rw [← UInt32.toNat_inj, UInt32.toNat_satSub]
  show n.toNat - 1 = 0 ↔ n.toNat ≤ 1
  omega

theorem UInt16.satSub_one_eq_zero (n : UInt16) : n.satSub 1 = 0 ↔ n.toNat ≤ 1 := by
  rw [← UInt16.toNat_inj, UInt16.toNat_satSub]
  show n.toNat - 1 = 0 ↔ n.toNat ≤ 1
  omega

/-- What a tracker asks for: a place and a capacity. -/
def ResourceRespawn.request (r : ResourceRespawn F) : F × F × UInt16 := (r.x, r.y, r.totalCapacity)

/-- The place a training target comes back to; there is none for the other locations. -/
def RespawnTimer.place (t : RespawnTimer F) : List (F × F) :=
  match t.location with
  | .coordinate x y => [(x, y)]
  | .other _ => []

theorem tickRespawn_counts :
    (resourceClock (F := F)).Counts (fun r => [ResourceRespawn.request r]) tickRespawn := by
  refine Clock.Counts.of_cases (fun acc e hnone => ?_) fun acc e v hv => ?_
  · have hget : acc.1.get e .resourceRespawn = none := hnone
    simp only [tickRespawn, hget]
  · have hget : acc.1.get e .resourceRespawn = some v := hv
    have htick : acc.1.modify e .resourceRespawn resourceClock.tick = acc.1.modify e
        .resourceRespawn fun r : ResourceRespawn F =>
          { r with remaining := (ResourceRespawn.remaining v).satSub 1 } :=
      World.modify_congr _ hget rfl
    simp only [tickRespawn, hget, UInt32.satSub_one_eq_zero]
    rw [← htick]
    show ite _ _ _ = (_, if (ResourceRespawn.remaining v).toNat ≤ 1 then _ else _)
    split
    · rfl
    · rfl

theorem tickRespawnTimer_counts :
    (targetClock (F := F)).Counts RespawnTimer.place tickRespawnTimer := by
  refine Clock.Counts.of_cases (fun acc e hnone => ?_) fun acc e v hv => ?_
  · have hget : acc.1.get e .respawnTimer = none := hnone
    simp only [tickRespawnTimer, hget]
  · have hget : acc.1.get e .respawnTimer = some v := hv
    have htick : acc.1.modify e .respawnTimer targetClock.tick = acc.1.modify e .respawnTimer
        fun t : RespawnTimer F => { t with delayTicks := (RespawnTimer.delayTicks v).satSub 1 } :=
      World.modify_congr _ hget rfl
    simp only [tickRespawnTimer, hget, UInt16.satSub_one_eq_zero]
    rw [← htick]
    show ite _ _ _ = (_, if (RespawnTimer.delayTicks v).toNat ≤ 1 then _ else _)
    unfold RespawnTimer.place
    split
    · cases (RespawnTimer.location v) with
      | coordinate x y => rfl
      | other =>
        rw [List.append_nil]
        rfl
    · rfl

/-- The trackers that ask for a resource now. -/
theorem processRespawn_eq (w : World F) : processRespawn w = (resourceClock.pass w,
    (resourceClock.due w).flatMap fun e =>
      (w.get e .resourceRespawn).elim [] fun r => [ResourceRespawn.request r]) :=
  tickRespawn_counts.pass w

theorem processTargetReinitialization_eq (w : World F) : processTargetReinitialization w =
    (targetClock.pass w, (targetClock.due w).flatMap fun e =>
      (w.get e .respawnTimer).elim [] RespawnTimer.place) :=
  tickRespawnTimer_counts.pass w

/-! ## Trackers -/

namespace BevyWorldAdapter

/-- A tracker with `v` on its clock: it has no identifier, and nothing else counts it. -/
structure Waits (c : Clock F) (a : BevyWorldAdapter F) (t : Entity) (v : CompVal F c.comp) :
    Prop where
  known : t.id < a.world.ecs.next
  unmapped : ∀ n, ¬ a.bimap.Rel n t
  value : a.world.get t c.comp = some v
  bare : ∀ k, a.world.has t k = true → k = c.comp ∨ k = .trainingTarget

/-- An entity that was there and is not any more. -/
structure Gone (a : BevyWorldAdapter F) (t : Entity) : Prop where
  known : t.id < a.world.ecs.next
  dead : a.world.alive t = false

namespace Waits

variable {c : Clock F} {a a' : BevyWorldAdapter F} {t : Entity} {v : CompVal F c.comp}

theorem alive (h : Waits c a t v) : a.world.alive t = true :=
  World.alive_of_has (Option.isSome_iff_exists.mpr ⟨v, h.value⟩)

/-- Nothing is done to it. -/
theorem of_same (h : Waits c a t v) (hnext : a.world.ecs.next ≤ a'.world.ecs.next)
    (hget : ∀ k, a'.world.get t k = a.world.get t k)
    (hrel : ∀ n, a'.bimap.Rel n t → a.bimap.Rel n t) : Waits c a' t v where
  known := Nat.lt_of_lt_of_le h.known hnext
  unmapped n hn := h.unmapped n (hrel n hn)
  value := (hget _).trans h.value
  bare k hk := h.bare k ((congrArg Option.isSome (hget k)).symm.trans hk)

theorem leaves (h : Waits c a t v) (hleaves : Leaves a a') : Waits c a' t v :=
  h.of_same hleaves.next (hleaves.get t h.known) fun n => hleaves.rel n t h.known

/-- It has no identifier to be despawned by. -/
theorem despawn (h : Waits c a t v) (n : NetworkId) : Waits c (a.despawnNetworked n).1 t v := by
  cases hleft : a.bimap.getByLeft n with
  | none =>
    rw [despawnNetworked_other hleft]
    exact h
  | some e =>
    have hrel := BiMap.getByLeft_eq_some.mp hleft
    have hne : t ≠ e := fun heq => h.unmapped n (heq ▸ hrel)
    have hbimap : (a.despawnNetworked n).1.bimap = a.bimap.removeByLeft n :=
      congrArg Roster.bimap (despawnNetworked_roster hleft)
    refine h.of_same (Nat.le_of_eq (next_despawnNetworked a n).symm)
      (fun k => (get_despawnNetworked hrel t k).trans (if_neg hne)) fun n' hn' => ?_
    rw [hbimap] at hn'
    exact (BiMap.rel_removeByLeft.mp hn').1

variable [F32 F]

/-- In a simulation step only the countdowns of `m` come near a tracker. -/
theorem step {m : List Comp} (h : Waits c a t v) (hstep : SceneStep m a a') (hc : c.comp ∉ m)
    (hvalue : c.comp ∉ valueComps) (htarget : .trainingTarget ∉ m) : Waits c a' t v := by
  cases hstep with
  | write ks hw hks hbimap hallocator =>
    have hkept : c.comp ∉ ks := fun hk => (hks _ hk).elim hvalue hc
    exact ⟨hw.next ▸ h.known, hbimap ▸ h.unmapped, (hw.get t _ hkept).trans h.value,
      fun k hk => h.bare k ((hw.has t k).symm.trans hk)⟩
  | track r => exact h.leaves (.spawnOnWorld a _)
  | timer => exact h.leaves (.spawnOnWorld a _)
  | spawn kind x y rot => exact h.leaves (spawnKind_leaves a kind x y rot)
  | unmap n => exact h.despawn n
  | finish e k hk hhas =>
    have hne : t ≠ e := by
      rintro rfl
      rcases h.bare k (hhas h.alive) with rfl | rfl
      · exact hc hk
      · exact htarget hk
    exact h.of_same (Nat.le_refl _) (fun k => (World.get_despawn _ _ _ k).trans (if_neg hne))
      fun _ hn => hn

theorem scene {m : List Comp} (h : Waits c a t v) (hscene : Scene m a a') (hc : c.comp ∉ m)
    (hvalue : c.comp ∉ valueComps) (htarget : .trainingTarget ∉ m) : Waits c a' t v := by
  induction hscene with
  | refl => exact h
  | tail _ hstep ih => exact ih.step hstep hc hvalue htarget

end Waits

theorem Gone.scene [F32 F] {a a' : BevyWorldAdapter F} {t : Entity} {m : List Comp} (h : Gone a t)
    (hscene : Scene m a a') : Gone a' t :=
  ⟨Nat.lt_of_lt_of_le h.known hscene.next_le, hscene.dead h.known h.dead⟩

end BevyWorldAdapter

/-! ## One pass -/

namespace Clock

variable (c : Clock F)

theorem tickAll_written (es : List Entity) (w : World F) : Written [c.comp] w (c.tickAll w es) :=
  Written.foldl id (fun w e => Written.modify w e (List.mem_singleton_self _) c.tick) es w

variable {t : Entity} {w : World F}

theorem get_tickAll {es : List Entity} (hnodup : es.Nodup) (ht : t ∈ es)
    (w : World F) : (c.tickAll w es).get t c.comp = (w.get t c.comp).map c.tick := by
  have hothers : ∀ (es : List Entity) (w : World F), t ∉ es →
      (c.tickAll w es).get t c.comp = w.get t c.comp := by
    intro es
    induction es with
    | nil => exact fun _ _ => rfl
    | cons e es ih =>
      intro w ht
      have hne : t ≠ e := List.ne_of_not_mem_cons ht
      exact (ih _ (List.not_mem_of_not_mem_cons ht)).trans
        (World.get_modify_of_ne _ _ (Or.inl hne))
  induction es generalizing w with
  | nil => cases ht
  | cons e es ih =>
    obtain ⟨hfresh, hnodup⟩ := List.nodup_cons.mp hnodup
    rcases List.mem_cons.mp ht with rfl | hmem
    · exact (hothers es _ hfresh).trans (World.get_modify_self _ _ _ _)
    · have hne : t ≠ e := fun heq => hfresh (heq ▸ hmem)
      refine (ih hnodup hmem _).trans (congrArg (Option.map c.tick) ?_)
      exact World.get_modify_of_ne _ _ (Or.inl hne)

theorem get_pass (w : World F) (t : Entity) (k : Comp) : (c.pass w).get t k =
    if t ∈ c.due w then none else (c.tickAll w (w.query [c.comp])).get t k :=
  BevyWorldAdapter.despawnAll_get _ _ t k

theorem alive_pass (w : World F) (t : Entity) :
    (c.pass w).alive t = (decide (t ∉ c.due w) && w.alive t) := by
  rw [pass, BevyWorldAdapter.despawnAll_alive, (c.tickAll_written _ w).edits.alive]

theorem next_pass (w : World F) : (c.pass w).ecs.next = w.ecs.next := by
  rw [pass, BevyWorldAdapter.despawnAll_next, (c.tickAll_written _ w).edits.next]

variable {c}

theorem mem_query_of_get {v : CompVal F c.comp}
    (hv : w.get t c.comp = some v) : t ∈ w.query [c.comp] := by
  have hhas : w.has t c.comp = true := Option.isSome_iff_exists.mpr ⟨v, hv⟩
  exact World.mem_query.mpr ⟨World.alive_of_has hhas, by simpa using hhas⟩

theorem mem_due {v : CompVal F c.comp}
    (hv : w.get t c.comp = some v) : t ∈ c.due w ↔ c.left v ≤ 1 := by
  simp [due, mem_query_of_get hv, isDue, hv]

theorem not_due_of_dead (h : w.alive t = false) : t ∉ c.due w := by
  intro hdue
  rw [(World.mem_query.mp (List.mem_of_mem_filter hdue)).1] at h
  cases h

end Clock

namespace BevyWorldAdapter

section Pass

variable {c : Clock F} {a : BevyWorldAdapter F} {t : Entity} {v : CompVal F c.comp}

theorem Waits.pass (h : Waits c a t v) (hleft : 1 < c.left v) :
    Waits c { a with world := c.pass a.world } t (c.tick v) := by
  have hdue : t ∉ c.due a.world := fun hdue => by
    have := (Clock.mem_due h.value).mp hdue
    omega
  have hget : ∀ k, (c.pass a.world).get t k =
      (c.tickAll a.world (a.world.query [c.comp])).get t k := fun k =>
    (c.get_pass a.world t k).trans (if_neg hdue)
  refine ⟨(c.next_pass a.world).symm ▸ h.known, h.unmapped, ?_, fun k hk => h.bare k ?_⟩
  · have hticked := c.get_tickAll (a.world.nodup_query _) (Clock.mem_query_of_get h.value) a.world
    exact ((hget _).trans hticked).trans (congrArg (Option.map c.tick) h.value)
  · have hsame : (c.pass a.world).has t k =
        (c.tickAll a.world (a.world.query [c.comp])).has t k := congrArg Option.isSome (hget k)
    exact ((c.tickAll_written _ a.world).edits.has t k).symm.trans (hsame.symm.trans hk)

theorem Waits.pass_due (h : Waits c a t v) (hleft : c.left v ≤ 1) :
    Gone { a with world := c.pass a.world } t := by
  refine ⟨(c.next_pass a.world).symm ▸ h.known, (c.alive_pass a.world t).trans ?_⟩
  simp [(Clock.mem_due h.value).mpr hleft]

end Pass

/-! ## One simulation step -/

/-- A step from `a` to `a'` that processes the clock at `b`, and comes near its trackers nowhere
else. -/
structure Round [F32 F] (c : Clock F) (a b a' : BevyWorldAdapter F) : Prop where
  own : c.comp ∉ valueComps
  before : ∃ m, c.comp ∉ m ∧ .trainingTarget ∉ m ∧ Scene m a b
  after : ∃ m, c.comp ∉ m ∧ .trainingTarget ∉ m ∧ Scene m { b with world := c.pass b.world } a'

section Round

variable [F32 F] {c : Clock F} {a b a' : BevyWorldAdapter F} {t : Entity} {v : CompVal F c.comp}

theorem Round.waits_before (h : Round c a b a') (ht : Waits c a t v) : Waits c b t v := by
  obtain ⟨m, hc, htarget, hscene⟩ := h.before
  exact ht.scene hscene hc h.own htarget

theorem Round.waits_after (h : Round c a b a') (ht : Waits c b t v) (hleft : 1 < c.left v) :
    Waits c a' t (c.tick v) := by
  obtain ⟨m, hc, htarget, hscene⟩ := h.after
  exact (ht.pass hleft).scene hscene hc h.own htarget

theorem Waits.round (h : Waits c a t v) (hround : Round c a b a') (hleft : 1 < c.left v) :
    Waits c a' t (c.tick v) := hround.waits_after (hround.waits_before h) hleft

theorem Waits.round_due (h : Waits c a t v) (hround : Round c a b a') (hleft : c.left v ≤ 1) :
    Gone a' t := by
  obtain ⟨m, -, -, hscene⟩ := hround.after
  exact ((hround.waits_before h).pass_due hleft).scene hscene

theorem Waits.mem_due (h : Waits c a t v) (hround : Round c a b a') :
    t ∈ c.due b.world ↔ c.left v ≤ 1 := Clock.mem_due (hround.waits_before h).value

theorem Gone.not_due (h : Gone a t) (hround : Round c a b a') : t ∉ c.due b.world := by
  obtain ⟨m, -, -, hscene⟩ := hround.before
  exact Clock.not_due_of_dead (h.scene hscene).dead

end Round

section Step

variable [F32 F] (P : Platform F)

/-- The trackers of training targets are processed first. -/
theorem target_round {a : BevyWorldAdapter F} (ha : a.roster.Bounded)
    (hhook : ∀ hook, a.postSimulateHook = some hook → Inert hook) :
    Round targetClock a (a.beforeReinit P) (a.simulate P) := by
  have hbefore := beforeReinit_plays P a
  have hsetup := (beforeHook_moves P a).setup.hook
  refine ⟨show Comp.respawnTimer ∉ valueComps by decide,
    ⟨[.beamMarker], show Comp.respawnTimer ∉ _ by decide, by decide, hbefore.scene ha⟩,
    ⟨[.resourceRespawn], show Comp.respawnTimer ∉ _ by decide, by decide, ?_⟩⟩
  rw [simulate_eq]
  rw [beforeHook_split] at hsetup ⊢
  have hb := hbefore.bounded ha
  generalize a.beforeReinit P = b at hb hsetup ⊢
  have hpassed := (processTargetReinitialization_plays b).bounded hb
  have hreinit : b.reinitStage = (processTargetReinitialization b.world).2.foldl respawnTarget
      { b with world := (processTargetReinitialization b.world).1 } := rfl
  rw [hreinit] at hsetup ⊢
  rw [processTargetReinitialization_eq] at hpassed hsetup ⊢
  dsimp only at hpassed hsetup ⊢
  generalize { b with world := targetClock.pass b.world } = c at hpassed hsetup ⊢
  have hspawn := respawnTargets_plays (m := [.resourceRespawn])
    ((targetClock.due b.world).flatMap fun e =>
      (b.world.get e .respawnTimer).elim [] RespawnTimer.place) c
  generalize List.foldl respawnTarget c _ = d at hspawn hsetup ⊢
  have hclamped := (hspawn.trans (respawnStage_plays d)).trans (clamp_plays d.respawnStage)
  generalize d.respawnStage.onWorld clampStage = d' at hclamped hsetup ⊢
  exact (hclamped.trans (runHook_plays (hsetup ▸ hhook))).scene hpassed

theorem resource_round {a : BevyWorldAdapter F} (ha : a.roster.Bounded)
    (hhook : ∀ hook, a.postSimulateHook = some hook → Inert hook) :
    Round resourceClock a (a.beforeReinit P).reinitStage (a.simulate P) := by
  have hbefore : Plays [.beamMarker, .respawnTimer] a (a.beforeReinit P).reinitStage :=
    ((beforeReinit_plays P a).mono (by decide)).trans ((reinitStage_plays _).mono (by decide))
  have hsetup := (beforeHook_moves P a).setup.hook
  refine ⟨show Comp.resourceRespawn ∉ valueComps by decide,
    ⟨_, show Comp.resourceRespawn ∉ _ by decide, by decide, hbefore.scene ha⟩,
    ⟨[], nofun, nofun, ?_⟩⟩
  rw [simulate_eq]
  rw [beforeHook_split] at hsetup ⊢
  have hb := hbefore.bounded ha
  generalize (a.beforeReinit P).reinitStage = b at hb hsetup ⊢
  have hpassed := (processRespawn_plays b).bounded hb
  have hrespawn : b.respawnStage = (processRespawn b.world).2.foldl respawnResource
      { b with world := (processRespawn b.world).1 } := rfl
  rw [hrespawn] at hsetup ⊢
  rw [processRespawn_eq] at hpassed hsetup ⊢
  dsimp only at hpassed hsetup ⊢
  generalize { b with world := resourceClock.pass b.world } = c at hpassed hsetup ⊢
  have hspawn := Plays.foldl (m := []) respawnResource_plays
    ((resourceClock.due b.world).flatMap fun e =>
      (b.world.get e .resourceRespawn).elim [] fun r => [ResourceRespawn.request r]) c
  generalize List.foldl respawnResource c _ = d at hspawn hsetup ⊢
  have hclamped := hspawn.trans (clamp_plays d)
  generalize d.onWorld clampStage = d' at hclamped hsetup ⊢
  exact (hclamped.trans (runHook_plays (hsetup ▸ hhook))).scene hpassed

end Step

/-! ## Between two steps -/

namespace Waits

variable {c : Clock F} {a : BevyWorldAdapter F} {t : Entity} {v : CompVal F c.comp}

theorem insert (h : Waits c a t v) {n : NetworkId} {e : Entity} (hrel : a.bimap.Rel n e)
    (l : Comps F) : Waits c (a.onWorld (·.insert e l)) t v := by
  have hne : t ≠ e := fun heq => h.unmapped n (heq ▸ hrel)
  exact h.of_same (Nat.le_of_eq (Storage.next_insert _ _ _).symm)
    (fun k => World.get_insert_of_ne _ (Or.inl hne)) fun _ hn => hn

theorem setOwner (h : Waits c a t v) (n : NetworkId) (client : ClientId) (l : Comps F) :
    Waits c (a.setOwner n client l) t v := by
  unfold BevyWorldAdapter.setOwner
  split
  · next e hleft =>
    exact (h.insert (BiMap.getByLeft_eq_some.mp hleft) _).of_same (Nat.le_refl _) (fun _ => rfl)
      fun _ hn => hn
  · exact h

/-- An update is for an entity with an identifier. -/
theorem applyOne (h : Waits c a t v) (hplain : ∀ r ∈ a.replicators, r.Plain)
    (u : ClientId × ComponentUpdate) : Waits c (a.applyOne u) t v := by
  have hcase := applyOne_cases a u
  have hbimap := (applyOne_rest a u).1
  generalize a.applyOne u = b at hcase hbimap ⊢
  cases hcase with
  | unmapped => exact h
  | checked e hrel =>
    have hworld := authorize_world a u.1 u.2.networkId e
    refine h.of_same ?_ (fun k => ?_) fun _ hn => hbimap ▸ hn
    · rw [hworld]
    · rw [hworld]
  | applied e hrel howner r hr =>
    have hne : t ≠ e := fun heq => h.unmapped _ (heq ▸ hrel)
    obtain ⟨k, -, hwrites⟩ := hplain r (mem_of_findReplicator hr)
    have hw := hwrites.writes a.world e u.2
    exact h.of_same (Nat.le_of_eq hw.next.symm) (fun k' => hw.get t k' (Or.inl hne))
      fun _ hn => hbimap ▸ hn

theorem applyUpdates (h : Waits c a t v) (hplain : ∀ r ∈ a.replicators, r.Plain)
    (updates : List (ClientId × ComponentUpdate)) : Waits c (a.applyUpdates updates) t v := by
  rw [applyUpdates_eq_foldl]
  induction updates generalizing a with
  | nil => exact h
  | cons u updates ih =>
    exact ih (h.applyOne hplain u) ((applyOne_rest a u).2.replicators ▸ hplain)

variable [F32 F]

theorem spawnKindFor (h : Waits c a t v) (kind : UInt16) (x y rot : F) (client : ClientId) :
    Waits c (a.spawnKindFor kind x y rot client).1 t v :=
  (h.leaves (spawnKind_leaves a kind x y rot)).setOwner _ client []

theorem spawnSessionAgent (h : Waits c a t v) (kind : UInt16) (x y rot : F) (client : ClientId) :
    Waits c (a.spawnSessionAgent kind x y rot client).1 t v := by
  have hspawned := h.spawnKindFor kind x y rot client
  unfold BevyWorldAdapter.spawnSessionAgent
  generalize a.spawnKindFor kind x y rot client = s at hspawned ⊢
  dsimp only
  split
  · next e hleft =>
    have hmarked := hspawned.insert (BiMap.getByLeft_eq_some.mp hleft) [⟨.sessionAgent, ()⟩]
    split
    · exact hmarked.of_same (Nat.le_refl _) (fun _ => rfl) fun _ hn => hn
    · exact hmarked
  · exact hspawned

end Waits

theorem stressTest_leaves [F32 F] (P : Platform F) (a : BevyWorldAdapter F) (count : UInt16)
    (rotate : Bool) : Leaves a (a.stressTest P count rotate) := by
  have hdraw : ∀ (b : BevyWorldAdapter F) (lo hi : F), Leaves b (b.drawRange P lo hi).1 :=
    fun b lo hi => .of_eq rfl rfl
  have hone : ∀ (b : BevyWorldAdapter F) (i : Nat), Leaves b (stressSpawn P rotate b i) := by
    intro b i
    let b₁ := (b.drawRange P (F32.neg 20.0) 20.0).1
    let b₂ := (b₁.drawRange P (F32.neg 20.0) 20.0).1
    have hb₂ : Leaves b b₂ := (hdraw b _ _).trans (hdraw b₁ _ _)
    cases rotate with
    | false => exact hb₂.trans (spawnKind_leaves b₂ _ _ _ _)
    | true => exact (hb₂.trans (hdraw b₂ 0.0 F32.tau)).trans (spawnKind_leaves _ _ _ _ _)
  have hrun : ∀ (l : List Nat) (b : BevyWorldAdapter F),
      Leaves b (l.foldl (stressSpawn P rotate) b) := by
    intro l
    induction l with
    | nil => exact fun b => .of_eq rfl rfl
    | cons i l ih => exact fun b => (hone b i).trans (ih _)
  exact hrun _ a

theorem spawnNetworked_leaves (a : BevyWorldAdapter F) : Leaves a a.spawnNetworked.1 :=
  Leaves.of_spawn (l := [⟨.networked, a.allocator.allocate.1⟩]) rfl (fun _ _ => rfl)
    (fun _ _ _ => rfl) fun _ _ he => rel_of_insert he

section Runs

variable [F32 F] (P : Platform F) {c : Clock F}

/-- Neither a step, which counts trackers down, nor a clear. -/
def Op.IsBetween : Op F → Prop
  | .simulate | .clearWorld => False
  | _ => True

variable {a : BevyWorldAdapter F} {op : Op F} {ops : List (Op F)} {t : Entity}

theorem Waits.between {v : CompVal F c.comp}
    (h : Waits c a t v) (hplain : ∀ r ∈ a.replicators, r.Plain) (hop : op.IsBetween) :
    Waits c (op.run P a) t v := by
  cases op with
  | spawnNetworked => exact h.leaves (spawnNetworked_leaves a)
  | spawnNetworkedFor client => exact (h.leaves (spawnNetworked_leaves a)).setOwner _ client _
  | spawnKind kind x y rot => exact h.leaves (spawnKind_leaves a kind x y rot)
  | spawnKindFor kind x y rot client => exact h.spawnKindFor kind x y rot client
  | spawnSessionAgent kind x y rot client => exact h.spawnSessionAgent kind x y rot client
  | stressTest count rotate => exact h.leaves (stressTest_leaves P a count rotate)
  | despawnNetworked n => exact h.despawn n
  | applyUpdates updates => exact h.applyUpdates hplain updates
  | clearWorld => exact hop.elim
  | simulate => exact hop.elim
  | _ => exact h.of_same (Nat.le_refl _) (fun _ => rfl) fun _ hn => hn

theorem Gone.run (h : Gone a t) (ha : Sound a) (hop : op ≠ .clearWorld) : Gone (op.run P a) t := by
  have hcard : a.roster.cards t = none := World.card_eq_none.mpr h.dead
  have hmoves : ∀ {b : BevyWorldAdapter F}, Moves a b →
      t.id < b.roster.nextEntity ∧ b.roster.cards t = none := fun hb =>
    Roster.gone_steps (ha.steps hb) h.known hcard
  have hgone : ∀ {b : BevyWorldAdapter F},
      t.id < b.roster.nextEntity ∧ b.roster.cards t = none → Gone b t := fun hb =>
    ⟨hb.1, World.card_eq_none.mp hb.2⟩
  cases op with
  | clearWorld => exact absurd rfl hop
  | spawnSessionAgent kind x y rot client =>
    obtain ⟨-, b, e, card, hb, -, hcard, -, -, hroster, -⟩ :=
      spawnSessionAgent_spec a kind x y rot client
    obtain ⟨hknown, hdead⟩ := hmoves hb
    have hne : t ≠ e := fun heq => by simp [← heq, ← roster_cards, hdead] at hcard
    refine hgone (b := (a.spawnSessionAgent kind x y rot client).1) ?_
    rw [hroster]
    exact ⟨hknown, (Function.update_of_ne hne _ _).trans hdead⟩
  | _ => exact hgone (hmoves (Op.moves P ha.discreet trivial))

/-- An adapter whose replicators write components and whose hook leaves the entities alone. -/
structure Regular (a : BevyWorldAdapter F) : Prop extends Sound a where
  inert : ∀ hook, a.postSimulateHook = some hook → Inert hook
  plain : ∀ r ∈ a.replicators, r.Plain

theorem Regular.run (h : Regular a) (op : Op F) : Regular (op.run P a) where
  toSound := h.toSound.run P op
  inert := (Op.setup P h.discreet op).hook ▸ h.inert
  plain := (Op.setup P h.discreet op).replicators ▸ h.plain

theorem Regular.simulate (h : Regular a) : Regular (a.simulate P) :=
  h.run P .simulate

theorem Regular.runOps (h : Regular a) (ops : List (Op F)) : Regular (a.runOps P ops) := by
  induction ops generalizing a with
  | nil => exact h
  | cons op ops ih => exact ih (h.run P op)

omit [F32 F] in
theorem Fresh.regular (h : Fresh a) {hook : Option (World F → World F)}
    (hhook : ∀ f, hook = some f → Inert f) : Regular { a with postSimulateHook := hook } :=
  ⟨h.sound_hook fun f hf => (hhook f hf).keepsCards, hhook, h.spec.2.1⟩

/-! ## Runs -/

def Op.isSimulate : Op F → Bool
  | .simulate => true
  | _ => false

/-- The steps of a run. -/
def stepsOf (ops : List (Op F)) : Nat := ops.countP Op.isSimulate

variable {s : BevyWorldAdapter F → BevyWorldAdapter F} {t : Entity}

omit [F32 F] in
theorem stepsOf_simulate (ops : List (Op F)) : stepsOf (.simulate :: ops) = stepsOf ops + 1 :=
  List.countP_cons_of_pos rfl

omit [F32 F] in
theorem Op.step_or_clear (op : Op F) : op = .simulate ∨ op = .clearWorld ∨ op.IsBetween := by
  cases op with
  | simulate => exact Or.inl rfl
  | clearWorld => exact Or.inr (Or.inl rfl)
  | _ => exact Or.inr (Or.inr trivial)

omit [F32 F] in
theorem stepsOf_between (hop : op.IsBetween) (ops : List (Op F)) :
    stepsOf (op :: ops) = stepsOf ops := by
  refine List.countP_cons_of_neg ?_
  cases op with
  | simulate => exact hop.elim
  | _ => exact Bool.false_ne_true

theorem Gone.runOps (ha : Regular a) (h : Gone a t)
    (hops : .clearWorld ∉ ops) : Gone (a.runOps P ops) t := by
  induction ops generalizing a with
  | nil => exact h
  | cons op ops ih =>
    have hop : op ≠ .clearWorld := (List.ne_of_not_mem_cons hops).symm
    exact ih (ha.run P op) (h.run P ha.toSound hop) (List.not_mem_of_not_mem_cons hops)

/-- A run takes as many steps off the clock as it has; a tracker that runs out is gone. -/
theorem Waits.runOps (hround : ∀ b, Regular b → Round c b (s b) (b.simulate P)) (ha : Regular a)
    {v : CompVal F c.comp} (h : Waits c a t v) (hops : .clearWorld ∉ ops) :
    (stepsOf ops < c.left v → Waits c (a.runOps P ops) t (c.tick^[stepsOf ops] v)) ∧
      (1 ≤ c.left v → c.left v ≤ stepsOf ops → Gone (a.runOps P ops) t) := by
  induction ops generalizing a v with
  | nil => exact ⟨fun _ => h, fun hpos hle => absurd (Nat.le_trans hpos hle) (Nat.lt_irrefl 0)⟩
  | cons op ops ih =>
    have hrest : .clearWorld ∉ ops := List.not_mem_of_not_mem_cons hops
    rw [runOps_cons]
    rcases op.step_or_clear with rfl | rfl | hop
    · have hstep := hround a ha
      have hregular := ha.simulate P
      rw [stepsOf_simulate, show Op.run P a .simulate = a.simulate P from rfl]
      generalize a.simulate P = a' at hstep hregular ⊢
      by_cases hlast : c.left v ≤ 1
      · have hgone := (h.round_due hstep hlast).runOps P hregular hrest
        exact ⟨fun hlt => by omega, fun _ _ => hgone⟩
      · have hnext := ih hregular (h.round hstep (Nat.lt_of_not_le hlast)) hrest
        rw [c.left_tick v] at hnext
        refine ⟨fun hlt => ?_, fun _ hle => hnext.2 (by omega) (by omega)⟩
        rw [Function.iterate_succ_apply]
        exact hnext.1 (by omega)
    · exact absurd List.mem_cons_self hops
    · rw [stepsOf_between hop]
      exact ih (ha.run P op) (h.between P ha.plain hop) hrest

omit [F32 F] in
theorem Clock.left_iterate (c : Clock F) (k : Nat) (v : CompVal F c.comp) :
    c.left (c.tick^[k] v) = c.left v - k := by
  induction k with
  | zero => rfl
  | succ k ih =>
    rw [Function.iterate_succ_apply', c.left_tick, ih]
    omega

/-- The step in which a tracker is replaced is the one its clock shows. -/
theorem Waits.due_iff (hround : ∀ b, Regular b → Round c b (s b) (b.simulate P)) (ha : Regular a)
    {v : CompVal F c.comp} (h : Waits c a t v)
    (hleft : 1 ≤ c.left v) (hops : .clearWorld ∉ ops) :
    t ∈ c.due (s (a.runOps P ops)).world ↔ stepsOf ops + 1 = c.left v := by
  obtain ⟨hwaits, hgone⟩ := h.runOps P hround ha hops
  have hstep := hround _ (ha.runOps P ops)
  by_cases hlt : stepsOf ops < c.left v
  · rw [(hwaits hlt).mem_due hstep, Clock.left_iterate]
    omega
  · refine iff_of_false ((hgone hleft (Nat.le_of_not_lt hlt)).not_due hstep) ?_
    omega

end Runs

end BevyWorldAdapter

end Aetheris
