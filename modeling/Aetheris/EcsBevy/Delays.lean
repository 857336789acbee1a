import Aetheris.EcsBevy.Respawn

/-!
# When a replacement comes

A step that exhausts a resource gives it a tracker (`depleted_waits`), and the step that processes a
tracker which has run out spawns one resource for it (`replacements`). Together with the clock of the
tracker this fixes the step: a resource is back in the 300th step after the one that exhausted it
(`resource_back_on_time`). A training target is back one step before its delay is over
(`target_back_early`).
-/

namespace Aetheris

open Ecs Relation

variable {F : Type}

namespace BevyWorldAdapter

variable [F32 F]

/-! ## Trackers of exhausted resources -/

variable {a : BevyWorldAdapter F} {c : Clock F} {e t : Entity} {n : NetworkId}
  {r : ResourceRespawn F}

omit [F32 F] in
/-- A tracker when it is spawned. -/
theorem Waits.of_spawn (ha : a.roster.Bounded) {l : Comps F}
    {v : CompVal F c.comp} (hv : bundle l c.comp = some v)
    (hbare : ∀ x ∈ l, x.1 = c.comp ∨ x.1 = .trainingTarget) :
    Waits c (a.onWorld (·.spawn l)) a.world.spawned v := by
  have hget : ∀ k, (a.world.spawn l).get a.world.spawned k = bundle l k := fun k =>
    (World.get_spawn _ _ _ _).trans (if_pos rfl)
  refine ⟨Nat.lt_succ_self _, fun n => ha.fresh_ent n, (hget _).trans hv, fun k hk => ?_⟩
  by_contra hother
  have hnone : bundle l k = none := bundle_eq_none fun x hx heq => hother (heq ▸ hbare x hx)
  have hsome : (bundle l k).isSome = true := (congrArg Option.isSome (hget k)).symm.trans hk
  rw [hnone] at hsome
  cases hsome

omit [F32 F] in
theorem Waits.has {v : CompVal F c.comp}
    (h : Waits c a t v) : a.world.has t c.comp = true := Option.isSome_iff_exists.mpr ⟨v, h.value⟩

/-- The next `count` entities. -/
def nextEntities (w : World F) (count : Nat) : List Entity :=
  (List.range' w.ecs.next count).map Entity.mk

theorem spawnTrackers_waits (rs : List (ResourceRespawn F))
    (ha : a.roster.Bounded) : ∀ p ∈ (nextEntities a.world rs.length).zip rs,
      Waits resourceClock { a with world := rs.foldl spawnTracker a.world } p.1 p.2 := by
  induction rs generalizing a with
  | nil => exact fun p hp => (nomatch hp)
  | cons r rs ih =>
    let b := a.onWorld (spawnTracker · r)
    have hb : b.roster.Bounded := Roster.bounded_steps
      ((spawnTracker_one_moves a r).steps _ (Nat.le_refl _) ha) ha
    have hfirst : Waits resourceClock b a.world.spawned r :=
      .of_spawn ha (bundle_singleton_self _ _) fun x hx => Or.inl (List.mem_singleton.mp hx ▸ rfl)
    intro p hp
    rcases List.mem_cons.mp hp with rfl | hp
    · have hrest := (spawnTrackers_plays (m := []) rs b).scene hb
      exact hfirst.scene hrest nofun (show Comp.resourceRespawn ∉ _ by decide) nofun
    · exact ih hb p hp

variable (P : Platform F)

/-- The resources a step from `a` exhausts, each with its identifier and its tracker. -/
def depleted (a : BevyWorldAdapter F) : List (Entity × NetworkId × ResourceRespawn F) :=
  let b := a.motionStage P
  exhaustedResources (afterTransfers b.world b.bimap) b.bimap

theorem delay_depleted {x : Entity × NetworkId × ResourceRespawn F} (hx : x ∈ a.depleted P) :
    x.2.2.delayTicks = 300 ∧ x.2.2.remaining = 301 := by
  obtain ⟨e, -, hsome⟩ := List.mem_filterMap.mp hx
  split at hsome
  · dsimp only at hsome
    split at hsome
    · obtain ⟨n, -, rfl⟩ := Option.map_eq_some_iff.mp hsome
      exact ⟨rfl, rfl⟩
    · cases hsome
  · cases hsome

omit P in
/-- The trackers are the next entities, in the order of the resources. -/
theorem afterExhaustion_waits (ha : a.roster.Bounded) :
    let xs := exhaustedResources (afterTransfers a.world a.bimap) a.bimap
    ∀ p ∈ (nextEntities a.world xs.length).zip xs,
      Waits resourceClock a.afterExhaustion p.1 p.2.2.2 := by
  have hedits := (afterTransfers_written a.world a.bimap).edits
  have hnext := hedits.next
  have htransfers : Plays [] a { a with world := afterTransfers a.world a.bimap } :=
    .of_values hedits (by decide)
  unfold afterExhaustion
  rw [processExtraction_eq]
  unfold handleResourceExhaustion
  generalize afterTransfers a.world a.bimap = w at hnext htransfers ⊢
  generalize exhaustedResources w a.bimap = xs
  dsimp only
  generalize xs.map (fun x => ((none : Option ClientId),
    WireEvent.platformEvent (.resourceExhausted x.2.1))) = events
  intro p hp
  have hpushed := (htransfers.trans (pushReliable_plays { a with world := w } events)).bounded ha
  have hwaits := spawnTrackers_waits (xs.map (·.2.2)) hpushed (p.1, p.2.2.2)
  apply hwaits
  rw [List.length_map, nextEntities, List.zip_map_right]
  rw [nextEntities, ← hnext] at hp
  exact List.mem_map_of_mem hp

theorem trackers_wait (ha : a.roster.Bounded) :
    ∀ p ∈ (nextEntities a.world (a.depleted P).length).zip (a.depleted P),
      Waits resourceClock (a.motionStage P).afterExhaustion p.1 p.2.2.2 := by
  have hnext := (motionStage_written P a).edits.next
  have hbounded := (motionStage_plays (m := []) P a).bounded ha
  unfold depleted nextEntities
  rw [← hnext]
  generalize a.motionStage P = b at hbounded ⊢
  exact afterExhaustion_waits hbounded

/-- After the step that exhausts their resources, the trackers have 300 steps left. -/
theorem depleted_waits (ha : Regular a) :
    ∀ p ∈ (nextEntities a.world (a.depleted P).length).zip (a.depleted P),
      Waits resourceClock (a.simulate P) p.1 (resourceClock.tick p.2.2.2) := by
  intro p hp
  have hbounded := ha.coherent.toBounded
  have hwaits := trackers_wait P hbounded p hp
  have hremaining := (delay_depleted P (List.of_mem_zip hp).2).2
  have hround := resource_round P hbounded ha.inert
  have hexhausted := ((motionStage_plays (m := []) P a).trans (afterExhaustion_plays _).1).bounded
    hbounded
  have hplays : Plays [.beamMarker, .respawnTimer] (a.motionStage P).afterExhaustion
      (a.beforeReinit P).reinitStage :=
    ((exhausted_plays P a).trans ((beams_plays P a).mono (by decide))).trans
      ((reinitStage_plays _).mono (by decide))
  refine hround.waits_after (hwaits.scene (hplays.scene hexhausted)
    (show Comp.resourceRespawn ∉ _ by decide) (show Comp.resourceRespawn ∉ _ by decide)
    (by decide)) ?_
  show 1 < p.2.2.2.remaining.toNat
  rw [hremaining]
  decide

/-! ## Replacements -/

section Replacements

omit P

/-- A resource at the place of its tracker and with its capacity, under the identifier `n`. -/
structure Replaced (a : BevyWorldAdapter F) (n : NetworkId) (e : Entity)
    (r : F × F × UInt16) : Prop where
  mapped : a.bimap.Rel n e
  networked : a.world.get e .networked = some n
  resource : a.world.get e .resource = some ⟨r.2.2, r.2.2⟩
  place : ∃ t : Transform F, a.world.get e .transform = some t ∧ t.x = r.1 ∧ t.y = r.2.1

/-- The last thing a spawn by kind does is to place its entity. -/
theorem spawnKind_places (a : BevyWorldAdapter F) (kind : UInt16) (x y rot : F) :
    ∃ (b : BevyWorldAdapter F) (master : NetworkId), a.spawnKind kind x y rot =
      (b.placeKind ⟨a.allocator.next⟩ kind x y rot master, ⟨a.allocator.next⟩) := by
  unfold spawnKind spawnKindFuel
  dsimp only
  split
  · next master _ => exact ⟨{ a with allocator := a.allocator.allocate.2 }, master, rfl⟩
  · exact ⟨_, _, rfl⟩

theorem respawnResource_replaced (a : BevyWorldAdapter F) (r : F × F × UInt16) :
    ∃ e, Replaced (a.respawnResource r) (a.spawnKind entityTypeResource r.1 r.2.1 0.0).2 e r := by
  obtain ⟨b, master, hspawn⟩ := spawnKind_places a entityTypeResource r.1 r.2.1 0.0
  have hcells := get_placeKind_new b ⟨a.allocator.next⟩ entityTypeResource r.1 r.2.1 0.0 master
  have hrel : (b.placeKind ⟨a.allocator.next⟩ entityTypeResource r.1 r.2.1 0.0 master).bimap.Rel
      ⟨a.allocator.next⟩ b.world.spawned := BiMap.rel_insert.mpr (Or.inl ⟨rfl, rfl⟩)
  unfold respawnResource
  rw [hspawn]
  dsimp only
  generalize b.placeKind ⟨a.allocator.next⟩ entityTypeResource r.1 r.2.1 0.0 master = c
    at hcells hrel ⊢
  rw [BiMap.getByLeft_eq_some.mpr hrel]
  have hother : ∀ k, k ≠ Comp.resource → (c.world.modify b.world.spawned .resource
      fun _ : Resource => ⟨r.2.2, r.2.2⟩).get b.world.spawned k =
        placedCells ⟨a.allocator.next⟩ entityTypeResource r.1 r.2.1 0.0 master k := fun k hk =>
    (World.get_modify_of_ne _ _ (Or.inr hk)).trans (congrFun hcells k)
  refine ⟨b.world.spawned, hrel, hother _ (by decide), ?_,
    ⟨_, hother .transform (by decide), rfl, rfl⟩⟩
  show (c.world.modify _ _ _).get _ _ = _
  rw [World.get_modify_self, hcells]
  rfl

variable {a : BevyWorldAdapter F} {e : Entity} {n : NetworkId} {r : F × F × UInt16}
  {t : Transform F}

/-- A new entity is not one that was there. -/
theorem next_le_of_spawned (ha : a.roster.Bounded) (kind : UInt16) (x y rot : F)
    (hrel : (a.spawnKind kind x y rot).1.bimap.Rel (a.spawnKind kind x y rot).2 e) :
    a.world.ecs.next ≤ e.id := by
  by_contra hold
  rw [(spawnKind_spec a kind x y rot).1] at hrel
  exact Bounded.not_rel_next ha e
    ((spawnKind_leaves a kind x y rot).rel _ e (Nat.lt_of_not_le hold) hrel)

theorem respawnResource_leaves (ha : a.roster.Bounded)
    (r : F × F × UInt16) : Leaves a (a.respawnResource r) := by
  have hspawn := spawnKind_leaves a entityTypeResource r.1 r.2.1 0.0
  have hnew := fun (e : Entity) =>
    next_le_of_spawned ha entityTypeResource r.1 r.2.1 0.0 (e := e)
  unfold respawnResource
  generalize a.spawnKind entityTypeResource r.1 r.2.1 0.0 = s at hspawn hnew ⊢
  dsimp only
  split
  · next e hleft =>
    have hid := hnew e (BiMap.getByLeft_eq_some.mp hleft)
    refine ⟨hspawn.next, fun e' he' => ?_, fun e' he' k => ?_, hspawn.rel⟩
    · exact (World.alive_modify _ _ _ _ _).trans (hspawn.alive e' he')
    · have hne : e' ≠ e := fun heq => by
        rw [heq] at he'
        omega
      exact (World.get_modify_of_ne _ _ (Or.inl hne)).trans (hspawn.get e' he' k)
  · exact hspawn

omit [F32 F] in
/-- A replacement stays while the others are spawned. -/
theorem Replaced.keep {a' : BevyWorldAdapter F} (h : Replaced a n e r) (ha : a.roster.Bounded)
    (hgrows : Grows a a')
    (hleaves : Leaves a a') : Replaced a' n e r := by
  have hget := hleaves.get e (ha.ents n e h.mapped)
  obtain ⟨t, ht, hplace⟩ := h.place
  exact ⟨hgrows.rel ha n e h.mapped, (hget _).trans h.networked, (hget _).trans h.resource,
    t, (hget _).trans ht, hplace⟩

/-- The identifiers the respawned resources get. -/
def respawnIds : List (F × F × UInt16) → BevyWorldAdapter F → List NetworkId
  | [], _ => []
  | r :: rs, a => (a.spawnKind entityTypeResource r.1 r.2.1 0.0).2 :: respawnIds rs (a.respawnResource r)

theorem respawnResources_keep (rs : List (F × F × UInt16)) (ha : a.roster.Bounded) :
    Grows a (rs.foldl respawnResource a) ∧ Leaves a (rs.foldl respawnResource a) := by
  refine ⟨Grows.foldl respawnResource_grows rs a, ?_⟩
  induction rs generalizing a with
  | nil => exact .of_eq rfl rfl
  | cons r rs ih =>
    have hb := (respawnResource_plays (m := []) a r).bounded ha
    exact (respawnResource_leaves ha r).trans (ih hb)

theorem allocated_respawnResource (ha : a.roster.Bounded)
    (r : F × F × UInt16) : (a.spawnKind entityTypeResource r.1 r.2.1 0.0).2 = ⟨a.allocator.next⟩ ∧
      a.allocator.next < (a.respawnResource r).allocator.next := by
  have hid := (spawnKind_spec a entityTypeResource r.1 r.2.1 0.0).1
  obtain ⟨e, he⟩ := respawnResource_replaced a r
  have hb := (respawnResource_plays (m := []) a r).bounded ha
  rw [hid] at he
  exact ⟨hid, hb.ids _ e he.mapped⟩

theorem respawnIds_fresh (rs : List (F × F × UInt16))
    (ha : a.roster.Bounded) : (respawnIds rs a).Nodup ∧
      ∀ n ∈ respawnIds rs a, a.allocator.next ≤ n.val := by
  induction rs generalizing a with
  | nil => exact ⟨.nil, fun n hn => (nomatch hn)⟩
  | cons r rs ih =>
    obtain ⟨hid, hlt⟩ := allocated_respawnResource ha r
    obtain ⟨hnodup, hrest⟩ := ih ((respawnResource_plays (m := []) a r).bounded ha)
    unfold respawnIds
    rw [hid]
    refine ⟨List.nodup_cons.mpr ⟨fun hmem => ?_, hnodup⟩, fun n hn => ?_⟩
    · have hle := hrest _ hmem
      dsimp only at hle
      omega
    · rcases List.mem_cons.mp hn with rfl | hn
      · exact Nat.le_refl _
      · have hle := hrest n hn
        omega

/-- Each request is met, in turn. -/
theorem respawnIds_spec (rs : List (F × F × UInt16))
    (ha : a.roster.Bounded) : (respawnIds rs a).length = rs.length ∧
      ∀ p ∈ rs.zip (respawnIds rs a), ∃ e, Replaced (rs.foldl respawnResource a) p.2 e p.1 := by
  induction rs generalizing a with
  | nil => exact ⟨rfl, fun p hp => (nomatch hp)⟩
  | cons r rs ih =>
    have hb := (respawnResource_plays (m := []) a r).bounded ha
    obtain ⟨hlength, hrest⟩ := ih hb
    refine ⟨congrArg Nat.succ hlength, fun p hp => ?_⟩
    rcases List.mem_cons.mp hp with rfl | hp
    · obtain ⟨e, he⟩ := respawnResource_replaced a r
      obtain ⟨hgrows, hleaves⟩ := respawnResources_keep rs hb
      exact ⟨e, he.keep hb hgrows hleaves⟩
    · exact hrest p hp

/-! ### The end of the step -/

theorem clampEntity_place (w : World F) (e' e : Entity)
    (ht : w.get e .transform = some t) : ∃ t' : Transform F,
      (clampEntity w e').get e .transform = some t' ∧ t'.x = t.x ∧ t'.y = t.y := by
  have hflat : ∀ v : World F, v.get e .transform = some t → ∃ t' : Transform F,
      (v.modify e' .transform fun t : Transform F => { t with z := 0.0 }).get e .transform =
        some t' ∧ t'.x = t.x ∧ t'.y = t.y := by
    intro v hv
    by_cases he : e = e'
    · rw [← he, World.get_modify_self, hv]
      exact ⟨_, rfl, rfl, rfl⟩
    · exact ⟨t, (World.get_modify_of_ne _ _ (Or.inl he)).trans hv, rfl, rfl⟩
  have hvelocity : ∀ (v : World F) (g : Velocity F → Velocity F),
      (v.modify e' .velocity g).get e .transform = v.get e .transform := fun v g =>
    World.get_modify_of_ne _ _ (Or.inr (by decide))
  unfold clampEntity
  split
  · dsimp only
    split
    · rw [hvelocity]
      split
      · exact hflat w ht
      · exact ⟨t, ht, rfl, rfl⟩
    · split
      · exact hflat w ht
      · exact ⟨t, ht, rfl, rfl⟩
  · exact ⟨t, ht, rfl, rfl⟩

theorem clampStage_place (w : World F) (e : Entity)
    (ht : w.get e .transform = some t) : ∃ t' : Transform F,
      (clampStage w).get e .transform = some t' ∧ t'.x = t.x ∧ t'.y = t.y := by
  unfold clampStage
  generalize w.query [.transform, .velocity] = es
  induction es generalizing w t with
  | nil => exact ⟨t, ht, rfl, rfl⟩
  | cons e' es ih =>
    obtain ⟨t₁, ht₁, hx, hy⟩ := clampEntity_place w e' e ht
    obtain ⟨t₂, ht₂, hx', hy'⟩ := ih _ ht₁
    exact ⟨t₂, ht₂, hx'.trans hx, hy'.trans hy⟩

theorem Replaced.clamp (h : Replaced a n e r) : Replaced (a.onWorld clampStage) n e r := by
  have hedits := (clampStage_written a.world).edits
  obtain ⟨t, ht, hx, hy⟩ := h.place
  obtain ⟨t', ht', hx', hy'⟩ := clampStage_place a.world e ht
  exact ⟨h.mapped, (hedits.get e _ (by decide)).trans h.networked,
    (hedits.get e _ (by decide)).trans h.resource, t', ht', hx'.trans hx, hy'.trans hy⟩

omit [F32 F] in
theorem Replaced.runHook (h : Replaced a n e r)
    (hhook : ∀ hook, a.postSimulateHook = some hook → Inert hook) :
    Replaced a.runHook n e r := by
  unfold BevyWorldAdapter.runHook
  split
  · next hook hsome =>
    have hget := (hhook hook hsome).get a.world e
    obtain ⟨t, ht, hplace⟩ := h.place
    exact ⟨h.mapped, (hget _).trans h.networked, (hget _).trans h.resource, t, (hget _).trans ht,
      hplace⟩
  · exact h

omit [F32 F] in
/-- The trackers in a list and what they ask for, one by one. -/
theorem requests_zip (w : World F) (es : List Entity)
    (hes : ∀ e ∈ es, w.has e .resourceRespawn = true) :
    let rs := es.flatMap fun e =>
      (w.get e .resourceRespawn).elim [] fun r => [ResourceRespawn.request r]
    rs.length = es.length ∧ ∀ ns : List NetworkId, ∀ p ∈ es.zip ns,
      ∃ r, w.get p.1 .resourceRespawn = some r ∧
        (ResourceRespawn.request r, p.2) ∈ rs.zip ns := by
  induction es with
  | nil => exact ⟨rfl, fun ns p hp => (nomatch hp)⟩
  | cons e es ih =>
    obtain ⟨he, hes⟩ := List.forall_mem_cons.mp hes
    obtain ⟨r, hr⟩ := Option.isSome_iff_exists.mp he
    obtain ⟨hlength, hzip⟩ := ih hes
    rw [List.flatMap_cons, show w.get e .resourceRespawn = some r from hr]
    refine ⟨congrArg Nat.succ hlength, fun ns p hp => ?_⟩
    cases ns with
    | nil => cases hp
    | cons n ns =>
      rcases List.mem_cons.mp hp with rfl | hp
      · exact ⟨r, hr, List.mem_cons_self⟩
      · obtain ⟨r', hr', hmem⟩ := hzip ns p hp
        exact ⟨r', hr', List.mem_cons_of_mem _ hmem⟩

/-- The trackers that are processed at `a`, with the identifiers of what is spawned for them. -/
def replacing (a : BevyWorldAdapter F) : List (Entity × NetworkId) :=
  let (w, toRespawn) := processRespawn a.world
  (resourceClock.due a.world).zip (respawnIds toRespawn { a with world := w })

/-- Every tracker that has run out is replaced once, under an identifier of its own. -/
theorem replacing_spec (ha : a.roster.Bounded) :
    a.replacing.map Prod.fst = resourceClock.due a.world ∧ (a.replacing.map Prod.snd).Nodup ∧
      ∀ p ∈ a.replacing, a.allocator.next ≤ p.2.val ∧
        ∃ r, a.world.get p.1 .resourceRespawn = some r ∧
          ∃ e, Replaced a.respawnStage p.2 e (ResourceRespawn.request r) := by
  have hpassed := (processRespawn_plays a).bounded ha
  have hstage : a.respawnStage = (processRespawn a.world).2.foldl respawnResource
      { a with world := (processRespawn a.world).1 } := rfl
  have hdue : ∀ e ∈ resourceClock.due a.world, a.world.has e .resourceRespawn = true :=
    fun e he => (World.mem_query.mp (List.mem_of_mem_filter he)).2 _ (List.mem_singleton_self _)
  obtain ⟨hrequests, hzip⟩ := requests_zip a.world (resourceClock.due a.world) hdue
  unfold replacing
  rw [hstage]
  rw [processRespawn_eq] at hpassed ⊢
  dsimp only at hpassed ⊢
  generalize List.flatMap _ _ = rs at hrequests hzip ⊢
  obtain ⟨hlength, hspec⟩ := respawnIds_spec rs hpassed
  obtain ⟨hnodup, hfresh⟩ := respawnIds_fresh rs hpassed
  have hsnd : ((resourceClock.due a.world).zip (respawnIds rs
      { a with world := resourceClock.pass a.world })).map Prod.snd = respawnIds rs
        { a with world := resourceClock.pass a.world } := List.map_snd_zip (by omega)
  refine ⟨List.map_fst_zip (by omega), ?_, fun p hp => ?_⟩
  · rw [hsnd]
    exact hnodup
  · obtain ⟨r, hr, hmem⟩ := hzip _ p hp
    exact ⟨hfresh _ (List.of_mem_zip hmem).2, r, hr, hspec _ hmem⟩

end Replacements

/-- The trackers a step from `a` replaces, with the identifiers of the replacements. -/
def replacements (a : BevyWorldAdapter F) : List (Entity × NetworkId) :=
  (a.beforeReinit P).reinitStage.replacing

/-- `n` is the only replacement of `t` and of no other tracker, it was not in use before, and there
is a resource as `r` asks for behind it. -/
structure Replacement (a : BevyWorldAdapter F) (t : Entity) (n : NetworkId)
    (r : ResourceRespawn F) : Prop where
  only : ∀ n', (t, n') ∈ a.replacements P → n' = n
  own : ∀ t', (t', n) ∈ a.replacements P → t' = t
  fresh : ∀ e, ¬ a.bimap.Rel n e
  back : ∃ e, Replaced (a.simulate P) n e r.request

theorem replacements_spec (ha : Regular a) : (a.replacements P).map Prod.fst =
        resourceClock.due (a.beforeReinit P).reinitStage.world ∧
      ∀ t n, (t, n) ∈ a.replacements P →
        ∃ r, (a.beforeReinit P).reinitStage.world.get t .resourceRespawn = some r ∧
          Replacement P a t n r := by
  have hbounded := ha.coherent.toBounded
  have hplays : Plays [.beamMarker, .respawnTimer] a (a.beforeReinit P).reinitStage :=
    ((beforeReinit_plays P a).mono (by decide)).trans ((reinitStage_plays _).mono (by decide))
  have hsetup := (beforeHook_moves P a).setup.hook
  have hsimulate := simulate_eq P a
  rw [beforeHook_split] at hsetup hsimulate
  have hreplacements : a.replacements P = (a.beforeReinit P).reinitStage.replacing := rfl
  generalize (a.beforeReinit P).reinitStage = b at hplays hsetup hsimulate hreplacements ⊢
  obtain ⟨hfst, hsnd, hspec⟩ := replacing_spec (hplays.bounded hbounded)
  have hnodup : (b.replacing.map Prod.fst).Nodup := by
    rw [hfst]
    exact (b.world.nodup_query _).filter _
  rw [hreplacements]
  refine ⟨hfst, fun t n hmem => ?_⟩
  obtain ⟨hnew, r, hr, e, he⟩ := hspec _ hmem
  refine ⟨r, hr, fun n' hn' => ?_, fun t' ht' => ?_, fun e' hrel => ?_, e, ?_⟩
  · rw [hreplacements] at hn'
    exact congrArg Prod.snd (List.inj_on_of_nodup_map hnodup hn' hmem rfl)
  · rw [hreplacements] at ht'
    exact congrArg Prod.fst (List.inj_on_of_nodup_map hsnd ht' hmem rfl)
  · have hmono : a.allocator.next ≤ b.allocator.next :=
      Roster.nextId_le_steps (hplays.moves.steps _ (Nat.le_refl _) hbounded)
    have hold : n.val < a.allocator.next := hbounded.ids n e' hrel
    have hle : b.allocator.next ≤ n.val := hnew
    omega
  · rw [hsimulate]
    exact he.clamp.runHook (hsetup ▸ ha.inert)

/-! ## Resources -/

omit [F32 F] in
/-- The clock does not change what a tracker asks for. -/
theorem request_iterate (r : ResourceRespawn F) (k : Nat) :
    ResourceRespawn.request (resourceClock.tick^[k] r) = r.request := by
  induction k with
  | zero => rfl
  | succ k ih =>
    have hlast := Function.iterate_succ_apply' resourceClock.tick k r
    exact (congrArg ResourceRespawn.request hlast).trans ih

theorem Replacement.of_request
    {r' : ResourceRespawn F} (h : Replacement P a t n r) (hr : r.request = r'.request) :
    Replacement P a t n r' :=
  ⟨h.only, h.own, h.fresh, hr ▸ h.back⟩

/-- A tracker that waits is replaced in the step its clock shows and in no other. -/
theorem Waits.replaced (ha : Regular a) (h : Waits resourceClock a t r)
    (hleft : 1 ≤ r.remaining.toNat)
    {ops : List (Op F)} (hops : .clearWorld ∉ ops) :
    let b := a.runOps P ops
    ((∃ n, (t, n) ∈ b.replacements P) ↔ stepsOf ops + 1 = r.remaining.toNat) ∧
      ∀ n, (t, n) ∈ b.replacements P → Replacement P b t n r := by
  intro b
  have hround : ∀ d : BevyWorldAdapter F, Regular d →
      Round resourceClock d (d.beforeReinit P).reinitStage (d.simulate P) := fun d hd =>
    resource_round P hd.coherent.toBounded hd.inert
  have hb : Regular b := ha.runOps P ops
  obtain ⟨hfst, hspec⟩ := replacements_spec P hb
  have hdue : t ∈ resourceClock.due (b.beforeReinit P).reinitStage.world ↔
      stepsOf ops + 1 = r.remaining.toNat := h.due_iff P hround ha hleft hops
  have hmem : (∃ n, (t, n) ∈ b.replacements P) ↔ stepsOf ops + 1 = r.remaining.toNat := by
    rw [← hdue, ← hfst, List.mem_map]
    exact ⟨fun ⟨n, hn⟩ => ⟨(t, n), hn, rfl⟩, fun ⟨p, hp, heq⟩ => ⟨p.2, heq ▸ hp⟩⟩
  refine ⟨hmem, fun n hn => ?_⟩
  obtain ⟨r', hr', hreplacement⟩ := hspec t n hn
  have hsteps : stepsOf ops < r.remaining.toNat := by
    have := hmem.mp ⟨n, hn⟩
    omega
  -- the tracker is processed with what is left of the clock it had
  have hwaits := (hround b hb).waits_before ((h.runOps P hround ha hops).1 hsteps)
  have hvalue := Option.some.inj (hr'.symm.trans hwaits.value)
  exact hreplacement.of_request P ((congrArg ResourceRespawn.request hvalue).trans
    (request_iterate r _))

omit [F32 F] in
theorem nodup_nextEntities (w : World F) (count : Nat) : (nextEntities w count).Nodup := by
  refine List.Nodup.map (fun i j h => ?_) List.nodup_range'
  exact congrArg Entity.id h

/-- Every resource that a step exhausts has a tracker of its own, and whatever happens then, short of
a clear, the tracker is replaced in the step that comes `delay_ticks` after that one and in no other,
once, by a resource of the same capacity at the same place. -/
theorem resource_back_on_time {a₀ : BevyWorldAdapter F} (h : Fresh a₀)
    {hook : Option (World F → World F)} (hhook : ∀ f, hook = some f → Inert f)
    (setup : List (Op F)) :
    let a := runOps P { a₀ with postSimulateHook := hook } setup
    ∃ ts : List Entity, ts.Nodup ∧ ts.length = (a.depleted P).length ∧
      ∀ t e n r, (t, e, n, r) ∈ ts.zip (a.depleted P) → r.delayTicks = 300 ∧
        ∀ ops : List (Op F), .clearWorld ∉ ops →
          let b := runOps P (a.simulate P) ops
          ((∃ n', (t, n') ∈ b.replacements P) ↔ stepsOf ops + 1 = r.delayTicks.toNat) ∧
            ∀ n', (t, n') ∈ b.replacements P → Replacement P b t n' r := by
  have hregular := (h.regular hhook).runOps P setup
  intro a
  refine ⟨nextEntities a.world (a.depleted P).length, nodup_nextEntities _ _, ?_, ?_⟩
  · simp [nextEntities]
  · intro t e n r hmem
    have hwaits := depleted_waits P hregular _ hmem
    obtain ⟨hdelay, hremaining⟩ := delay_depleted P (List.of_mem_zip hmem).2
    dsimp only at hwaits hdelay hremaining
    have hleft : (ResourceRespawn.remaining (resourceClock.tick r)).toNat = 300 := by
      show (r.remaining.satSub 1).toNat = 300
      rw [hremaining]
      rfl
    refine ⟨hdelay, fun ops hops => ?_⟩
    have hback := hwaits.replaced P (hregular.simulate P) (by omega) hops
    rw [hleft] at hback
    rw [hdelay]
    exact ⟨hback.1, fun n' hn' => (hback.2 n' hn').of_request P rfl⟩

/-- Two bytes for a resource. -/
def quarryPlatform : Platform ℚ :=
  { rationalPlatform with
    decode := fun
      | .resource, [n, c] => some ⟨n.toUInt16, c.toUInt16⟩
      | k, payload => rationalDecode k payload }

def quarryBase : BevyWorldAdapter ℚ :=
  { newWithRng World.new 60 ⟨1, 0⟩ with replicators := platformReplicators quarryPlatform }

theorem quarryBase_fresh : Fresh quarryBase :=
  .newWithRng World.new blank_new 60 ⟨1, 0⟩ _ (platformReplicators_plain quarryPlatform)

/-- A client that owns a resource and empties it. -/
def quarryOps : List (Op ℚ) :=
  [.spawnKindFor entityTypeResource 100 100 0 ⟨7⟩,
    .applyUpdates [(⟨7⟩, ⟨⟨1⟩, ⟨1026⟩, [0, 50], 0⟩)]]

omit [F32 F] in
theorem stepsOf_replicate (k : Nat) : stepsOf (List.replicate k (.simulate : Op F)) = k := by
  rw [stepsOf, List.countP_replicate]
  rfl

omit [F32 F] in
theorem clearWorld_notMem_replicate (k : Nat) :
    .clearWorld ∉ List.replicate k (.simulate : Op F) := by
  intro hmem
  cases List.eq_of_mem_replicate hmem

theorem quarry_depleted : ((runOps quarryPlatform { quarryBase with postSimulateHook := some id }
    quarryOps).depleted quarryPlatform).length = 1 := by
  decide +kernel

theorem resource_back_on_time_quarry :
    let a := runOps quarryPlatform { quarryBase with postSimulateHook := some id } quarryOps
    (a.depleted quarryPlatform).length = 1 ∧ ∃ t n,
      (t, n) ∈ (runOps quarryPlatform (a.simulate quarryPlatform)
        (List.replicate 299 .simulate)).replacements quarryPlatform := by
  have hid : ∀ f, some id = some f → Inert (F := ℚ) f := by
    rintro f ⟨⟩
    exact fun _ => rfl
  have hlaw := resource_back_on_time quarryPlatform quarryBase_fresh hid quarryOps
  have hone := quarry_depleted
  dsimp only at hlaw ⊢
  generalize runOps quarryPlatform { quarryBase with postSimulateHook := some id } quarryOps = a
    at hlaw hone ⊢
  obtain ⟨ts, -, hlength, hlaw⟩ := hlaw
  obtain ⟨t, rfl⟩ := List.length_eq_one_iff.mp (hlength.trans hone)
  obtain ⟨⟨e, n, r⟩, hdepleted⟩ := List.length_eq_one_iff.mp hone
  obtain ⟨hdelay, hback⟩ := hlaw t e n r (by simp [hdepleted])
  obtain ⟨hwhen, -⟩ := hback (List.replicate 299 .simulate) (clearWorld_notMem_replicate 299)
  refine ⟨hone, t, hwhen.mpr ?_⟩
  rw [stepsOf_replicate, hdelay]
  decide

/-! ## Training targets -/

section Targets

omit P

variable {a : BevyWorldAdapter F} {e : Entity} {n : NetworkId}

omit [F32 F] in
theorem alive_of_rel (ha : a.roster.Coherent)
    (hrel : a.bimap.Rel n e) : a.world.alive e = true := by
  obtain ⟨card, hcard, -⟩ := ha.card_of_rel hrel
  exact alive_of_card hcard

/-- What is on the map carries what it carried. -/
theorem Scene.has_of_rel {m : List Comp} {a' : BevyWorldAdapter F} (h : Scene m a a')
    (ha : a'.roster.Coherent) (hknown : e.id < a.world.ecs.next)
    (hrel : a'.bimap.Rel n e) (k : Comp) : a'.world.has e k = a.world.has e k := by
  rcases h.old hknown with hgone | ⟨-, hhas⟩
  · rw [alive_of_rel ha hrel] at hgone
    cases hgone
  · exact hhas k

/-- The timer of a terminated training target when it is spawned. -/
def targetTimer : RespawnTimer F := ⟨600, .coordinate 50.0 50.0⟩

theorem terminate_timer {acc : BevyWorldAdapter F × Events} (ha : acc.1.roster.Coherent)
    (hrel : acc.1.bimap.Rel n e)
    (htarget : acc.1.world.has e .trainingTarget = true) :
    ∃ t, Waits targetClock (terminate acc e).1 t targetTimer := by
  have hplays := dropPayload_plays (m := []) acc.1 e
  have hdrop := (dropPayload_grows acc.1 e).1
  have hknown := Storage.lt_next_of_alive (World.alive_of_has htarget)
  have hcoherent := hdrop.toMoves.coherent ha
  have hkept := (hplays.scene ha.toBounded).has_of_rel hcoherent hknown
    (hdrop.rel ha.toBounded n e hrel) .trainingTarget
  have hterminate : (terminate acc e).1 =
      (((acc.1.dropPayload e).spawnReinitTracker e).despawnNetworked n).1 := by
    unfold terminate
    simp only [BiMap.getByRight_eq_some.mpr hrel]
  rw [hterminate]
  generalize acc.1.dropPayload e = b at hcoherent hkept ⊢
  refine ⟨b.world.spawned, Waits.despawn ?_ n⟩
  have htracker : b.spawnReinitTracker e = b.onWorld (·.spawn timerComps) := by
    unfold spawnReinitTracker
    exact if_pos (hkept.trans htarget)
  rw [htracker]
  refine .of_spawn hcoherent.toBounded rfl fun x hx => ?_
  rcases List.mem_pair.mp hx with rfl | rfl
  · exact Or.inr rfl
  · exact Or.inl rfl

theorem terminations_timer (es : List Entity) (acc : BevyWorldAdapter F × Events)
    (ha : acc.1.roster.Coherent) (hes : ∀ e ∈ es, Listed acc.1 e)
    (he : e ∈ es) (hrel : acc.1.bimap.Rel n e)
    (htarget : acc.1.world.has e .trainingTarget = true) :
    ∃ t, Waits targetClock (es.foldl terminate acc).1 t targetTimer := by
  induction es generalizing acc with
  | nil => cases he
  | cons e' es ih =>
    have hcoherent := (terminate_moves acc e').coherent ha
    have hscene := (terminations_plays (m := []) [e'] acc fun x hx =>
      hes x (List.mem_singleton.mp hx ▸ List.mem_cons_self)).scene ha.toBounded
    have hrest : ∀ x ∈ es, Listed (terminate acc e').1 x := fun x hx =>
      (hes x (List.mem_cons_of_mem e' hx)).keep hscene
    by_cases hne : e = e'
    · -- the rest of the list does not come near the timer
      subst hne
      obtain ⟨t, ht⟩ := terminate_timer ha hrel htarget
      have hafter := (terminations_plays (m := []) es (terminate acc e) hrest).scene
        hcoherent.toBounded
      exact ⟨t, ht.scene hafter nofun (show Comp.respawnTimer ∉ _ by decide) nofun⟩
    · have hmem : e ∈ es := (List.mem_cons.mp he).resolve_left hne
      have hknown := Storage.lt_next_of_alive (World.alive_of_has htarget)
      obtain ⟨ids, hretired⟩ := terminate_retires.round acc ha (hes e' List.mem_cons_self).known
      have hstays := hretired.stays n e hrel fun hx => hne (List.mem_singleton.mp hx)
      refine ih _ hcoherent hrest hmem hstays ?_
      exact (hscene.has_of_rel hcoherent hknown hstays _).trans htarget

end Targets

/-- After the step that terminates it, a training target has 599 steps to wait. -/
theorem terminated_waits (ha : Regular a)
    (he : e ∈ (processBeams (a.beforeBeams P).world (a.beforeBeams P).bimap).2.2)
    (hrel : (a.beforeBeams P).bimap.Rel n e)
    (htarget : (a.beforeBeams P).world.has e .trainingTarget = true) :
    ∃ t, Waits targetClock (a.simulate P) t (targetClock.tick targetTimer) := by
  have hround := target_round P ha.coherent.toBounded ha.inert
  have hcoherent := (beforeBeams_plays (m := []) P a).moves.coherent ha.coherent
  obtain ⟨events, hrest⟩ := beamed_plays (m := [.beamMarker]) P a
  generalize a.beforeBeams P = b at he hrel htarget hcoherent hrest
  generalize a.beforeReinit P = c at hround hrest
  obtain ⟨hhits, hlisted, -⟩ := afterHits_plays (m := [.beamMarker]) b
  have hhas : b.afterHits.world.has e .trainingTarget = true :=
    ((processBeams_edited b.world b.bimap).edits.has e _).trans htarget
  have hb := hhits.moves.coherent hcoherent
  obtain ⟨t, ht⟩ := terminations_timer _ (b.afterHits, events) hb hlisted he hrel hhas
  have hterminated := (terminations_plays (m := []) _ (b.afterHits, events) hlisted).bounded
    hb.toBounded
  have hscene := ((spentBeams_plays (b, events) hcoherent.toBounded).trans hrest).scene hterminated
  have hwaits := ht.scene hscene (show Comp.respawnTimer ∉ _ by decide)
    (show Comp.respawnTimer ∉ _ by decide) (by decide)
  exact ⟨t, hround.waits_after hwaits (show 1 < (600 : UInt16).toNat by decide)⟩

/-- A training target comes back in the 599th step after the one that terminated it. -/
theorem target_back_early (ha : Regular a)
    (he : e ∈ (processBeams (a.beforeBeams P).world (a.beforeBeams P).bimap).2.2)
    (hrel : (a.beforeBeams P).bimap.Rel n e)
    (htarget : (a.beforeBeams P).world.has e .trainingTarget = true) :
    ∃ t, Waits targetClock (a.simulate P) t (targetClock.tick targetTimer) ∧
      ∀ ops : List (Op F), .clearWorld ∉ ops →
        (t ∈ targetClock.due ((runOps P (a.simulate P) ops).beforeReinit P).world ↔
          stepsOf ops + 1 = 599) := by
  have hround : ∀ b : BevyWorldAdapter F, Regular b →
      Round targetClock b (b.beforeReinit P) (b.simulate P) := fun b hb =>
    target_round P hb.coherent.toBounded hb.inert
  obtain ⟨t, ht⟩ := terminated_waits P ha he hrel htarget
  have hleft : targetClock.left (targetClock.tick (targetTimer (F := F))) = 599 := by
    show ((600 : UInt16).satSub 1).toNat = 599
    decide
  refine ⟨t, ht, fun ops hops => ?_⟩
  rw [← hleft]
  refine ht.due_iff P hround (ha.simulate P) ?_ hops
  omega

/-- A training target, and beams on top of it. -/
def rangeOps : List (Op ℚ) :=
  .spawnKind entityTypeTrainingTarget 100 100 0 ::
    List.replicate 6 (.spawnKind entityTypeBeam 100 100 0)

def rangeBase : BevyWorldAdapter ℚ :=
  { newWithRng World.new 60 ⟨1, 0⟩ with replicators := platformReplicators rationalPlatform }

def range : BevyWorldAdapter ℚ :=
  runOps rationalPlatform { rangeBase with postSimulateHook := none } rangeOps

theorem range_regular : Regular range := by
  have hfresh : Fresh rangeBase := .newWithRng World.new blank_new 60 ⟨1, 0⟩ _
    (platformReplicators_plain rationalPlatform)
  have hnone : ∀ f, (none : Option (World ℚ → World ℚ)) = some f → Inert f := nofun
  exact (hfresh.regular hnone).runOps rationalPlatform rangeOps

theorem range_terminates :
    let b := range.beforeBeams rationalPlatform
    (⟨2⟩ ∈ (processBeams b.world b.bimap).2.2 ∧ b.bimap.getByLeft ⟨1⟩ = some ⟨2⟩ ∧
      b.world.has ⟨2⟩ .trainingTarget = true) ∧
    range.bimap.getByLeft ⟨1⟩ = some ⟨2⟩ ∧ range.world.has ⟨2⟩ .trainingTarget = true ∧
      (range.simulate rationalPlatform).world.alive ⟨2⟩ = false := by
  decide +kernel

/-- The step terminates the target, whose tracker is due in the 599th step after it and is gone in
the 600th. -/
theorem range_target_early :
    range.bimap.getByLeft ⟨1⟩ = some ⟨2⟩ ∧ range.world.has ⟨2⟩ .trainingTarget = true ∧
      (range.simulate rationalPlatform).world.alive ⟨2⟩ = false ∧
      ∃ t, (range.simulate rationalPlatform).world.has t .respawnTimer = true ∧
        t ∈ targetClock.due ((runOps rationalPlatform (range.simulate rationalPlatform)
          (List.replicate 598 .simulate)).beforeReinit rationalPlatform).world ∧
        t ∉ targetClock.due ((runOps rationalPlatform (range.simulate rationalPlatform)
          (List.replicate 599 .simulate)).beforeReinit rationalPlatform).world := by
  obtain ⟨⟨hterminated, hmapped, htarget⟩, hbefore⟩ := range_terminates
  obtain ⟨t, ht, hlaw⟩ := target_back_early rationalPlatform range_regular hterminated
    (BiMap.getByLeft_eq_some.mp hmapped) htarget
  refine ⟨hbefore.1, hbefore.2.1, hbefore.2.2, t, ?_, ?_, fun hdue => ?_⟩
  · exact ht.has
  · have hsteps := stepsOf_replicate (F := ℚ) 598
    exact (hlaw _ (clearWorld_notMem_replicate 598)).mpr (by omega)
  · have hsteps := stepsOf_replicate (F := ℚ) 599
    have hwhen := (hlaw _ (clearWorld_notMem_replicate 599)).mp hdue
    omega

end BevyWorldAdapter

end Aetheris
