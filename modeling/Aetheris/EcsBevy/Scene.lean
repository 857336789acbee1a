import Aetheris.EcsBevy.Conservation

/-!
# The elementary steps of a simulation

Whatever `simulate` does to the entities it does in steps of six kinds: values are overwritten, a
tracker of a resource or of a training target is left behind, an entity is spawned by its kind, an
entity of the map is despawned, and a beam or tracker that has run out is. `SceneStep` lists them.
`Scene` is a sequence of such steps, and every stage of the simulation is one.

An invariant that every step keeps is kept by the whole simulation. Two such facts are stated here:
of an entity that is there before a step, nothing but the values changes unless it goes, and a
tracker is left alone by everything but its own countdown.
-/

namespace Aetheris

open Ecs Function Relation

variable {F : Type}

/-! ## Values -/

/-- `Edits` without a word about the queue of events. -/
structure Rewrites (ks : List Comp) (w w' : World F) : Prop where
  alive : ∀ e, w'.alive e = w.alive e
  has : ∀ e k, w'.has e k = w.has e k
  get : ∀ e k, k ∉ ks → w'.get e k = w.get e k
  next : w'.ecs.next = w.ecs.next

theorem Rewrites.of_edits {ks : List Comp} {w w' : World F} (h : Edits ks w w') :
    Rewrites ks w w' :=
  ⟨h.alive, h.has, h.get, h.next⟩

theorem Rewrites.of_ecs_eq {w w' : World F} (h : w'.ecs = w.ecs) : Rewrites [] w w' where
  alive e := by rw [World.alive, World.alive, h]
  has e k := by rw [World.has, World.has, h]
  get e k _ := by rw [World.get, World.get, h]
  next := by rw [h]

namespace BevyWorldAdapter

variable [F32 F]

/-- One step; `m` are the marks of the beams and trackers that may count down and go. -/
inductive SceneStep (m : List Comp) : BevyWorldAdapter F → BevyWorldAdapter F → Prop where
  | write {a a' : BevyWorldAdapter F} (ks : List Comp) (h : Rewrites ks a.world a'.world)
      (hks : ∀ k ∈ ks, k ∈ valueComps ∨ k ∈ m) (hbimap : a'.bimap = a.bimap)
      (hallocator : a'.allocator = a.allocator) : SceneStep m a a'
  | track (a : BevyWorldAdapter F) (r : ResourceRespawn F) :
      SceneStep m a (a.onWorld (spawnTracker · r))
  | timer (a : BevyWorldAdapter F) : SceneStep m a (a.onWorld (·.spawn timerComps))
  | spawn (a : BevyWorldAdapter F) (kind : UInt16) (x y rot : F) :
      SceneStep m a (a.spawnKind kind x y rot).1
  /-- Whatever goes is mortal, if it is a workspace at all. -/
  | unmap (a : BevyWorldAdapter F) (n : NetworkId)
      (h : ∀ e, a.bimap.Rel n e → a.world.has e .workspaceDefinition = true →
        ∃ k ∈ mortalComps, a.world.has e k = true) :
      SceneStep m a (a.despawnNetworked n).1
  | finish (a : BevyWorldAdapter F) (e : Entity) (k : Comp) (hk : k ∈ m)
      (h : a.world.alive e = true → a.world.has e k = true) :
      SceneStep m a (a.onWorld (·.despawn e))

abbrev Scene (m : List Comp) : BevyWorldAdapter F → BevyWorldAdapter F → Prop :=
  ReflTransGen (SceneStep m)

/-! ## Entities that were there before -/

/-- Nothing happens to the entities that `a` has, and none of them is put on the map. -/
structure Leaves (a a' : BevyWorldAdapter F) : Prop where
  next : a.world.ecs.next ≤ a'.world.ecs.next
  alive : ∀ e : Entity, e.id < a.world.ecs.next → a'.world.alive e = a.world.alive e
  get : ∀ e : Entity, e.id < a.world.ecs.next → ∀ k, a'.world.get e k = a.world.get e k
  rel : ∀ (n : NetworkId) (e : Entity), e.id < a.world.ecs.next → a'.bimap.Rel n e →
    a.bimap.Rel n e

namespace Leaves

omit [F32 F]

variable {a b c : BevyWorldAdapter F}

theorem of_eq (hworld : b.world = a.world) (hbimap : b.bimap = a.bimap) : Leaves a b := by
  refine ⟨?_, fun e _ => ?_, fun e _ k => ?_, fun n e _ hrel => hbimap ▸ hrel⟩
  · rw [hworld]
  · rw [hworld]
  · rw [hworld]

theorem trans (h : Leaves a b) (h' : Leaves b c) : Leaves a c where
  next := Nat.le_trans h.next h'.next
  alive e he := (h'.alive e (Nat.lt_of_lt_of_le he h.next)).trans (h.alive e he)
  get e he k := (h'.get e (Nat.lt_of_lt_of_le he h.next) k).trans (h.get e he k)
  rel n e he hrel := h.rel n e he (h'.rel n e (Nat.lt_of_lt_of_le he h.next) hrel)

/-- A fresh entity, which may be mapped and given components. -/
theorem of_spawn {l : Comps F} (hnext : b.world.ecs.next = a.world.ecs.next + 1)
    (halive : ∀ e, e ≠ a.world.spawned → b.world.alive e = (a.world.spawn l).alive e)
    (hget : ∀ e, e ≠ a.world.spawned → ∀ k, b.world.get e k = (a.world.spawn l).get e k)
    (hrel : ∀ n e, e ≠ a.world.spawned → b.bimap.Rel n e → a.bimap.Rel n e) : Leaves a b where
  next := by omega
  alive e he := by
    have hne := ne_spawned_of_lt he
    rw [halive e hne, World.alive_spawn, decide_eq_false hne, Bool.false_or]
  get e he k := by
    have hne := ne_spawned_of_lt he
    rw [hget e hne, World.get_spawn, if_neg hne]
  rel n e he := hrel n e (ne_spawned_of_lt he)

theorem spawnOnWorld (a : BevyWorldAdapter F) (l : Comps F) : Leaves a (a.onWorld (·.spawn l)) :=
  of_spawn (l := l) rfl (fun _ _ => rfl) (fun _ _ _ => rfl) fun _ _ _ h => h

end Leaves

variable {a : BevyWorldAdapter F} {e e' : Entity} {k : Comp} {m : List Comp} {n : NetworkId}
  {w : World F}

omit [F32 F] in
theorem rel_of_insert {m : BiMap NetworkId Entity} {n' : NetworkId} (h : e' ≠ e)
    (hrel : (m.insert n e).Rel n' e') : m.Rel n' e' := by
  rcases BiMap.rel_insert.mp hrel with ⟨-, heq⟩ | ⟨hold, -⟩
  · exact absurd heq h
  · exact hold

theorem createMaster_leaves (a : BevyWorldAdapter F) : Leaves a a.createMaster.1 := by
  rw [createMaster_eq]
  refine Leaves.of_spawn (l := [⟨.networked, a.allocator.allocate.1⟩]) ?_ (fun e _ => ?_)
    (fun e he k => ?_) fun n e he => rel_of_insert he
  · exact Storage.next_insert _ _ _
  · exact World.alive_insert _ _ _ _
  · exact World.get_insert_of_ne _ (Or.inl he)

omit [F32 F] in
theorem alive_inserts (m : List (Comps F)) (w : World F) :
    (m.foldl (fun w l => w.insert e l) w).alive e' = w.alive e' := by
  induction m generalizing w with
  | nil => rfl
  | cons l m ih => exact (ih _).trans (World.alive_insert w e e' l)

theorem placeKind_leaves (a : BevyWorldAdapter F) (n : NetworkId) (kind : UInt16) (x y rot : F)
    (master : NetworkId) : Leaves a (a.placeKind n kind x y rot master) := by
  refine Leaves.of_spawn (l := spawnComps n kind x y rot) ?_ (fun e _ => ?_) (fun e he k => ?_)
    fun n e he => rel_of_insert he
  · exact congrArg Roster.nextEntity (placeKind_roster a n kind x y rot master)
  · exact (World.alive_insert _ _ _ _).trans (alive_inserts (kindComps kind x y) _)
  · rw [get_placeKind, get_inserts_of_ne he]

theorem spawnKindFuel_leaves (fuel : Nat) :
    ∀ (a : BevyWorldAdapter F) (kind : UInt16) (x y rot : F),
      Leaves a (spawnKindFuel fuel a kind x y rot).1 := by
  induction fuel with
  | zero => exact fun a _ _ _ _ => .of_eq rfl rfl
  | succ fuel ih =>
    intro a kind x y rot
    let a₁ := { a with allocator := a.allocator.allocate.2 }
    have hfirst : Leaves a a₁ := .of_eq rfl rfl
    unfold spawnKindFuel
    cases hmaster : a₁.findMaster with
    | some master =>
      simp only [a₁] at hmaster
      simp only [hmaster]
      exact hfirst.trans (placeKind_leaves a₁ _ kind x y rot master)
    | none =>
      simp only [a₁] at hmaster
      simp only [hmaster]
      have hnested := (createMaster_leaves a₁).trans
        (ih a₁.createMaster.1 entityTypeResource 30.0 0.0 0.0)
      exact (hfirst.trans hnested).trans (placeKind_leaves _ _ kind x y rot _)

theorem spawnKind_leaves (a : BevyWorldAdapter F) (kind : UInt16) (x y rot : F) :
    Leaves a (a.spawnKind kind x y rot).1 := spawnKindFuel_leaves 2 a kind x y rot

omit [F32 F] in
theorem alive_despawnNetworked (hrel : a.bimap.Rel n e) (e' : Entity) :
    (a.despawnNetworked n).1.world.alive e' = if e' = e then false else a.world.alive e' := by
  have hroster := despawnNetworked_roster (BiMap.getByLeft_eq_some.mpr hrel)
  have hcard : (a.despawnNetworked n).1.world.card = Function.update a.world.card e none :=
    congrArg Roster.cards hroster
  rw [Bool.eq_iff_iff, ← Bool.not_eq_false, ← World.card_eq_none, hcard]
  split
  · next he => simp [he]
  · next he => rw [Function.update_of_ne he, World.card_eq_none, Bool.not_eq_false]

omit [F32 F] in
theorem next_despawnNetworked (a : BevyWorldAdapter F) (n : NetworkId) :
    (a.despawnNetworked n).1.world.ecs.next = a.world.ecs.next := by
  cases hleft : a.bimap.getByLeft n with
  | none => rw [despawnNetworked_other hleft]
  | some e => exact congrArg Roster.nextEntity (despawnNetworked_roster hleft)

namespace SceneStep

variable {m : List Comp} {a a' : BevyWorldAdapter F}

theorem next_le (h : SceneStep m a a') : a.world.ecs.next ≤ a'.world.ecs.next := by
  cases h with
  | write _ hw => exact Nat.le_of_eq hw.next.symm
  | track r => exact Nat.le_succ _
  | timer => exact Nat.le_succ _
  | spawn kind x y rot => exact (spawnKind_leaves a kind x y rot).next
  | unmap n => exact Nat.le_of_eq (next_despawnNetworked a n).symm
  | finish e => exact Nat.le_refl _

/-- An entity that is there goes or carries what it carried. -/
theorem old (h : SceneStep m a a') {e : Entity} (he : e.id < a.world.ecs.next) :
    a'.world.alive e = false ∨
      a'.world.alive e = a.world.alive e ∧ ∀ k, a'.world.has e k = a.world.has e k := by
  have hleaves : ∀ {b : BevyWorldAdapter F}, Leaves a b →
      b.world.alive e = a.world.alive e ∧ ∀ k, b.world.has e k = a.world.has e k :=
    fun hb => ⟨hb.alive e he, fun k => congrArg Option.isSome (hb.get e he k)⟩
  cases h with
  | write _ hw => exact Or.inr ⟨hw.alive e, hw.has e⟩
  | track r => exact Or.inr (hleaves (.spawnOnWorld a _))
  | timer => exact Or.inr (hleaves (.spawnOnWorld a _))
  | spawn kind x y rot => exact Or.inr (hleaves (spawnKind_leaves a kind x y rot))
  | unmap n =>
    cases hleft : a.bimap.getByLeft n with
    | none =>
      rw [despawnNetworked_other hleft]
      exact Or.inr ⟨rfl, fun _ => rfl⟩
    | some e' =>
      have hrel := BiMap.getByLeft_eq_some.mp hleft
      rw [alive_despawnNetworked hrel]
      by_cases hne : e = e'
      · exact Or.inl (if_pos hne)
      · refine Or.inr ⟨if_neg hne, fun k => congrArg Option.isSome ?_⟩
        exact (get_despawnNetworked hrel e k).trans (if_neg hne)
  | finish e' =>
    show (a.world.despawn e').alive e = false ∨ (a.world.despawn e').alive e = a.world.alive e ∧
      ∀ k, (a.world.despawn e').has e k = a.world.has e k
    rw [World.alive_despawn]
    by_cases hne : e = e'
    · exact Or.inl (by simp [hne])
    · refine Or.inr ⟨by simp [hne], fun k => congrArg Option.isSome ?_⟩
      exact (World.get_despawn a.world e' e k).trans (if_neg hne)

theorem mono {m' : List Comp} (h : SceneStep m a a') (hsub : m ⊆ m') : SceneStep m' a a' := by
  cases h with
  | write ks hw hks hbimap hallocator =>
    exact .write ks hw (fun k hk => (hks k hk).imp_right (@hsub k)) hbimap hallocator
  | track r => exact .track a r
  | timer => exact .timer a
  | spawn kind x y rot => exact .spawn a kind x y rot
  | unmap n hn => exact .unmap a n hn
  | finish e k hk hhas => exact .finish a e k (hsub hk) hhas

end SceneStep

/-- Whatever `e` carries, it carries something mortal too. -/
def Mortal (w : World F) (e : Entity) : Prop :=
  ∀ k, w.has e k = true → ∃ k' ∈ mortalComps, w.has e k' = true

omit [F32 F] in
theorem Mortal.of_has (hk : k ∈ mortalComps)
    (h : w.has e k = true) : Mortal w e := fun _ _ => ⟨k, hk, h⟩

omit [F32 F] in
theorem not_has_of_not_alive (h : w.alive e = false) (k : Comp) : w.has e k = false := by
  rw [World.has, Storage.has, show w.ecs.get e k = none from World.get_of_not_alive h k]
  rfl

namespace Scene

variable {m : List Comp} {a a' : BevyWorldAdapter F}

theorem next_le (h : Scene m a a') : a.world.ecs.next ≤ a'.world.ecs.next := by
  induction h with
  | refl => exact Nat.le_refl _
  | tail _ hstep ih => exact Nat.le_trans ih hstep.next_le

theorem old (h : Scene m a a') {e : Entity} (he : e.id < a.world.ecs.next) :
    a'.world.alive e = false ∨
      a'.world.alive e = a.world.alive e ∧ ∀ k, a'.world.has e k = a.world.has e k := by
  induction h with
  | refl => exact Or.inr ⟨rfl, fun _ => rfl⟩
  | tail hbefore hstep ih =>
    have hnext := next_le hbefore
    rcases hstep.old (Nat.lt_of_lt_of_le he hnext) with hgone | ⟨halive, hhas⟩
    · exact Or.inl hgone
    · rw [halive]
      exact ih.imp_right fun hsame => ⟨hsame.1, fun k => (hhas k).trans (hsame.2 k)⟩

/-- What is dead stays dead. -/
theorem dead (h : Scene m a a') {e : Entity} (he : e.id < a.world.ecs.next)
    (hdead : a.world.alive e = false) : a'.world.alive e = false := by
  rcases h.old he with hgone | ⟨hsame, -⟩
  · exact hgone
  · exact hsame.trans hdead

theorem mortal (h : Scene m a a') {e : Entity} (he : e.id < a.world.ecs.next)
    (hmortal : Mortal a.world e) : Mortal a'.world e := by
  intro k hk
  rcases h.old he with hgone | ⟨-, hhas⟩
  · rw [not_has_of_not_alive hgone] at hk
    cases hk
  · obtain ⟨k', hk', hhas'⟩ := hmortal k ((hhas k).symm.trans hk)
    exact ⟨k', hk', (hhas k').trans hhas'⟩

end Scene

/-! ## Stages -/

/-- A part of the simulation as a sequence of steps; the identifiers have to be in order. -/
structure Plays (m : List Comp) (a a' : BevyWorldAdapter F) : Prop where
  moves : Moves a a'
  scene : a.roster.Bounded → Scene m a a'

namespace Plays

variable {m : List Comp} {a b c : BevyWorldAdapter F}

theorem bounded (h : Plays m a b) (ha : a.roster.Bounded) : b.roster.Bounded :=
  Roster.bounded_steps (h.moves.steps _ (Nat.le_refl _) ha) ha

theorem refl (a : BevyWorldAdapter F) : Plays m a a := ⟨Moves.refl a, fun _ => .refl⟩

theorem trans (h : Plays m a b) (h' : Plays m b c) : Plays m a c :=
  ⟨h.moves.trans h'.moves, fun ha => (h.scene ha).trans (h'.scene (h.bounded ha))⟩

theorem mono {m' : List Comp} (h : Plays m a b) (hsub : m ⊆ m') : Plays m' a b :=
  ⟨h.moves, fun ha => ReflTransGen.mono (fun _ _ hstep => hstep.mono hsub) _ _ (h.scene ha)⟩

theorem single (hmoves : Moves a b) (h : SceneStep m a b) : Plays m a b :=
  ⟨hmoves, fun _ => .single h⟩

theorem of_edits {ks : List Comp} {w : World F} (h : Edits ks a.world w)
    (hks : ∀ k ∈ ks, k ∈ valueComps ∨ k ∈ m) (hnet : .networked ∉ ks)
    (howner : .networkOwner ∉ ks) : Plays m a { a with world := w } :=
  .single (Moves.of_edits a h hnet howner) (.write ks (.of_edits h) hks rfl rfl)

theorem of_values {ks : List Comp} {w : World F} (h : Edits ks a.world w)
    (hks : ∀ k ∈ ks, k ∈ valueComps) : Plays m a { a with world := w } :=
  .of_edits h (fun k hk => Or.inl (hks k hk)) (fun hk => absurd (hks _ hk) (by decide))
    fun hk => absurd (hks _ hk) (by decide)

theorem spawn (a : BevyWorldAdapter F) (kind : UInt16) (x y rot : F) :
    Plays m a (a.spawnKind kind x y rot).1 :=
  .single (spawnKind_moves a kind x y rot) (.spawn a kind x y rot)

theorem foldl {α : Type} {f : BevyWorldAdapter F → α → BevyWorldAdapter F}
    (h : ∀ a x, Plays m a (f a x)) (l : List α) (a : BevyWorldAdapter F) :
    Plays m a (l.foldl f a) := by
  induction l generalizing a with
  | nil => exact .refl a
  | cons x l ih => exact (h a x).trans (ih (f a x))

/-- A loop over entities of which something is known that lasts. -/
theorem foldl_of {σ : Type} (π : σ → BevyWorldAdapter F) {f : σ → Entity → σ}
    (R : BevyWorldAdapter F → Entity → Prop) (hmoves : ∀ s e, Moves (π s) (π (f s e)))
    (hstep : ∀ s e, (π s).roster.Bounded → R (π s) e → Scene m (π s) (π (f s e)))
    (hkeep : ∀ {a a' : BevyWorldAdapter F} {e}, Scene m a a' → R a e → R a' e)
    (es : List Entity) (s : σ) (hes : ∀ e ∈ es, R (π s) e) :
    Plays m (π s) (π (es.foldl f s)) := by
  induction es generalizing s with
  | nil => exact .refl (π s)
  | cons e es ih =>
    obtain ⟨he, hes⟩ := List.forall_mem_cons.mp hes
    have hrest : (π s).roster.Bounded → Plays m (π (f s e)) (π (es.foldl f (f s e))) :=
      fun hb => ih (f s e) fun e' he' => hkeep (hstep s e hb he) (hes e' he')
    refine ⟨(hmoves s e).trans (Moves.foldl π hmoves es (f s e)), fun hb => ?_⟩
    exact (hstep s e hb he).trans ((hrest hb).scene
      (Roster.bounded_steps ((hmoves s e).steps _ (Nat.le_refl _) hb) hb))

end Plays

/-- An entity of which a loop knows that it is mortal. -/
structure Listed (a : BevyWorldAdapter F) (e : Entity) : Prop where
  known : e.id < a.world.ecs.next
  mortal : Mortal a.world e

theorem Listed.keep {a' : BevyWorldAdapter F} (h : Scene m a a') (he : Listed a e) : Listed a' e :=
  ⟨Nat.lt_of_lt_of_le he.known h.next_le, h.mortal he.known he.mortal⟩

omit [F32 F] in
theorem Listed.of_has (hk : k ∈ mortalComps) (h : a.world.has e k = true) : Listed a e :=
  ⟨Storage.lt_next_of_alive (World.alive_of_has h), .of_has hk h⟩

theorem SceneStep.unmap_of_listed (hrel : a.bimap.Rel n e) (he : Listed a e) :
    SceneStep m a (a.despawnNetworked n).1 := by
  refine .unmap a n fun e' hrel' hdef => ?_
  obtain rfl := hrel.right_unique hrel'
  exact he.mortal _ hdef

section Stages

variable {m : List Comp}

theorem pushReliable_plays (a : BevyWorldAdapter F) (events : Events) :
    Plays m a (a.onWorld (·.pushReliable events)) :=
  .single (pushReliable_moves a events)
    (.write [] (.of_ecs_eq rfl) (fun _ hk => nomatch hk) rfl rfl)

theorem despawnMapped_plays (event : NetworkId → PlatformEvent) (es : List Entity)
    (acc : BevyWorldAdapter F × Events) (hes : ∀ e ∈ es, Listed acc.1 e) :
    Plays m acc.1 (es.foldl (despawnMapped event) acc).1 := by
  refine Plays.foldl_of Prod.fst Listed (despawnMapped_moves event) (fun acc e _ he => ?_)
    Listed.keep es acc hes
  unfold despawnMapped
  split
  · next n hright => exact .single (.unmap_of_listed (BiMap.getByRight_eq_some.mp hright) he)
  · exact .refl

theorem spawnTrackers_plays (trackers : List (ResourceRespawn F)) (a : BevyWorldAdapter F) :
    Plays m a { a with world := trackers.foldl spawnTracker a.world } := by
  induction trackers generalizing a with
  | nil => exact .refl a
  | cons tracker trackers ih =>
    have hone : Plays m a (a.onWorld (spawnTracker · tracker)) :=
      .single (spawnTracker_one_moves a tracker) (.track a tracker)
    exact hone.trans (ih _)

theorem handleResourceExhaustion_plays (a : BevyWorldAdapter F) :
    Plays m a { a with world := (handleResourceExhaustion a.world a.bimap).1 } ∧
      ∀ e ∈ (handleResourceExhaustion a.world a.bimap).2,
        Listed { a with world := (handleResourceExhaustion a.world a.bimap).1 } e := by
  have hlisted : ∀ e ∈ (exhaustedResources a.world a.bimap).map Prod.fst,
      a.world.has e .resource = true := by
    intro e he
    obtain ⟨⟨e, n, tracker⟩, hmem, rfl⟩ := List.mem_map.mp he
    obtain ⟨-, -, r, hr, -⟩ := mem_exhaustedResources.mp ⟨tracker, hmem⟩
    exact Option.isSome_iff_exists.mpr ⟨r, hr⟩
  unfold handleResourceExhaustion
  generalize exhaustedResources a.world a.bimap = exhausted at hlisted ⊢
  dsimp only
  generalize exhausted.map (fun x => ((none : Option ClientId),
    WireEvent.platformEvent (.resourceExhausted x.2.1))) = events
  have hpush : Plays m a { a with world := a.world.pushReliable events } :=
    pushReliable_plays a events
  obtain ⟨-, hget⟩ := spawnTrackers_flow True (exhausted.map (·.2.2))
    { a with world := a.world.pushReliable events }
  refine ⟨hpush.trans (spawnTrackers_plays _ { a with world := a.world.pushReliable events }),
    fun e he => .of_has (k := .resource) (by decide) ?_⟩
  have hhas := hlisted e he
  exact (congrArg Option.isSome (hget e (World.alive_of_has hhas) .resource)).trans hhas

/-- The adapter when the exhausted resources have their trackers. -/
def afterExhaustion (a : BevyWorldAdapter F) : BevyWorldAdapter F :=
  { a with world := (processExtraction a.world a.bimap).1 }

theorem afterExhaustion_plays (a : BevyWorldAdapter F) :
    Plays m a a.afterExhaustion ∧
      ∀ e ∈ (processExtraction a.world a.bimap).2, Listed a.afterExhaustion e := by
  have htransfers : Plays m a { a with world := afterTransfers a.world a.bimap } :=
    .of_values (afterTransfers_written a.world a.bimap).edits (by decide)
  obtain ⟨hexhausted, hlisted⟩ := handleResourceExhaustion_plays (m := m)
    { a with world := afterTransfers a.world a.bimap }
  unfold afterExhaustion
  rw [processExtraction_eq]
  exact ⟨htransfers.trans hexhausted, hlisted⟩

variable (acc : BevyWorldAdapter F × Events)

theorem exhaustedDespawns_plays : Plays m acc.1.afterExhaustion (extractionStage acc).1 := by
  have hlisted := (afterExhaustion_plays (m := m) acc.1).2
  unfold extractionStage
  unfold afterExhaustion at hlisted ⊢
  generalize processExtraction acc.1.world acc.1.bimap = out at hlisted ⊢
  exact despawnMapped_plays .resourceExhausted out.2 ({ acc.1 with world := out.1 }, acc.2) hlisted

theorem collectionStage_plays : Plays m acc.1 (collectionStage acc).1 := by
  have hedits := (processPayloadCollection_edited acc.1.world acc.1.bimap).edits
  have hemptied : ∀ d ∈ (processPayloadCollection acc.1.world acc.1.bimap).2,
      (processPayloadCollection acc.1.world acc.1.bimap).1.has d .dataDropComponent = true := by
    intro d hd
    obtain ⟨c, -, -, -, hdrop⟩ := mem_emptied.mp hd
    exact (hedits.has d _).trans (Option.isSome_iff_exists.mpr ⟨_, hdrop⟩)
  unfold collectionStage
  generalize processPayloadCollection acc.1.world acc.1.bimap = out at hedits hemptied ⊢
  have hcollect : Plays m acc.1 { acc.1 with world := out.1 } :=
    .of_values hedits (by decide)
  exact hcollect.trans (despawnMapped_plays (.payloadCollected · 0) out.2
    ({ acc.1 with world := out.1 }, acc.2) fun d hd => .of_has (by decide) (hemptied d hd))

/-- A spawn by kind whose entity is then given other values. -/
theorem spawnKind_edit_plays (a : BevyWorldAdapter F) (kind : UInt16) (x y rot : F)
    {ks : List Comp} {f : Entity → World F → World F} (hf : ∀ e w, Edits ks w (f e w))
    (hks : ∀ k ∈ ks, k ∈ valueComps) :
    let s := a.spawnKind kind x y rot
    Plays m a (match s.1.bimap.getByLeft s.2 with
      | some e => s.1.onWorld (f e)
      | none => s.1) := by
  have hspawn : Plays m a (a.spawnKind kind x y rot).1 := .spawn a kind x y rot
  intro s
  split
  · exact hspawn.trans (.of_values (hf _ _) hks)
  · exact hspawn

theorem dropPayload_plays (a : BevyWorldAdapter F) (e : Entity) : Plays m a (a.dropPayload e) := by
  unfold dropPayload
  split
  · dsimp only
    split
    · exact spawnKind_edit_plays a _ _ _ _
        (fun _ w => Edits.modify w _ (List.mem_singleton_self _) _) (by decide)
    · exact .refl a
  · exact .refl a

theorem spawnReinitTracker_plays (a : BevyWorldAdapter F) (e : Entity) :
    Plays m a (a.spawnReinitTracker e) := by
  have hmoves := (spawnReinitTracker_deeds a e).moves
  unfold spawnReinitTracker at hmoves ⊢
  split
  · next htarget =>
    rw [if_pos htarget] at hmoves
    exact .single hmoves (.timer a)
  · exact .refl a

theorem terminations_plays (es : List Entity) (acc : BevyWorldAdapter F × Events)
    (hes : ∀ e ∈ es, Listed acc.1 e) : Plays m acc.1 (es.foldl terminate acc).1 := by
  refine Plays.foldl_of Prod.fst Listed terminate_moves (fun acc e hb he => ?_) Listed.keep es acc
    hes
  unfold terminate
  split
  · next n hright =>
    have hrel := BiMap.getByRight_eq_some.mp hright
    have hgrows := (dropPayload_grows acc.1 e).1
    have hprepared := ((dropPayload_plays (m := m) acc.1 e).trans
      (spawnReinitTracker_plays (acc.1.dropPayload e) e)).scene hb
    -- the tracker is not on the map, and the drop does not take the identifier
    have hrel' : ((acc.1.dropPayload e).spawnReinitTracker e).bimap.Rel n e := by
      have hdrop := hgrows.rel hb n e hrel
      unfold spawnReinitTracker
      split
      · exact hdrop
      · exact hdrop
    exact hprepared.tail (.unmap_of_listed hrel' (he.keep hprepared))
  · exact .refl

/-- An entity that carries the mark `k` as long as it is there. -/
structure Bears (k : Comp) (a : BevyWorldAdapter F) (e : Entity) : Prop where
  known : e.id < a.world.ecs.next
  mark : a.world.alive e = true → a.world.has e k = true

variable {a : BevyWorldAdapter F} {e : Entity} {k : Comp}

omit [F32 F] in
theorem Bears.of_has (h : a.world.has e k = true) : Bears k a e :=
  ⟨Storage.lt_next_of_alive (World.alive_of_has h), fun _ => h⟩

theorem Bears.keep {a' : BevyWorldAdapter F} (h : Scene m a a')
    (he : Bears k a e) : Bears k a' e := by
  refine ⟨Nat.lt_of_lt_of_le he.known h.next_le, fun halive => ?_⟩
  rcases h.old he.known with hgone | ⟨hsame, hhas⟩
  · rw [hgone] at halive
    cases halive
  · exact (hhas k).trans (he.mark (hsame.symm.trans halive))

theorem despawnBeams_plays (es : List Entity) (acc : BevyWorldAdapter F × Events)
    (hes : ∀ e ∈ es, Bears .beamMarker acc.1 e) :
    Plays [.beamMarker] acc.1 (es.foldl despawnBeam acc).1 := by
  refine Plays.foldl_of Prod.fst (Bears .beamMarker) despawnBeam_moves (fun acc e _ he => ?_)
    Bears.keep es acc hes
  unfold despawnBeam
  split
  · next n hright =>
    have hrel := BiMap.getByRight_eq_some.mp hright
    refine .single (.unmap_of_listed hrel ⟨he.known, fun k hk => ?_⟩)
    exact ⟨.beamMarker, by decide, he.mark (World.alive_of_has hk)⟩
  · split
    · exact .single (.finish acc.1 e .beamMarker (List.mem_singleton_self _) he.mark)
    · exact .refl

omit [F32 F] in
theorem Listed.of_damageable (h : damageable a.world e = true) : Listed a e := by
  simp only [damageable, Bool.or_eq_true] at h
  rcases h with (h | h) | h
  · exact .of_has (by decide) h
  · exact .of_has (by decide) h
  · exact .of_has (by decide) h

/-- The adapter when the beams have hit, before anything goes. -/
def afterHits (a : BevyWorldAdapter F) : BevyWorldAdapter F :=
  { a with world := (processBeams a.world a.bimap).1 }

/-- What is to go: terminated entities and spent beams. -/
theorem afterHits_plays (a : BevyWorldAdapter F) :
    Plays m a a.afterHits ∧ (∀ e ∈ (processBeams a.world a.bimap).2.2, Listed a.afterHits e) ∧
      ∀ e ∈ (processBeams a.world a.bimap).2.1, Bears .beamMarker a.afterHits e := by
  have hedits := (processBeams_edited a.world a.bimap).edits
  obtain ⟨hterminations, hspent⟩ := processBeams_lists a.world a.bimap
  unfold afterHits
  generalize processBeams a.world a.bimap = out at hedits hterminations hspent ⊢
  refine ⟨.of_values hedits (by decide), fun e he => ?_, fun e he => ?_⟩
  · exact .of_damageable ((damageable_of_edits hedits e).trans (hterminations e he))
  · exact .of_has ((hedits.has e _).trans (hspent e he))

/-- The spent beams go last. -/
theorem spentBeams_plays (ha : acc.1.roster.Bounded) : Plays [.beamMarker]
      ((processBeams acc.1.world acc.1.bimap).2.2.foldl terminate (acc.1.afterHits, acc.2)).1
      (beamStage acc).1 := by
  obtain ⟨hhits, hlisted, hspent⟩ := afterHits_plays (m := [.beamMarker]) acc.1
  have hb := hhits.bounded ha
  unfold beamStage
  unfold afterHits at hlisted hspent hb ⊢
  generalize processBeams acc.1.world acc.1.bimap = out at hlisted hspent hb ⊢
  have hterminate := (terminations_plays (m := [.beamMarker]) out.2.2
    ({ acc.1 with world := out.1 }, acc.2) hlisted).scene hb
  exact despawnBeams_plays out.2.1 _ fun e he => (hspent e he).keep hterminate

theorem beamStage_plays : Plays [.beamMarker] acc.1 (beamStage acc).1 := by
  refine ⟨(beamStage_deeds acc).moves, fun ha => ?_⟩
  obtain ⟨hhits, hlisted, -⟩ := afterHits_plays (m := [.beamMarker]) acc.1
  have hterminate := terminations_plays (m := [.beamMarker]) _ (acc.1.afterHits, acc.2) hlisted
  exact ((hhits.trans hterminate).trans (spentBeams_plays acc ha)).scene ha

/-- A countdown over its trackers, then the removal of those that have run out. -/
theorem countdown_plays {α : Type} (hk : k ∈ trackerComps)
    {f : World F × List α × List Entity → Entity → World F × List α × List Entity}
    (hedit : ∀ acc e, Written [k] acc.1 (f acc e).1)
    (hlist : ∀ acc e, ∀ e' ∈ (f acc e).2.2, e' ∈ acc.2.2 ∨ e' = e ∧ acc.1.has e k = true)
    (es : List Entity) (a : BevyWorldAdapter F) {acc : World F × List α × List Entity}
    (hacc : es.foldl f (a.world, [], []) = acc) :
    Plays [k] a { a with world := acc.2.2.foldl World.despawn acc.1 } := by
  have hhas := has_of_countdown hedit hlist es (a.world, [], []) (by simp)
  have hedits : Edits [k] a.world _ := (Written.foldl Prod.fst hedit es (a.world, [], [])).edits
  have hmoves := (countdown_deeds hk hedit hlist es a hacc).moves
  rw [hacc] at hhas hedits
  refine ⟨hmoves, fun _ => ?_⟩
  have hticked : Scene [k] a { a with world := acc.1 } :=
    .single (.write [k] (.of_edits hedits) (fun _ h => Or.inr h) rfl rfl)
  have hgone : ∀ (ts : List Entity) (b : BevyWorldAdapter F), (∀ t ∈ ts, Bears k b t) →
      Scene [k] b { b with world := ts.foldl World.despawn b.world } := by
    intro ts
    induction ts with
    | nil => exact fun b _ => .refl
    | cons t ts ih =>
      intro b hts
      obtain ⟨ht, hts⟩ := List.forall_mem_cons.mp hts
      have hone : Scene [k] b (b.onWorld (·.despawn t)) :=
        .single (.finish b t k (List.mem_singleton_self k) ht.mark)
      exact hone.trans (ih _ fun t' ht' => (hts t' ht').keep hone)
  exact hticked.trans (hgone acc.2.2 { a with world := acc.1 } fun e he => .of_has (hhas e he))

theorem processTargetReinitialization_plays (a : BevyWorldAdapter F) :
    Plays [.respawnTimer] a { a with world := (processTargetReinitialization a.world).1 } :=
  countdown_plays (by decide) tickRespawnTimer_written tickRespawnTimer_listed
    (a.world.query [.respawnTimer]) a rfl

theorem processRespawn_plays (a : BevyWorldAdapter F) :
    Plays [.resourceRespawn] a { a with world := (processRespawn a.world).1 } :=
  countdown_plays (by decide) tickRespawn_written tickRespawn_listed
    (a.world.query [.resourceRespawn]) a rfl

theorem respawnTargets_plays (ps : List (F × F)) (a : BevyWorldAdapter F) :
    Plays m a (ps.foldl respawnTarget a) := by
  have htarget : ∀ (b : BevyWorldAdapter F) pos, Plays m b (b.respawnTarget pos) :=
    fun b pos => .spawn b entityTypeTrainingTarget pos.1 pos.2 0.0
  exact Plays.foldl htarget ps a

theorem respawnResource_plays (a : BevyWorldAdapter F) (r : F × F × UInt16) :
    Plays m a (a.respawnResource r) :=
  spawnKind_edit_plays a _ _ _ _ (fun _ w => Edits.modify w _ (List.mem_singleton_self _) _)
    (by decide)

theorem reinitStage_plays (a : BevyWorldAdapter F) : Plays [.respawnTimer] a a.reinitStage :=
  (processTargetReinitialization_plays a).trans (respawnTargets_plays _ _)

theorem respawnStage_plays (a : BevyWorldAdapter F) :
    Plays [.resourceRespawn] a a.respawnStage :=
  (processRespawn_plays a).trans (Plays.foldl respawnResource_plays _ _)

theorem spawnBeams_plays (a : BevyWorldAdapter F) : Plays m a a.spawnBeams := by
  have hclear : Plays m a (a.onWorld fun w =>
      { w with beamSpawnRequests := w.beamSpawnRequests.map fun _ => [] }) :=
    .of_values (Edits.of_ecs_eq [] rfl (Announces.of_eq rfl)) (by decide)
  refine hclear.trans (Plays.foldl (fun b spawn => ?_) _ _)
  have haim : ∀ (e : Entity) (w : World F), Written [.beamMarker, .velocity] w
      ((w.modify e .beamMarker fun m : BeamMarker F => { m with owner := spawn.owner }).modify
        e .velocity fun v : Velocity F => { v with dx := spawn.vel.1, dy := spawn.vel.2 }) :=
    fun e w => (Written.modify w e (by decide) _).andModify e (by decide) _
  exact spawnKind_edit_plays b _ _ _ _ (fun e w => (haim e w).edits) (by decide)

end Stages

section Step

variable (P : Platform F)

variable {a : BevyWorldAdapter F} {m : List Comp}

theorem motionStage_plays (a : BevyWorldAdapter F) : Plays m a (a.motionStage P) := by
  have hedits := (motionStage_written P a).edits
  unfold motionStage onWorld at hedits ⊢
  dsimp only at hedits ⊢
  exact .of_values hedits (by decide)

/-- The rest of the gameplay up to the beams, once the trackers of resources are there. -/
theorem exhausted_plays (a : BevyWorldAdapter F) :
    Plays m (a.motionStage P).afterExhaustion (a.beforeBeams P) := by
  have hextract : Plays m (a.motionStage P).afterExhaustion
      (extractionStage (a.motionStage P, [])).1 := exhaustedDespawns_plays (a.motionStage P, [])
  unfold beforeBeams beforeCollection
  generalize extractionStage (a.motionStage P, []) = s at hextract ⊢
  have hinteract : Plays m s.1 { s.1 with world := processInteraction P s.1.world s.1.bimap } :=
    .of_values (processInteraction_edits P s.1.world s.1.bimap) (by decide)
  dsimp only at hinteract ⊢
  generalize { s.1 with world := processInteraction P s.1.world s.1.bimap } = b at hinteract ⊢
  exact (hextract.trans hinteract).trans (collectionStage_plays (b, s.2))

theorem beforeBeams_plays (a : BevyWorldAdapter F) : Plays m a (a.beforeBeams P) :=
  ((motionStage_plays P a).trans (afterExhaustion_plays _).1).trans (exhausted_plays P a)

/-- The adapter when the timers of the training targets are processed. -/
def beforeReinit (a : BevyWorldAdapter F) : BevyWorldAdapter F :=
  ((a.motionStage P).gameplayStage P).spawnBeams.onWorld processRegen

/-- What is left of it once the beams are done. -/
theorem beamed_plays (a : BevyWorldAdapter F) :
    ∃ events, Plays m (beamStage (a.beforeBeams P, events)).1 (a.beforeReinit P) := by
  refine ⟨(collectionStage (a.beforeCollection P, (extractionStage (a.motionStage P, [])).2)).2, ?_⟩
  unfold beforeReinit
  rw [gameplayStage_eq]
  unfold beforeBeams
  generalize collectionStage (a.beforeCollection P, (extractionStage (a.motionStage P, [])).2) = s
  generalize beamStage s = t
  have hspawned := (pushReliable_plays (m := m) t.1 t.2).trans (spawnBeams_plays _)
  generalize (t.1.onWorld (·.pushReliable t.2)).spawnBeams = b at hspawned ⊢
  exact hspawned.trans (.of_values (processRegen_written b.world).edits (by decide))

theorem beams_plays (a : BevyWorldAdapter F) :
    Plays [.beamMarker] (a.beforeBeams P) (a.beforeReinit P) := by
  obtain ⟨events, hrest⟩ := beamed_plays (m := [.beamMarker]) P a
  generalize a.beforeBeams P = b at hrest ⊢
  exact (beamStage_plays (b, events)).trans hrest

theorem beforeReinit_plays (a : BevyWorldAdapter F) :
    Plays [.beamMarker] a (a.beforeReinit P) :=
  (beforeBeams_plays P a).trans (beams_plays P a)

theorem beforeHook_split (a : BevyWorldAdapter F) :
    a.beforeHook P = (a.beforeReinit P).reinitStage.respawnStage.onWorld clampStage := rfl

theorem clamp_plays (a : BevyWorldAdapter F) : Plays m a (a.onWorld clampStage) :=
  .of_values (clampStage_written a.world).edits (by decide)

theorem beforeHook_plays (a : BevyWorldAdapter F) : Plays transientComps a (a.beforeHook P) := by
  have hbefore : Plays transientComps a (a.beforeReinit P) :=
    (beforeReinit_plays P a).mono (by decide)
  rw [beforeHook_split]
  generalize a.beforeReinit P = b at hbefore ⊢
  have hreinit : Plays transientComps b b.reinitStage := (reinitStage_plays b).mono (by decide)
  generalize b.reinitStage = c at hreinit ⊢
  have hrespawn : Plays transientComps c c.respawnStage := (respawnStage_plays c).mono (by decide)
  generalize c.respawnStage = d at hrespawn ⊢
  exact ((hbefore.trans hreinit).trans hrespawn).trans (clamp_plays d)

omit P in
theorem runHook_plays
    (h : ∀ hook, a.postSimulateHook = some hook → Inert hook) : Plays m a a.runHook := by
  unfold runHook
  split
  · next hook hsome =>
    have hinert := h hook hsome
    exact .single (Moves.of_keepsCards a (hinert.keepsCards a.world))
      (.write [] (.of_ecs_eq (hinert a.world)) (fun _ hk => nomatch hk) rfl rfl)
  · exact .refl a

/-- A whole step of an adapter whose hook leaves the entities alone. -/
theorem simulate_plays (hhook : ∀ hook, a.postSimulateHook = some hook → Inert hook) :
    Plays transientComps a (a.simulate P) := by
  have hbefore := beforeHook_plays P a
  rw [simulate_eq]
  generalize a.beforeHook P = b at hbefore ⊢
  exact hbefore.trans (runHook_plays (hbefore.moves.setup.hook ▸ hhook))

theorem simulations_play (hhook : ∀ hook, a.postSimulateHook = some hook → Inert hook)
    (steps : Nat) : Plays transientComps a ((simulate P)^[steps] a) := by
  induction steps generalizing a with
  | zero => exact .refl a
  | succ steps ih =>
    have hstep := simulate_plays P hhook
    have hlater := ih (a := a.simulate P) fun hook hsome =>
      hhook hook (hstep.moves.setup.hook ▸ hsome)
    rw [iterate_succ_apply]
    exact hstep.trans hlater

/-- Simulation alone never gives a component to an entity that is there, takes one away or brings
an entity back. -/
theorem components_fixed (hbounded : a.roster.Bounded)
    (hhook : ∀ hook, a.postSimulateHook = some hook → Inert hook) (steps : Nat) (e : Entity)
    (he : e.id < a.world.ecs.next) :
    let b := (simulate P)^[steps] a
    b.world.alive e = false ∨
      b.world.alive e = a.world.alive e ∧ ∀ k, b.world.has e k = a.world.has e k :=
  ((simulations_play P hhook steps).scene hbounded).old he

/-- The data drop of the outpost goes. -/
theorem components_fixed_outpost :
    let b := (simulate rationalPlatform)^[2] (outpost 1 5)
    b.world.alive ⟨4⟩ = false ∨ b.world.alive ⟨4⟩ = (outpost 1 5).world.alive ⟨4⟩ ∧
      ∀ k, b.world.has ⟨4⟩ k = (outpost 1 5).world.has ⟨4⟩ k :=
  components_fixed rationalPlatform (outpost_coherent 1 5).toBounded (fun _ h => by cases h) 2 ⟨4⟩
    (by decide +kernel)

end Step

end BevyWorldAdapter

end Aetheris
