import Aetheris.EcsBevy.Deeds

/-!
# What survives a stage of the simulation

`Edits` speaks of stages that overwrite values. The other stages also spawn and despawn. `Evolves ks
w w'` covers them: no handle comes back to life, and an entity that lives in `w'` has there what it
had in `w`, except for the components `ks`. An entity that is new in `w'` had nothing in `w`, so it
carries only components of `ks`.
-/

namespace Aetheris

open Ecs

variable {F : Type}

structure Evolves (ks : List Comp) (w w' : World F) : Prop where
  next : w.ecs.next ≤ w'.ecs.next
  alive : ∀ e, w'.alive e = true → w.alive e = true ∨ w.ecs.next ≤ e.id
  get : ∀ e k, k ∉ ks → w'.alive e = true → w'.get e k = w.get e k
  queue : Announces w w'

/-- Handles from the counter on have no components. -/
theorem World.get_of_next_le {w : World F} {e : Entity} (h : w.ecs.next ≤ e.id) (k : Comp) :
    w.get e k = none := by
  refine World.get_of_not_alive ?_ k
  by_contra halive
  have hlt := Storage.lt_next_of_alive (Bool.eq_true_of_not_eq_false halive)
  omega

namespace Evolves

theorem refl (ks : List Comp) (w : World F) : Evolves ks w w :=
  ⟨Nat.le_refl _, fun _ h => Or.inl h, fun _ _ _ _ => rfl, Announces.refl w⟩

variable {ks : List Comp} {w w' : World F}

theorem trans {w'' : World F} (h : Evolves ks w w')
    (h' : Evolves ks w' w'') : Evolves ks w w'' where
  next := Nat.le_trans h.next h'.next
  alive e he := by
    rcases h'.alive e he with hmid | hnew
    · exact h.alive e hmid
    · exact Or.inr (Nat.le_trans h.next hnew)
  get e k hk he := by
    rw [h'.get e k hk he]
    rcases h'.alive e he with hmid | hnew
    · exact h.get e k hk hmid
    · rw [World.get_of_next_le hnew, World.get_of_next_le (Nat.le_trans h.next hnew)]
  queue := h.queue.trans h'.queue

theorem mono {ks' : List Comp} (h : Evolves ks w w') (hsub : ks ⊆ ks') : Evolves ks' w w' :=
  { h with get := fun e k hk => h.get e k fun hmem => hk (hsub hmem) }

theorem of_edits (h : Edits ks w w') : Evolves ks w w' where
  next := Nat.le_of_eq h.next.symm
  alive e he := Or.inl (h.alive e ▸ he)
  get e k hk _ := h.get e k hk
  queue := h.queue

theorem of_ecs_eq (ks : List Comp) (h : w'.ecs = w.ecs) (hq : Announces w w') : Evolves ks w w' :=
  of_edits (Edits.of_ecs_eq ks h hq)

theorem despawn (ks : List Comp) (w : World F) (e : Entity) : Evolves ks w (w.despawn e) where
  next := Nat.le_refl _
  alive e' he' := by
    rw [World.alive_despawn] at he'
    exact Or.inl (Bool.and_elim_right he')
  get e' k _ he' := by
    rw [World.alive_despawn] at he'
    rw [World.get_despawn, if_neg (of_decide_eq_true (Bool.and_elim_left he'))]
  queue := Announces.of_eq rfl

theorem spawn (w : World F) {l : List (Σ k, CompVal F k)}
    (hl : ∀ c ∈ l, c.1 ∈ ks) : Evolves ks w (w.spawn l) where
  next := Nat.le_succ _
  alive e he := by
    rw [World.alive_spawn] at he
    rcases (Bool.or_eq_true _ _).mp he with hnew | hold
    · rw [of_decide_eq_true hnew]
      exact Or.inr (Nat.le_refl _)
    · exact Or.inl hold
  get e k hk _ := by
    rw [World.get_spawn]
    split
    · next he =>
      have hnone : bundle l k = none := bundle_eq_none fun c hc hck => hk (hck ▸ hl c hc)
      rw [hnone, he, World.get_of_not_alive (World.not_alive_spawned w)]
    · rfl
  queue := Announces.of_eq rfl

theorem insert (w : World F) (e : Entity) {l : List (Σ k, CompVal F k)}
    (hl : ∀ c ∈ l, c.1 ∈ ks) : Evolves ks w (w.insert e l) where
  next := Nat.le_of_eq (Storage.next_insert _ _ _).symm
  alive e' he' := Or.inl (World.alive_insert w e e' l ▸ he')
  get _ _ hk _ := World.get_insert_of_ne w (Or.inr fun c hc hck => hk (hck ▸ hl c hc))
  queue := Announces.of_eq rfl

theorem inserts (e : Entity) (ls : List (List (Σ k, CompVal F k)))
    (hls : ∀ l ∈ ls, ∀ c ∈ l, c.1 ∈ ks) (w : World F) :
    Evolves ks w (ls.foldl (fun w l => w.insert e l) w) := by
  induction ls generalizing w with
  | nil => exact refl ks w
  | cons l ls ih =>
    exact (insert w e (hls l List.mem_cons_self)).trans
      (ih (fun l' hl' => hls l' (List.mem_cons_of_mem _ hl')) _)

theorem foldl {σ α : Type} (π : σ → World F) {f : σ → α → σ}
    (h : ∀ s x, Evolves ks (π s) (π (f s x))) (l : List α) (s : σ) :
    Evolves ks (π s) (π (l.foldl f s)) := by
  induction l generalizing s with
  | nil => exact refl ks _
  | cons x l ih => exact (h s x).trans (ih (f s x))

end Evolves

namespace BevyWorldAdapter

/-! ## Spawning and despawning -/

theorem announcedDespawn_evolves (ks : List Comp) (w : World F) (e : Entity) (n : NetworkId) :
    Evolves ks w ((w.despawn e).pushReliable [(none, .entityDespawned n)]) :=
  (Evolves.despawn ks w e).trans (Evolves.of_edits (Edits.pushReliable ks _ (by simp)))

theorem get_despawnNetworked {a : BevyWorldAdapter F} {n : NetworkId} {e : Entity}
    (hrel : a.bimap.Rel n e) (e' : Entity) (k : Comp) :
    (a.despawnNetworked n).1.world.get e' k = if e' = e then none else a.world.get e' k := by
  unfold despawnNetworked
  simp only [BiMap.getByLeft_eq_some.mpr hrel]
  split
  · exact World.get_despawn _ _ _ _
  · next hdead =>
    split
    · next he =>
      rw [he]
      exact World.get_of_not_alive (Bool.eq_false_of_not_eq_true hdead) k
    · rfl

theorem despawnAll_get (es : List Entity) (w : World F) (e : Entity) (k : Comp) :
    (es.foldl World.despawn w).get e k = if e ∈ es then none else w.get e k := by
  induction es generalizing w with
  | nil => simp
  | cons e' es ih =>
    rw [List.foldl_cons, ih, World.get_despawn]
    by_cases hmem : e ∈ es
    · simp [hmem]
    · by_cases heq : e = e' <;> simp [hmem, heq]

theorem despawnAll_alive (es : List Entity) (w : World F) (e : Entity) :
    (es.foldl World.despawn w).alive e = (decide (e ∉ es) && w.alive e) := by
  induction es generalizing w with
  | nil => simp
  | cons e' es ih =>
    rw [List.foldl_cons, ih, World.alive_despawn]
    by_cases hmem : e ∈ es
    · simp [hmem]
    · by_cases heq : e = e' <;> simp [hmem, heq]

theorem despawnAll_next (es : List Entity) (w : World F) :
    (es.foldl World.despawn w).ecs.next = w.ecs.next := by
  induction es generalizing w with
  | nil => rfl
  | cons e es ih => exact ih (w.despawn e)

theorem despawnNetworked_evolves (ks : List Comp) (a : BevyWorldAdapter F) (n : NetworkId) :
    Evolves ks a.world (a.despawnNetworked n).1.world := by
  unfold despawnNetworked
  split
  · next e _ =>
    dsimp only
    split
    · refine Evolves.trans ?_ (announcedDespawn_evolves ks _ e n)
      exact Evolves.of_ecs_eq ks rfl (Announces.of_eq rfl)
    · exact Evolves.of_ecs_eq ks rfl (Announces.of_eq rfl)
  · exact Evolves.refl ks _

variable [F32 F]

theorem kindComps_body {kind : UInt16} (h : kind ∈ bodyKinds) (x y : F) :
    ∀ comps ∈ kindComps kind x y, ∀ c ∈ comps, c.1 ∈ bodyComps := by
  have hcases : kind = entityTypeBeam ∨ kind = entityTypeDataDrop ∨
      kind = entityTypeTrainingTarget ∨ kind = entityTypeResource := by simpa [bodyKinds] using h
  rcases hcases with rfl | rfl | rfl | rfl
  · intro comps hcomps
    obtain rfl : comps = _ := List.mem_singleton.mp hcomps
    simp [bodyComps]
  · intro comps hcomps
    obtain rfl : comps = _ := List.mem_singleton.mp hcomps
    simp [bodyComps]
  · intro comps hcomps
    obtain rfl : comps = _ := List.mem_singleton.mp hcomps
    simp [bodyComps, pools]
  · intro comps hcomps
    obtain rfl : comps = _ := List.mem_singleton.mp hcomps
    simp [bodyComps]

theorem createMaster_evolves (a : BevyWorldAdapter F) :
    Evolves bodyComps a.world a.createMaster.1.world := by
  have hspawn : Evolves bodyComps a.world a.spawnNetworked.1.world :=
    Evolves.spawn a.world (by simp [bodyComps])
  unfold createMaster
  dsimp only
  split
  · exact hspawn.trans (Evolves.insert _ _ (by simp [masterComps, bodyComps]))
  · exact hspawn

/-- `spawn_kind` gives an entity of this kind nothing outside `ks`. -/
def GivesOnly (F : Type) [F32 F] (ks : List Comp) (kind : UInt16) : Prop :=
  ∀ x y : F, ∀ comps ∈ kindComps kind x y, ∀ c ∈ comps, c.1 ∈ ks

section Kinds

variable {ks : List Comp} (hks : bodyComps ⊆ ks)
include hks

theorem placeKind_evolves {kind : UInt16} (h : GivesOnly F ks kind) (a : BevyWorldAdapter F)
    (n : NetworkId) (x y rot : F) (master : NetworkId) :
    Evolves ks a.world (a.placeKind n kind x y rot master).world := by
  let transform : Transform F := ⟨x, y, 0.0, rot, kind⟩
  let velocity : Velocity F := ⟨0.0, 0.0, 0.0⟩
  let w₁ := a.world.spawn [⟨.networked, n⟩, ⟨.transform, transform⟩, ⟨.velocity, velocity⟩]
  let w₂ := (kindComps kind x y).foldl (fun w comps => w.insert a.world.spawned comps) w₁
  let w₃ := w₂.insert a.world.spawned [⟨.workspaceMembership, master⟩]
  have h₁ : Evolves bodyComps a.world w₁ := Evolves.spawn a.world (by simp [bodyComps])
  have h₂ : Evolves ks w₁ w₂ := Evolves.inserts _ _ (h x y) w₁
  have h₃ : Evolves bodyComps w₂ w₃ := Evolves.insert w₂ _ (by simp [bodyComps])
  exact (((h₁.mono hks).trans h₂).trans (h₃.mono hks)).trans
    (Evolves.of_ecs_eq _ rfl (Announces.of_eq rfl))

theorem spawnKindFuel_evolves (hresource : GivesOnly F ks entityTypeResource) (fuel : Nat) :
    ∀ (a : BevyWorldAdapter F) {kind : UInt16}, GivesOnly F ks kind → ∀ x y rot : F,
      Evolves ks a.world (spawnKindFuel fuel a kind x y rot).1.world := by
  induction fuel with
  | zero => exact fun a _ _ _ _ _ => Evolves.refl _ a.world
  | succ fuel ih =>
    intro a kind hkind x y rot
    let a₁ := { a with allocator := a.allocator.allocate.2 }
    unfold spawnKindFuel
    cases hmaster : a₁.findMaster with
    | some master =>
      simp only [a₁] at hmaster
      simp only [hmaster]
      exact placeKind_evolves hks hkind a₁ _ x y rot master
    | none =>
      simp only [a₁] at hmaster
      simp only [hmaster]
      have hcreate : Evolves bodyComps a.world a₁.createMaster.1.world := createMaster_evolves a₁
      have hnested := ih a₁.createMaster.1 hresource 30.0 0.0 0.0
      exact ((hcreate.mono hks).trans hnested).trans (placeKind_evolves hks hkind _ _ x y rot _)

end Kinds

theorem spawnKind_evolves (a : BevyWorldAdapter F) {kind : UInt16} (h : kind ∈ bodyKinds)
    (x y rot : F) : Evolves bodyComps a.world (a.spawnKind kind x y rot).1.world :=
  spawnKindFuel_evolves (List.Subset.refl _) (kindComps_body (by decide)) 2 a (kindComps_body h)
    x y rot

/-! ## The simulation -/

section Deeds

variable {asks : Bool} {ks : List Comp} {a b : BevyWorldAdapter F}

theorem Deed.evolves (h : Deed asks ks a b) : Evolves ks a.world b.world := by
  cases h with
  | edit h _ hks => exact (Evolves.of_edits h.edits).mono hks
  | request => exact Evolves.of_ecs_eq ks rfl (Announces.of_eq rfl)
  | take => exact Evolves.of_ecs_eq ks rfl (Announces.of_eq rfl)
  | track r h => exact Evolves.spawn a.world (by simpa using h)
  | timer h => exact (Evolves.spawn a.world (by simp [timerComps])).mono h
  | spawn hkind h x y rot => exact (spawnKind_evolves a hkind x y rot).mono h
  | unmap n => exact despawnNetworked_evolves ks a n
  | unmapped => exact Evolves.despawn ks a.world _
  | finish => exact Evolves.despawn ks a.world _

theorem Deeds.evolves (h : Deeds asks ks a b) : Evolves ks a.world b.world := by
  induction h with
  | refl => exact Evolves.refl ks a.world
  | tail _ hdeed ih => exact ih.trans hdeed.evolves

end Deeds

/-- From the collection on, the simulation touches no data store. -/
theorem beforeHook_evolves (P : Platform F) (a : BevyWorldAdapter F) :
    Evolves sceneComps (a.handedOut P).world (a.beforeHook P).world :=
  (beforeHook_deeds P a).evolves

/-- The whole step up to the hook. -/
theorem simulation_evolves (P : Platform F) (a : BevyWorldAdapter F) :
    Evolves simulationComps a.world (a.beforeHook P).world := (simulation_deeds P a).evolves

end BevyWorldAdapter

end Aetheris
