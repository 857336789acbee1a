import Aetheris.EcsBevy.Evolves
import Aetheris.EcsBevy.Growth
import Aetheris.EcsBevy.Identity

/-!
# The roles of entities

A resource, an agent with its store, a data drop, a beam, a workspace and a tracker are different
things, although nothing but the spawn operations keeps them apart: no entity they make carries the
components of two roles (`Tidy`). They are also born idle, with an empty store, an empty drop and the
extraction beam off. Everything that happens to a world without client updates keeps both.
-/

namespace Aetheris

open Ecs

variable {F : Type}

/-! ## Cells -/

/-- The components that hold payload. -/
def payloadComps : List Comp := [.resource, .dataStore, .dataDropComponent]

/-- The components beams can damage. -/
def fragileComps : List Comp := [.priorityPool, .integrityPool, .resourceIntegrity]

/-- The marks of beams and trackers. -/
def transientComps : List Comp := [.beamMarker, .resourceRespawn, .respawnTimer]

/-- Whatever the simulation removes carries one of these. -/
def mortalComps : List Comp := fragileComps ++ transientComps ++ [.resource, .dataDropComponent]

/-- Pairs of components that no entity carries together. -/
def clashes : List (Comp × Comp) :=
  [(.resource, .dataStore), (.dataDropComponent, .resource), (.dataDropComponent, .dataStore)] ++
    fragileComps.map (.dataDropComponent, ·) ++ transientComps.product payloadComps ++
    mortalComps.map (·, .workspaceDefinition)

/-- The components of one entity. -/
abbrev EntityCells (F : Type) := (k : Comp) → Option (CompVal F k)

def Clear (c : EntityCells F) : Prop :=
  ∀ p ∈ clashes, ¬ ((c p.1).isSome = true ∧ (c p.2).isSome = true)

/-- Nothing stored, nothing to pick up, not extracting and not commanded. -/
structure IdleCells (c : EntityCells F) : Prop where
  store : ∀ s : DataStore, c .dataStore = some s → s.payloadCount = 0
  drop : ∀ d : DataDropComponent, c .dataDropComponent = some d → d.amount = 0
  beam : ∀ b : ExtractionBeam F, c .extractionBeam = some b → b.active = false
  input : c .latestInput = none

def idleComps : List Comp := [.dataStore, .dataDropComponent, .extractionBeam, .latestInput]

/-- The components the two notions read. -/
def roleComps : List Comp := clashes.map Prod.fst ++ clashes.map Prod.snd ++ idleComps

variable {c c' : EntityCells F} {e : Entity} {ks : List Comp} {w w' : World F}

theorem Clear.of_subset (h : Clear c)
    (hsub : ∀ p ∈ clashes, ((c' p.1).isSome → (c p.1).isSome) ∧ ((c' p.2).isSome → (c p.2).isSome)) :
    Clear c' :=
  fun p hp hboth => h p hp ⟨(hsub p hp).1 hboth.1, (hsub p hp).2 hboth.2⟩

theorem Clear.of_roles (h : Clear c)
    (heq : ∀ k ∈ clashes.map Prod.fst ++ clashes.map Prod.snd, c' k = c k) : Clear c' := by
  refine h.of_subset fun p hp => ?_
  rw [heq p.1 (List.mem_append_left _ (List.mem_map_of_mem hp)),
    heq p.2 (List.mem_append_right _ (List.mem_map_of_mem hp))]
  exact ⟨id, id⟩

theorem IdleCells.of_idle (h : IdleCells c) (heq : ∀ k ∈ idleComps, c' k = c k) : IdleCells c' where
  store s hs := h.store s ((heq _ (by decide)).symm.trans hs)
  drop d hd := h.drop d ((heq _ (by decide)).symm.trans hd)
  beam b hb := h.beam b ((heq _ (by decide)).symm.trans hb)
  input := (heq _ (by decide)).trans h.input

/-- No two of the kinds clash. -/
def apart (ks : List Comp) : Bool := clashes.all fun p => !(ks.contains p.1 && ks.contains p.2)

theorem clear_of_apart (hks : apart ks = true)
    (h : ∀ k, (c k).isSome = true → k ∈ ks) : Clear c := by
  rintro p hp ⟨hfst, hsnd⟩
  have happart := List.all_eq_true.mp hks p hp
  rw [List.contains_iff_mem.mpr (h _ hfst), List.contains_iff_mem.mpr (h _ hsnd)] at happart
  cases happart

theorem clear_none : Clear (fun _ => none : EntityCells F) := fun _ _ h => nomatch h.1

theorem idleCells_none : IdleCells (fun _ => none : EntityCells F) :=
  ⟨nofun, nofun, nofun, rfl⟩

/-! ## Worlds -/

def Tidy (w : World F) : Prop := ∀ e, Clear (w.get e)

def Dormant (w : World F) : Prop := ∀ e, IdleCells (w.get e)

theorem Tidy.of_edits (h : Tidy w) (hedits : Edits ks w w') : Tidy w' := by
  have hhas : ∀ e k, (w'.get e k).isSome = (w.get e k).isSome := hedits.has
  refine fun e => (h e).of_subset fun p _ => ?_
  rw [hhas, hhas]
  exact ⟨id, id⟩

theorem Dormant.of_edits (h : Dormant w)
    (hedits : Edits ks w w') (hks : ∀ k ∈ idleComps, k ∉ ks) : Dormant w' :=
  fun e => (h e).of_idle fun k hk => hedits.get e k (hks k hk)

theorem Tidy.get_eq_none (h : Tidy w) {k k' : Comp}
    (hclash : (k, k') ∈ clashes) (hk : w.has e k = true) : w.get e k' = none :=
  Option.not_isSome_iff_eq_none.mp fun hk' => h e (k, k') hclash ⟨hk, hk'⟩

/-- What the simulation removes is no workspace. -/
theorem Tidy.ne_of_mortal (h : Tidy w) {e' : Entity}
    (hmortal : ∀ k, w.has e k = true → ∃ k' ∈ mortalComps, w.has e k' = true)
    (hdef : w.has e' .workspaceDefinition = true) : e' ≠ e := by
  rintro rfl
  obtain ⟨k, hk, hhas⟩ := hmortal _ hdef
  have hclash : (k, Comp.workspaceDefinition) ∈ clashes :=
    List.mem_append_right _ (List.mem_map_of_mem hk)
  exact h e' _ hclash ⟨hhas, hdef⟩

/-- Every entity is as before, is gone, or is as the spawn operations make one. -/
structure Adds (w w' : World F) : Prop where
  entity : ∀ e, (∀ k ∈ roleComps, w'.get e k = w.get e k) ∨ Clear (w'.get e) ∧ IdleCells (w'.get e)

namespace Adds

variable {w w' w'' : World F}

theorem of_get (h : ∀ e, ∀ k ∈ roleComps, w'.get e k = w.get e k) : Adds w w' :=
  ⟨fun e => Or.inl (h e)⟩

theorem refl (w : World F) : Adds w w := of_get fun _ _ _ => rfl

theorem trans (h : Adds w w') (h' : Adds w' w'') : Adds w w'' := by
  refine ⟨fun e => ?_⟩
  rcases h'.entity e with hsame' | hnew
  · rcases h.entity e with hsame | ⟨hclear, hidle⟩
    · exact Or.inl fun k hk => (hsame' k hk).trans (hsame k hk)
    · refine Or.inr ⟨hclear.of_roles fun k hk => hsame' k (List.mem_append_left _ hk),
        hidle.of_idle fun k hk => hsame' k (List.mem_append_right _ hk)⟩
  · exact Or.inr hnew

theorem tidy (h : Adds w w') (hw : Tidy w) : Tidy w' := by
  intro e
  rcases h.entity e with hsame | hnew
  · exact (hw e).of_roles fun k hk => hsame k (List.mem_append_left _ hk)
  · exact hnew.1

theorem idle (h : Adds w w') (hw : Dormant w) : Dormant w' := by
  intro e
  rcases h.entity e with hsame | hnew
  · exact (hw e).of_idle fun k hk => hsame k (List.mem_append_right _ hk)
  · exact hnew.2

theorem foldl {σ α : Type} (π : σ → World F) {f : σ → α → σ}
    (h : ∀ s x, Adds (π s) (π (f s x))) (l : List α) (s : σ) : Adds (π s) (π (l.foldl f s)) := by
  induction l generalizing s with
  | nil => exact refl _
  | cons x l ih => exact (h s x).trans (ih (f s x))

/-- A stage that leaves the roles of the survivors alone. -/
theorem of_evolves {ks : List Comp} (h : Evolves ks w w') (hks : ∀ k ∈ ks, k ∉ roleComps) :
    Adds w w' := by
  refine ⟨fun e => ?_⟩
  cases halive : w'.alive e with
  | true => exact Or.inl fun k hk => h.get e k (fun hmem => hks k hmem hk) halive
  | false =>
    have hnone : w'.get e = fun _ => none := funext fun k => World.get_of_not_alive halive k
    rw [hnone]
    exact Or.inr ⟨clear_none, idleCells_none⟩

theorem insert (w : World F) (e : Entity) {l : Comps F} (hl : ∀ c ∈ l, c.1 ∉ roleComps) :
    Adds w (w.insert e l) :=
  of_get fun _ _ hk => World.get_insert_of_ne w (Or.inr fun c hc hck => hl c hc (hck ▸ hk))

/-- A new entity out of the listed components. -/
theorem spawn (w : World F) {l : Comps F} (hclear : Clear (F := F) (bundle l))
    (hidle : IdleCells (F := F) (bundle l)) : Adds w (w.spawn l) := by
  refine ⟨fun e => ?_⟩
  by_cases he : e = w.spawned
  · have hget : (w.spawn l).get e = bundle l := by
      funext k
      rw [World.get_spawn, if_pos he]
    rw [hget]
    exact Or.inr ⟨hclear, hidle⟩
  · exact Or.inl fun k _ => by rw [World.get_spawn, if_neg he]

end Adds

/-! ## Spawn operations -/

namespace BevyWorldAdapter

variable {e : Entity} {k : Comp} {l : Comps F}

/-- Several inserts at one live entity: the last one that mentions a component counts. -/
theorem get_inserts (ls : List (Comps F)) (w : World F) (he : w.alive e = true) (k : Comp) :
    (ls.foldl (fun w l => w.insert e l) w).get e k =
      ls.foldl (fun c l => (bundle l k).or c) (w.get e k) := by
  induction ls generalizing w with
  | nil => rfl
  | cons l ls ih =>
    rw [List.foldl_cons, ih _ ((World.alive_insert w e e l).trans he), World.get_insert,
      if_pos ⟨rfl, he⟩, List.foldl_cons]

theorem get_inserts_of_ne {e' : Entity} (h : e' ≠ e) (ls : List (Comps F)) (w : World F)
    (k : Comp) : (ls.foldl (fun w l => w.insert e l) w).get e' k = w.get e' k := by
  induction ls generalizing w with
  | nil => rfl
  | cons l ls ih => rw [List.foldl_cons, ih, World.get_insert_of_ne w (Or.inl h)]

variable [F32 F]

/-- The tuple `spawn_kind` spawns an entity with. -/
def spawnComps (n : NetworkId) (kind : UInt16) (x y rot : F) : Comps F :=
  let transform : Transform F := ⟨x, y, 0.0, rot, kind⟩
  let velocity : Velocity F := ⟨0.0, 0.0, 0.0⟩
  [⟨.networked, n⟩, ⟨.transform, transform⟩, ⟨.velocity, velocity⟩]

/-- The tuples it inserts afterwards. -/
def insertComps (kind : UInt16) (x y : F) (master : NetworkId) : List (Comps F) :=
  kindComps kind x y ++ [[⟨.workspaceMembership, master⟩]]

def placedCells (n : NetworkId) (kind : UInt16) (x y rot : F) (master : NetworkId) :
    EntityCells F := fun k =>
  (insertComps kind x y master).foldl (fun c l => (bundle l k).or c)
    (bundle (spawnComps n kind x y rot) k)

theorem get_placeKind (a : BevyWorldAdapter F) (n : NetworkId) (kind : UInt16) (x y rot : F)
    (master : NetworkId) (e : Entity) (k : Comp) :
    (a.placeKind n kind x y rot master).world.get e k =
      ((insertComps kind x y master).foldl (fun (w : World F) l => w.insert a.world.spawned l)
        (a.world.spawn (spawnComps n kind x y rot))).get e k := by
  unfold insertComps
  rw [List.foldl_append]
  rfl

theorem get_placeKind_new (a : BevyWorldAdapter F) (n : NetworkId) (kind : UInt16) (x y rot : F)
    (master : NetworkId) : (a.placeKind n kind x y rot master).world.get a.world.spawned =
      placedCells n kind x y rot master := by
  funext k
  rw [get_placeKind, get_inserts, World.get_spawn, if_pos rfl]
  · rfl
  · rw [World.alive_spawn, decide_eq_true rfl, Bool.true_or]

theorem get_placeKind_of_ne (a : BevyWorldAdapter F) (n : NetworkId) (kind : UInt16) (x y rot : F)
    (master : NetworkId) (he : e ≠ a.world.spawned) (k : Comp) :
    (a.placeKind n kind x y rot master).world.get e k = a.world.get e k := by
  rw [get_placeKind, get_inserts_of_ne he, World.get_spawn, if_neg he]

/-- The components of a placed entity. -/
def placedKinds (kind : UInt16) (x y : F) : List Comp :=
  [.networked, .transform, .velocity, .workspaceMembership] ++
    (kindComps kind x y).flatMap (·.map Sigma.fst)

omit [F32 F] in
theorem mem_of_isSome_bundle (h : (bundle l k).isSome = true) : k ∈ l.map Sigma.fst := by
  by_contra hk
  have hnone : bundle l k = none :=
    bundle_eq_none fun c hc hck => hk (hck ▸ List.mem_map_of_mem hc)
  rw [hnone] at h
  cases h

omit [F32 F] in
theorem mem_of_isSome_foldl (ls : List (Comps F)) (c : Option (CompVal F k))
    (h : (ls.foldl (fun c l => (bundle l k).or c) c).isSome = true) :
    c.isSome = true ∨ k ∈ ls.flatMap (·.map Sigma.fst) := by
  induction ls generalizing c with
  | nil => exact Or.inl h
  | cons l ls ih =>
    rw [List.flatMap_cons, List.mem_append]
    rcases ih _ h with hor | hlater
    · rw [Option.isSome_or, Bool.or_eq_true] at hor
      rcases hor with hl | hc
      · exact Or.inr (Or.inl (mem_of_isSome_bundle hl))
      · exact Or.inl hc
    · exact Or.inr (Or.inr hlater)

theorem mem_placedKinds {n : NetworkId} {kind : UInt16} {x y rot : F} {master : NetworkId}
    (h : (placedCells n kind x y rot master k).isSome = true) :
    k ∈ placedKinds kind x y := by
  unfold placedKinds
  rcases mem_of_isSome_foldl _ _ h with hspawn | hinsert
  · have hmem := mem_of_isSome_bundle hspawn
    simp only [spawnComps, List.map_cons, List.map_nil] at hmem
    refine List.mem_append_left _ ?_
    simp only [List.mem_cons, List.not_mem_nil, or_false] at hmem ⊢
    tauto
  · unfold insertComps at hinsert
    rw [List.flatMap_append, List.mem_append] at hinsert
    rcases hinsert with hkind | hmember
    · exact List.mem_append_right _ hkind
    · rw [show k = .workspaceMembership by simpa using hmember]
      exact List.mem_append_left _ (by decide)

theorem placedKinds_apart (kind : UInt16) (x y : F) : apart (placedKinds kind x y) = true := by
  unfold placedKinds kindComps
  split_ifs <;> rfl

theorem placedCells_clear (n : NetworkId) (kind : UInt16) (x y rot : F) (master : NetworkId) :
    Clear (placedCells n kind x y rot master) :=
  clear_of_apart (placedKinds_apart kind x y) fun _ => mem_placedKinds

section Values

variable (n : NetworkId) (kind : UInt16) (x y rot : F) (master : NetworkId)

theorem placedCells_dataStore : placedCells n kind x y rot master .dataStore = none ∨
    placedCells n kind x y rot master .dataStore = some ⟨0, 500⟩ := by
  unfold placedCells insertComps kindComps
  split_ifs <;> first | exact Or.inl rfl | exact Or.inr rfl

theorem placedCells_dataDrop : placedCells n kind x y rot master .dataDropComponent = none ∨
    placedCells n kind x y rot master .dataDropComponent = some ⟨0⟩ := by
  unfold placedCells insertComps kindComps
  split_ifs <;> first | exact Or.inl rfl | exact Or.inr rfl

theorem placedCells_beam {b : ExtractionBeam F}
    (h : placedCells n kind x y rot master .extractionBeam = some b) : b.active = false := by
  have hcases : placedCells n kind x y rot master .extractionBeam = none ∨
      ∃ b : ExtractionBeam F, placedCells n kind x y rot master .extractionBeam = some b ∧
        b.active = false := by
    unfold placedCells insertComps kindComps
    split_ifs <;> first | exact Or.inl rfl | exact Or.inr ⟨_, rfl, rfl⟩
  rcases hcases with hnone | ⟨b', hsome, hoff⟩
  · cases hnone.symm.trans h
  · exact Option.some.inj (hsome.symm.trans h) ▸ hoff

theorem placedCells_resource : placedCells n kind x y rot master .resource =
    if kind = entityTypeResource then some ⟨100, 100⟩ else none := by
  by_cases hkind : kind = entityTypeResource
  · rw [if_pos hkind, hkind]
    rfl
  · rw [if_neg hkind]
    unfold placedCells insertComps kindComps
    rw [if_neg hkind]
    split_ifs <;> rfl

theorem placedCells_idle : IdleCells (placedCells n kind x y rot master) where
  store s hs := by
    rcases placedCells_dataStore n kind x y rot master with hnone | hsome
    · cases hnone.symm.trans hs
    · rw [← Option.some.inj (hsome.symm.trans hs)]
  drop d hd := by
    rcases placedCells_dataDrop n kind x y rot master with hnone | hsome
    · cases hnone.symm.trans hd
    · rw [← Option.some.inj (hsome.symm.trans hd)]
  beam _ := placedCells_beam n kind x y rot master
  input := by
    unfold placedCells insertComps kindComps
    split_ifs <;> rfl

end Values

variable (a : BevyWorldAdapter F)

theorem placeKind_adds (n : NetworkId) (kind : UInt16) (x y rot : F)
    (master : NetworkId) : Adds a.world (a.placeKind n kind x y rot master).world := by
  refine ⟨fun e => ?_⟩
  by_cases he : e = a.world.spawned
  · rw [he, get_placeKind_new]
    exact Or.inr ⟨placedCells_clear n kind x y rot master, placedCells_idle n kind x y rot master⟩
  · exact Or.inl fun k _ => get_placeKind_of_ne a n kind x y rot master he k

omit [F32 F] in
theorem spawnNetworked_adds : Adds a.world a.spawnNetworked.1.world :=
  Adds.spawn a.world
    (clear_of_apart (show apart [.networked] = true from rfl) fun _ => mem_of_isSome_bundle)
    ⟨nofun, nofun, nofun, rfl⟩

theorem createMaster_adds : Adds a.world a.createMaster.1.world := by
  have hspawn : a.spawnNetworked.1.world.alive a.world.spawned = true := by
    show (a.world.spawn _).alive a.world.spawned = true
    rw [World.alive_spawn, decide_eq_true rfl, Bool.true_or]
  have hleft : a.spawnNetworked.1.bimap.getByLeft a.spawnNetworked.2 = some a.world.spawned :=
    BiMap.getByLeft_eq_some.mpr (BiMap.rel_insert.mpr (Or.inl ⟨rfl, rfl⟩))
  have hworld : a.createMaster.1.world =
      a.spawnNetworked.1.world.insert a.world.spawned (masterComps a.spawnNetworked.2) := by
    simp only [createMaster, hleft]
  have hnew : a.createMaster.1.world.get a.world.spawned = fun k =>
      (bundle (masterComps a.spawnNetworked.2) k).or (bundle [⟨.networked, a.spawnNetworked.2⟩] k) := by
    funext k
    rw [hworld, World.get_insert, if_pos ⟨rfl, hspawn⟩]
    exact congrArg _ ((World.get_spawn _ _ _ k).trans (if_pos rfl))
  have hempty : ∀ {α : Type} {o : Option α} {x : α}, o = none → o ≠ some x := by
    simp +contextual
  refine ⟨fun e => ?_⟩
  by_cases he : e = a.world.spawned
  · rw [he, hnew]
    refine Or.inr ⟨clear_of_apart (show apart [.networked, .workspaceDefinition, .workspaceBounds,
      .workspaceMembership] = true from rfl) fun k hk => ?_, ⟨fun _ h => absurd h (hempty rfl),
        fun _ h => absurd h (hempty rfl), fun _ h => absurd h (hempty rfl), rfl⟩⟩
    rw [Option.isSome_or, Bool.or_eq_true] at hk
    rcases hk with hk | hk
    · exact List.mem_cons_of_mem _ (mem_of_isSome_bundle hk)
    · exact List.mem_cons.mpr (Or.inl (List.mem_singleton.mp (mem_of_isSome_bundle hk)))
  · refine Or.inl fun k _ => ?_
    rw [hworld, World.get_insert_of_ne _ (Or.inl he)]
    exact (World.get_spawn _ _ _ k).trans (if_neg he)

theorem spawnKindFuel_adds (fuel : Nat) : ∀ (a : BevyWorldAdapter F) (kind : UInt16) (x y rot : F),
    Adds a.world (spawnKindFuel fuel a kind x y rot).1.world := by
  induction fuel with
  | zero => exact fun a _ _ _ _ => Adds.refl a.world
  | succ fuel ih =>
    intro a kind x y rot
    let a₁ := { a with allocator := a.allocator.allocate.2 }
    unfold spawnKindFuel
    cases hmaster : a₁.findMaster with
    | some master =>
      simp only [a₁] at hmaster
      simp only [hmaster]
      exact placeKind_adds a₁ _ kind x y rot master
    | none =>
      simp only [a₁] at hmaster
      simp only [hmaster]
      have hcreate : Adds a.world a₁.createMaster.1.world := createMaster_adds a₁
      exact (hcreate.trans (ih a₁.createMaster.1 entityTypeResource 30.0 0.0 0.0)).trans
        (placeKind_adds _ _ kind x y rot _)

theorem spawnKind_adds (kind : UInt16) (x y rot : F) :
    Adds a.world (a.spawnKind kind x y rot).1.world := spawnKindFuel_adds 2 a kind x y rot

omit [F32 F] in
theorem setOwner_adds (n : NetworkId) (c : ClientId)
    (hl : ∀ c ∈ l, c.1 ∉ roleComps) : Adds a.world (a.setOwner n c l).world := by
  unfold setOwner
  split
  · refine Adds.insert a.world _ fun c hc => ?_
    rcases List.mem_cons.mp hc with rfl | hc
    · exact show Comp.networkOwner ∉ roleComps by decide
    · exact hl c hc
  · exact Adds.refl _

theorem spawnKindFor_adds (kind : UInt16) (x y rot : F) (c : ClientId) :
    Adds a.world (a.spawnKindFor kind x y rot c).1.world :=
  (spawnKind_adds a kind x y rot).trans (setOwner_adds _ _ c (by simp))

theorem spawnNetworkedFor_adds (c : ClientId) : Adds a.world (a.spawnNetworkedFor c).1.world := by
  refine (spawnNetworked_adds a).trans (setOwner_adds _ _ c fun x hx => ?_)
  rcases List.mem_pair.mp hx with rfl | rfl
  · exact show Comp.transform ∉ roleComps by decide
  · exact show Comp.velocity ∉ roleComps by decide

theorem spawnSessionAgent_adds (kind : UInt16) (x y rot : F)
    (c : ClientId) : Adds a.world (a.spawnSessionAgent kind x y rot c).1.world := by
  have hspawn := spawnKindFor_adds a kind x y rot c
  unfold spawnSessionAgent
  generalize a.spawnKindFor kind x y rot c = s at hspawn ⊢
  dsimp only
  split
  · next e _ =>
    have hmark : Adds s.1.world (s.1.world.insert e [⟨.sessionAgent, ()⟩]) :=
      Adds.insert _ e fun x hx => List.mem_singleton.mp hx ▸
        show Comp.sessionAgent ∉ roleComps by decide
    split
    · exact (hspawn.trans hmark).trans (.of_get fun _ _ _ => rfl)
    · exact hspawn.trans hmark
  · exact hspawn

theorem stressTest_adds (P : Platform F) (a : BevyWorldAdapter F) (count : UInt16)
    (rotate : Bool) : Adds a.world (a.stressTest P count rotate).world := by
  refine Adds.foldl BevyWorldAdapter.world (fun b i => ?_) _ a
  -- the draws touch the generator only
  let b₁ := (b.drawRange P (F32.neg 20.0) 20.0).1
  let b₂ := (b₁.drawRange P (F32.neg 20.0) 20.0).1
  cases rotate with
  | false => exact spawnKind_adds b₂ _ _ _ _
  | true => exact spawnKind_adds (b₂.drawRange P 0.0 F32.tau).1 _ _ _ _

end BevyWorldAdapter

end Aetheris
