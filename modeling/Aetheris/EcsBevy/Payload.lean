import Aetheris.EcsBevy.Ledger
import Aetheris.EcsBevy.Roles
import Aetheris.Lib.Totals

/-!
# The payload of a world

Payload lies in resources, in the stores of agents and in data drops. This module says how much a
world has of it in all, as a natural number, and how the parts of a simulation step change it: most
of them not at all, a despawn by what the entity holds, a spawn by what the kind comes with.
-/

namespace Aetheris

open Ecs

variable {F : Type}

/-! ## Counting -/

/-- The payload in a component. -/
def payloadOf : (k : Comp) → CompVal F k → Nat
  | .resource, resource => (Resource.payloadRemaining resource).toNat
  | .dataStore, store => (DataStore.payloadCount store).toNat
  | .dataDropComponent, drop => (DataDropComponent.amount drop).toNat
  | _, _ => 0

namespace World

/-- The payload in the component `k` of `e`. -/
def amountIn (w : World F) (k : Comp) (e : Entity) : Nat := (w.get e k).elim 0 (payloadOf k)

def held (w : World F) (e : Entity) : Nat :=
  w.amountIn .resource e + w.amountIn .dataStore e + w.amountIn .dataDropComponent e

/-- All payload of the live entities. -/
def payload (w : World F) : Nat := w.ecs.total w.held

variable {e e' : Entity} {k : Comp} {w' : World F}

theorem amountIn_congr {w : World F}
    (h : w'.get e' k = w.get e k) : w'.amountIn k e' = w.amountIn k e := by
  unfold amountIn
  rw [h]

theorem amountIn_of_get {w : World F} {v : CompVal F k}
    (h : w.get e k = some v) : w.amountIn k e = payloadOf k v := by
  unfold amountIn
  rw [h]
  rfl

theorem amountIn_of_none {w : World F} (h : w.get e k = none) : w.amountIn k e = 0 := by
  unfold amountIn
  rw [h]
  rfl

theorem held_congr {w : World F}
    (h : ∀ k ∈ payloadComps, w'.get e' k = w.get e k) : w'.held e' = w.held e := by
  unfold held
  rw [amountIn_congr (h .resource (by decide)), amountIn_congr (h .dataStore (by decide)),
    amountIn_congr (h .dataDropComponent (by decide))]

theorem held_of_none {w : World F} (h : ∀ k ∈ payloadComps, w.get e k = none) : w.held e = 0 := by
  unfold held
  rw [amountIn_of_none (h .resource (by decide)), amountIn_of_none (h .dataStore (by decide)),
    amountIn_of_none (h .dataDropComponent (by decide))]

theorem vanishes_held (w : World F) : w.ecs.Vanishes w.held :=
  fun _ he => held_of_none fun k _ => World.get_of_not_alive he k

theorem held_spawned (w : World F) : w.held w.spawned = 0 :=
  w.vanishes_held _ w.not_alive_spawned

/-- Something changes at `e` only. -/
theorem payload_update {w : World F} (e : Entity) (h : ∀ e', e' ≠ e → w'.held e' = w.held e') :
    w'.payload + w.held e = w.payload + w'.held e :=
  Storage.total_update w.vanishes_held w'.vanishes_held e h

theorem payload_congr {w : World F} (h : ∀ e, w'.held e = w.held e) : w'.payload = w.payload :=
  Storage.total_congr w.vanishes_held w'.vanishes_held h

/-- A value is overwritten. -/
theorem payload_modify {w : World F} {v : CompVal F k}
    (h : w.get e k = some v) (f : CompVal F k → CompVal F k) :
    (w.modify e k f).payload + payloadOf k v = w.payload + payloadOf k (f v) := by
  have hupdate : (w.modify e k f).payload + w.held e = w.payload + (w.modify e k f).held e :=
    payload_update e fun e' he' => held_congr fun k' _ => World.get_modify_of_ne w f (Or.inl he')
  have hself : (w.modify e k f).amountIn k e = payloadOf k (f v) :=
    amountIn_of_get (by rw [World.get_modify_self, h]; rfl)
  have hother : ∀ k', k' ≠ k → (w.modify e k f).amountIn k' e = w.amountIn k' e := fun k' hk' =>
    amountIn_congr (World.get_modify_of_ne w f (Or.inr hk'))
  have hbefore := amountIn_of_get h
  unfold held at hupdate
  by_cases hr : k = .resource
  · subst hr
    rw [hself, hother _ (by decide), hother _ (by decide), hbefore] at hupdate
    omega
  by_cases hs : k = .dataStore
  · subst hs
    rw [hself, hother _ (by decide), hother _ (by decide), hbefore] at hupdate
    omega
  by_cases hd : k = .dataDropComponent
  · subst hd
    rw [hself, hother _ (by decide), hother _ (by decide), hbefore] at hupdate
    omega
  · rw [hother _ (Ne.symm hr), hother _ (Ne.symm hs), hother _ (Ne.symm hd)] at hupdate
    have hzero : ∀ v : CompVal F k, payloadOf k v = 0 := by
      intro v
      unfold payloadOf
      split <;> trivial
    rw [hzero, hzero]
    omega

theorem payload_of_edits {ks : List Comp} {w : World F} (h : Edits ks w w')
    (hks : ∀ k ∈ payloadComps, k ∉ ks) : w'.payload = w.payload :=
  payload_congr fun e => held_congr fun k hk => h.get e k (hks k hk)

theorem payload_despawn (w : World F) (e : Entity) :
    (w.despawn e).payload + w.held e = w.payload := by
  have hupdate : (w.despawn e).payload + w.held e = w.payload + (w.despawn e).held e :=
    payload_update e fun e' he' => held_congr fun k _ => by rw [World.get_despawn, if_neg he']
  have hgone : (w.despawn e).held e = 0 :=
    held_of_none fun k _ => by rw [World.get_despawn, if_pos rfl]
  rw [hgone] at hupdate
  exact hupdate

theorem payload_spawn (w : World F) {l : Comps F} (hl : ∀ c ∈ l, c.1 ∉ payloadComps) :
    (w.spawn l).payload = w.payload := by
  refine payload_congr fun e => ?_
  by_cases he : e = w.spawned
  · rw [he, held_spawned]
    refine held_of_none fun k hk => ?_
    rw [World.get_spawn, if_pos rfl]
    exact bundle_eq_none fun c hc hck => hl c hc (hck ▸ hk)
  · exact held_congr fun k _ => by rw [World.get_spawn, if_neg he]

end World

/-! ## Entities without payload -/

/-- Nothing is lost with this entity: a resource or drop that is empty, a beam or a tracker. -/
inductive Spent (c : EntityCells F) : Prop where
  | resource (r : Resource) (h : c .resource = some r) (hempty : r.payloadRemaining = 0)
  | drop (d : DataDropComponent) (h : c .dataDropComponent = some d) (hempty : d.amount = 0)
  | transient (k : Comp) (hk : k ∈ transientComps) (h : (c k).isSome = true)

variable {c : EntityCells F} {e : Entity} {w : World F}

theorem Spent.mortal (h : Spent c) : ∃ k ∈ mortalComps, (c k).isSome = true := by
  cases h with
  | resource r h _ => exact ⟨.resource, by decide, Option.isSome_iff_exists.mpr ⟨r, h⟩⟩
  | drop d h _ => exact ⟨.dataDropComponent, by decide, Option.isSome_iff_exists.mpr ⟨d, h⟩⟩
  | transient k hk h =>
    exact ⟨k, List.mem_append_left _ (List.mem_append_right _ hk), h⟩

theorem Spent.held (hw : Tidy w) (h : Spent (w.get e)) : w.held e = 0 := by
  cases h with
  | resource r h hempty =>
    have hhas : w.has e .resource = true := Option.isSome_iff_exists.mpr ⟨r, h⟩
    have hdrop : w.get e .dataDropComponent = none := by
      by_contra hsome
      have hhas' := Option.isSome_iff_ne_none.mpr hsome
      rw [hw.get_eq_none (show (Comp.dataDropComponent, .resource) ∈ clashes by decide) hhas'] at h
      cases h
    unfold World.held
    rw [World.amountIn_of_get h, World.amountIn_of_none (hw.get_eq_none (by decide) hhas),
      World.amountIn_of_none hdrop]
    exact congrArg UInt16.toNat hempty
  | drop d h hempty =>
    have hhas : w.has e .dataDropComponent = true := Option.isSome_iff_exists.mpr ⟨d, h⟩
    unfold World.held
    rw [World.amountIn_of_none (hw.get_eq_none (by decide) hhas),
      World.amountIn_of_none (hw.get_eq_none (by decide) hhas), World.amountIn_of_get h]
    exact congrArg (0 + 0 + UInt16.toNat ·) hempty
  | transient k hk h =>
    refine World.held_of_none fun k' hk' => hw.get_eq_none ?_ h
    have hproduct : (k, k') ∈ transientComps.product payloadComps := List.mem_product.mpr ⟨hk, hk'⟩
    exact List.mem_append_left _ (List.mem_append_right _ hproduct)

/-- Nothing at all, or a spent entity. -/
def Expendable (c : EntityCells F) : Prop := (∀ k, c k = none) ∨ Spent c

theorem Expendable.mortal (h : Expendable c) {k : Comp}
    (hk : (c k).isSome = true) : ∃ k' ∈ mortalComps, (c k').isSome = true := by
  rcases h with hnone | hspent
  · rw [hnone] at hk
    cases hk
  · exact hspent.mortal

theorem Expendable.held (hw : Tidy w) (h : Expendable (w.get e)) : w.held e = 0 := by
  rcases h with hnone | hspent
  · exact World.held_of_none fun k _ => hnone k
  · exact hspent.held hw

/-- Despawns leave the others as they are. -/
theorem Expendable.of_despawn {w' : World F} {e' : Entity} (h : Expendable (w.get e'))
    (hget : ∀ k, w'.get e' k = if e' = e then none else w.get e' k) : Expendable (w'.get e') := by
  by_cases he : e' = e
  · exact Or.inl fun k => by rw [hget, if_pos he]
  · have hsame : w'.get e' = w.get e' := funext fun k => by rw [hget, if_neg he]
    rw [hsame]
    exact h

namespace BevyWorldAdapter

/-! ## The master workspace -/

/-- A networked entity defines the master workspace. -/
def HasMaster (a : BevyWorldAdapter F) : Prop :=
  ∃ n e, ∃ d : WorkspaceDefinition, a.bimap.Rel n e ∧
    a.world.get e .workspaceDefinition = some d ∧ d.name = masterName

theorem findMaster_isSome {a : BevyWorldAdapter F} :
    a.findMaster.isSome = true ↔ a.HasMaster := by
  unfold findMaster
  rw [List.findSome?_isSome_iff]
  constructor
  · rintro ⟨e, -, hsome⟩
    cases hdef : a.world.get e .workspaceDefinition with
    | none =>
      rw [hdef] at hsome
      cases hsome
    | some d =>
      simp only [hdef] at hsome
      split at hsome
      · next hname =>
        obtain ⟨n, hn⟩ := Option.isSome_iff_exists.mp hsome
        exact ⟨n, e, d, BiMap.getByRight_eq_some.mp hn, hdef, hname⟩
      · cases hsome
  · rintro ⟨n, e, d, hrel, hdef, hname⟩
    refine ⟨e, World.mem_query.mpr ⟨Storage.alive_of_get hdef, fun k hk => ?_⟩, ?_⟩
    · rw [List.mem_singleton.mp hk]
      exact Option.isSome_iff_exists.mpr ⟨d, hdef⟩
    · simp only [hdef]
      rw [if_pos hname, BiMap.getByRight_eq_some.mpr hrel]
      rfl

theorem HasMaster.keep {a a' : BevyWorldAdapter F} (h : a.HasMaster)
    (hkeep : ∀ n e, a.bimap.Rel n e → a.world.has e .workspaceDefinition = true →
      a'.bimap.Rel n e ∧
        a'.world.get e .workspaceDefinition = a.world.get e .workspaceDefinition) :
    a'.HasMaster := by
  obtain ⟨n, e, d, hrel, hdef, hname⟩ := h
  obtain ⟨hrel', hdef'⟩ := hkeep n e hrel (Option.isSome_iff_exists.mpr ⟨d, hdef⟩)
  exact ⟨n, e, d, hrel', hdef'.trans hdef, hname⟩

/-! ## Settled adapters -/

/-- Identifiers in order, roles apart, and the master workspace there. -/
structure Settled (a : BevyWorldAdapter F) : Prop where
  coherent : a.roster.Coherent
  tidy : Tidy a.world
  master : a.HasMaster

/-- A part of a step: roles stay apart and idle worlds idle, and in a settled adapter the payload
changes by what is lost and gained. The count needs sums that `fit`. -/
structure Flow (fit : Prop) (lost gained : Nat) (a a' : BevyWorldAdapter F) : Prop where
  moves : Moves a a'
  tidy : Tidy a.world → Tidy a'.world
  idle : Dormant a.world → Dormant a'.world
  master : Settled a → a'.HasMaster
  payload : fit → Settled a → a'.world.payload + lost = a.world.payload + gained

namespace Flow

variable {fit : Prop} {lost lost' gained gained' : Nat} {a a' a'' : BevyWorldAdapter F}

theorem settled (h : Flow fit lost gained a a') (ha : Settled a) : Settled a' :=
  ⟨h.moves.coherent ha.coherent, h.tidy ha.tidy, h.master ha⟩

theorem refl (fit : Prop) (a : BevyWorldAdapter F) : Flow fit 0 0 a a :=
  ⟨Moves.refl a, id, id, Settled.master, fun _ _ => rfl⟩

theorem trans (h : Flow fit lost gained a a') (h' : Flow fit lost' gained' a' a'') :
    Flow fit (lost + lost') (gained + gained') a a'' where
  moves := h.moves.trans h'.moves
  tidy := h'.tidy ∘ h.tidy
  idle := h'.idle ∘ h.idle
  master ha := h'.master (h.settled ha)
  payload hfit ha := by
    have hfirst := h.payload hfit ha
    have hthen := h'.payload hfit (h.settled ha)
    omega

/-- Other numbers with the same difference. -/
theorem convert (h : Flow fit lost gained a a')
    (heq : Settled a → lost' + gained = lost + gained') : Flow fit lost' gained' a a' :=
  { h with
    payload := fun hfit ha => by
      have hpayload := h.payload hfit ha
      have hsame := heq ha
      omega }

variable {e : Entity} {ks : List Comp} {w : World F}

/-- Values are overwritten, or the queues change: roles and the map stay. -/
theorem of_writes (fit : Prop) (h : Edits ks a.world w)
    (hks : ∀ k ∈ [Comp.workspaceDefinition, .networked, .networkOwner], k ∉ ks)
    (hidle : Dormant a.world → Dormant w) (hpayload : fit → Settled a → w.payload = a.world.payload) :
    Flow fit 0 0 a { a with world := w } where
  moves := Moves.of_edits a h (hks _ (by decide)) (hks _ (by decide))
  tidy ha := ha.of_edits h
  idle := hidle
  master ha := ha.master.keep fun n e hrel _ => ⟨hrel, h.get e _ (hks _ (by decide))⟩
  payload hfit ha := by
    rw [Nat.add_zero, Nat.add_zero]
    exact hpayload hfit ha

/-- What most parts of the step leave as it is. -/
def keptComps : List Comp :=
  payloadComps ++ idleComps ++ [.workspaceDefinition, .networked, .networkOwner]

theorem of_edits (fit : Prop) (h : Edits ks a.world w)
    (hks : ∀ k ∈ keptComps, k ∉ ks) : Flow fit 0 0 a { a with world := w } :=
  of_writes fit h (fun k hk => hks k (List.mem_append_right _ hk))
    (fun ha => ha.of_edits h fun k hk =>
      hks k (List.mem_append_left _ (List.mem_append_right _ hk)))
    fun _ _ => World.payload_of_edits h fun k hk =>
      hks k (List.mem_append_left _ (List.mem_append_left _ hk))

/-- The components of trackers. -/
def trackerComps : List Comp := [.trainingTarget, .respawnTimer, .resourceRespawn]

/-- A tracker, which is on no map. -/
theorem of_tracker (fit : Prop) {l : Comps F}
    (hmoves : Moves a { a with world := a.world.spawn l }) (hl : ∀ c ∈ l, c.1 ∈ trackerComps) :
    Flow fit 0 0 a { a with world := a.world.spawn l } := by
  have hnone : ∀ k, k ∉ trackerComps → bundle l k = none := fun k hk =>
    bundle_eq_none fun c hc hck => hk (hck ▸ hl c hc)
  have hapart : ∀ k ∈ trackerComps, k ∉ idleComps ∧ k ∉ payloadComps := by decide
  have hadds : Adds a.world (a.world.spawn l) := by
    refine Adds.spawn a.world (clear_of_apart (show apart trackerComps = true from rfl) ?_) ?_
    · intro k hk
      obtain ⟨c, hc, rfl⟩ := List.mem_map.mp (mem_of_isSome_bundle hk)
      exact hl c hc
    · exact idleCells_none.of_idle fun k hk => hnone k fun hmem => (hapart k hmem).1 hk
  refine ⟨hmoves, hadds.tidy, hadds.idle, fun ha => ha.master.keep fun n e hrel hdef => ?_,
    fun _ _ => ?_⟩
  · refine ⟨hrel, ?_⟩
    have hne : e ≠ a.world.spawned := fun heq => by
      have halive := World.alive_of_has hdef
      rw [heq, World.not_alive_spawned] at halive
      cases halive
    exact (World.get_spawn _ _ _ _).trans (if_neg hne)
  · rw [Nat.add_zero, Nat.add_zero]
    exact World.payload_spawn _ fun c hc => (hapart _ (hl c hc)).2

/-- A mortal networked entity goes, with what it holds. -/
theorem of_despawn (fit : Prop) {n : NetworkId} (hrel : a.bimap.Rel n e)
    (hmortal : ∀ k, a.world.has e k = true → ∃ k' ∈ mortalComps, a.world.has e k' = true) :
    Flow fit (a.world.held e) 0 a (a.despawnNetworked n).1 := by
  have hget : ∀ e' k, (a.despawnNetworked n).1.world.get e' k = (a.world.despawn e).get e' k :=
    fun e' k => by rw [get_despawnNetworked hrel, World.get_despawn]
  have hadds : Adds a.world (a.despawnNetworked n).1.world :=
    .of_evolves (despawnNetworked_evolves [] a n) nofun
  refine ⟨despawnNetworked_moves a n, hadds.tidy, hadds.idle, fun ha => ?_, fun _ _ => ?_⟩
  · refine ha.master.keep fun n' e' hrel' hdef => ?_
    have hne := ha.tidy.ne_of_mortal hmortal hdef
    rw [get_despawnNetworked hrel, if_neg hne]
    exact ⟨rel_despawnNetworked.mpr ⟨hrel', fun heq => hne (hrel'.right_unique (heq ▸ hrel))⟩, rfl⟩
  · have hpayload : (a.despawnNetworked n).1.world.payload = (a.world.despawn e).payload :=
      World.payload_congr fun e' => World.held_congr fun k _ => hget e' k
    rw [hpayload, World.payload_despawn, Nat.add_zero]

/-- A mortal entity goes and leaves the map alone. -/
theorem of_despawnLocal (fit : Prop)
    (hmortal : ∀ k, a.world.has e k = true → ∃ k' ∈ mortalComps, a.world.has e k' = true)
    (hmoves : Moves a { a with world := a.world.despawn e }) :
    Flow fit (a.world.held e) 0 a { a with world := a.world.despawn e } := by
  have hadds : Adds a.world (a.world.despawn e) := .of_evolves (Evolves.despawn [] a.world e) nofun
  refine ⟨hmoves, hadds.tidy, hadds.idle, fun ha => ha.master.keep fun n' e' hrel' hdef => ?_,
    fun _ _ => (World.payload_despawn a.world e).trans (Nat.add_zero _).symm⟩
  exact ⟨hrel', (World.get_despawn _ _ _ _).trans (if_neg (ha.tidy.ne_of_mortal hmortal hdef))⟩

end Flow

/-! ## Spawns -/

section Spawns

variable [F32 F]

variable {a : BevyWorldAdapter F} {e : Entity} {kind : UInt16} {w : World F}

/-- With the master workspace there, a spawn by kind only places the new entity. -/
theorem spawnKind_of_master (h : a.HasMaster) (kind : UInt16)
    (x y rot : F) : ∃ master, a.spawnKind kind x y rot =
      ({ a with allocator := a.allocator.allocate.2 }.placeKind a.allocator.allocate.1 kind x y rot
        master, a.allocator.allocate.1) := by
  have hfind : { a with allocator := a.allocator.allocate.2 }.findMaster.isSome = true :=
    findMaster_isSome.mpr h
  obtain ⟨master, hmaster⟩ := Option.isSome_iff_exists.mp hfind
  refine ⟨master, ?_⟩
  unfold spawnKind spawnKindFuel
  simp only [hmaster]

/-- The new entity of a spawn by kind. -/
structure Placed (a : BevyWorldAdapter F) (kind : UInt16) (s : BevyWorldAdapter F × NetworkId) :
    Prop where
  mapped : s.1.bimap.getByLeft s.2 = some a.world.spawned
  cells : ∃ n x y rot master, s.1.world.get a.world.spawned = placedCells n kind x y rot master
  others : ∀ e, e ≠ a.world.spawned → ∀ k, s.1.world.get e k = a.world.get e k

theorem spawnKind_placed (h : a.HasMaster) (kind : UInt16)
    (x y rot : F) : Placed a kind (a.spawnKind kind x y rot) := by
  obtain ⟨master, hspawn⟩ := spawnKind_of_master h kind x y rot
  rw [hspawn]
  refine ⟨?_, ⟨_, x, y, rot, master, get_placeKind_new _ _ kind x y rot master⟩, fun e he k => ?_⟩
  · exact BiMap.getByLeft_eq_some.mpr (BiMap.rel_insert.mpr (Or.inl ⟨rfl, rfl⟩))
  · exact get_placeKind_of_ne _ _ kind x y rot master he k

/-- What comes of a spawn whose entity is then edited. -/
theorem Placed.payload {s : BevyWorldAdapter F × NetworkId} (h : Placed a kind s)
    (hw : ∀ e, e ≠ a.world.spawned → ∀ k, w.get e k = s.1.world.get e k) :
    w.payload = a.world.payload + w.held a.world.spawned := by
  have hupdate : w.payload + a.world.held a.world.spawned =
      a.world.payload + w.held a.world.spawned :=
    World.payload_update _ fun e he => World.held_congr fun k _ => (hw e he k).trans (h.others e he k)
  rwa [World.held_spawned, Nat.add_zero] at hupdate

/-- A spawn by kind whose entity is then given other values. -/
theorem Flow.of_spawnKind (fit : Prop) (a : BevyWorldAdapter F) (kind : UInt16) (x y rot : F)
    {ks : List Comp} {f : Entity → World F → World F} {gained : Nat}
    (hf : ∀ e w, Written ks w (f e w))
    (hkept : ∀ k ∈ [Comp.workspaceDefinition, .networked, .networkOwner], k ∉ ks)
    (hothers : ∀ e w e', e' ≠ e → ∀ k, (f e w).get e' k = w.get e' k)
    (hidle : Dormant a.world → ∀ k ∈ idleComps, k ∉ ks)
    (hgained : ∀ e w n x y rot master, w.get e = placedCells n kind x y rot master →
      (f e w).held e = gained) {a' : BevyWorldAdapter F}
    (ha' : a' = match (a.spawnKind kind x y rot).1.bimap.getByLeft (a.spawnKind kind x y rot).2 with
      | some e => (a.spawnKind kind x y rot).1.onWorld (f e)
      | none => (a.spawnKind kind x y rot).1) : Flow fit 0 gained a a' := by
  obtain ⟨hgrows, -⟩ := spawnKind_edit_grows ks a kind x y rot hf (hkept _ (by decide))
    (hkept _ (by decide)) ha'
  have hadds := spawnKind_adds a kind x y rot
  have hplaced : a.HasMaster → Placed a kind (a.spawnKind kind x y rot) := fun h =>
    spawnKind_placed h kind x y rot
  generalize a.spawnKind kind x y rot = s at hadds hplaced ha'
  have hedits : Edits ks s.1.world a'.world := by
    cases hleft : s.1.bimap.getByLeft s.2 with
    | none =>
      rw [ha', hleft]
      exact Edits.refl ks _
    | some e =>
      rw [ha', hleft]
      exact (hf e s.1.world).edits
  refine ⟨hgrows.toMoves, fun ha => (hadds.tidy ha).of_edits hedits,
    fun ha => (hadds.idle ha).of_edits hedits (hidle ha), fun ha => ?_, fun _ ha => ?_⟩
  · refine ha.master.keep fun n e hrel hdef => ?_
    have hne : e ≠ a.world.spawned := fun heq => by
      have halive := World.alive_of_has hdef
      rw [heq, World.not_alive_spawned] at halive
      cases halive
    exact ⟨hgrows.rel ha.coherent.toBounded n e hrel,
      (hedits.get e _ (hkept _ (by decide))).trans ((hplaced ha.master).others e hne _)⟩
  · have hp := hplaced ha.master
    obtain ⟨n, x, y, rot, master, hcells⟩ := hp.cells
    have hworld : a'.world = f a.world.spawned s.1.world := by
      rw [ha', hp.mapped]
      rfl
    rw [hworld, hp.payload (hothers _ _), hgained _ _ n x y rot master hcells, Nat.add_zero]

omit [F32 F] in
theorem get_modify_other {k : Comp} (f : CompVal F k → CompVal F k) (e : Entity) (w : World F)
    (e' : Entity) (he : e' ≠ e) (k' : Comp) : (w.modify e k f).get e' k' = w.get e' k' :=
  World.get_modify_of_ne w f (Or.inl he)

omit [F32 F] in
theorem amountIn_of_idle (h : IdleCells (w.get e)) : w.amountIn .dataStore e = 0 := by
  cases hs : w.get e .dataStore with
  | none => exact World.amountIn_of_none hs
  | some s =>
    rw [World.amountIn_of_get hs]
    exact congrArg UInt16.toNat (h.store s hs)

omit [F32 F] in
theorem dropAmountIn_of_idle (h : IdleCells (w.get e)) : w.amountIn .dataDropComponent e = 0 := by
  cases hd : w.get e .dataDropComponent with
  | none => exact World.amountIn_of_none hd
  | some d =>
    rw [World.amountIn_of_get hd]
    exact congrArg UInt16.toNat (h.drop d hd)

/-- What an entity of a kind other than a resource comes with. -/
theorem held_placed (hkind : kind ≠ entityTypeResource)
    {n : NetworkId} {x y rot : F} {master : NetworkId}
    (h : w.get e = placedCells n kind x y rot master) : w.held e = 0 := by
  have hresource : w.get e .resource = none := by
    rw [h, placedCells_resource, if_neg hkind]
  have hidle : IdleCells (w.get e) := h ▸ placedCells_idle n kind x y rot master
  unfold World.held
  rw [World.amountIn_of_none hresource, amountIn_of_idle hidle, dropAmountIn_of_idle hidle]

end Spawns

end BevyWorldAdapter

end Aetheris
