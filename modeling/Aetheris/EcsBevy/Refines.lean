import Aetheris.EcsBevy.Deeds
import Aetheris.EcsBevy.Roster

/-!
# The adapter refines the roster

`BevyWorldAdapter.roster` forgets the gameplay data. Each operation of the adapter is a sequence of
roster steps that hands out identifiers from the current counter on (`Moves`), with two exceptions:
`spawnSessionAgent` ends with a mark and `clearWorld` ends with a restart of the identifiers.
-/

namespace Aetheris

open Ecs Function Relation

variable {F : Type}

/-! ## Cards -/

/-- The components a card is made of. -/
def identityComps : List Comp :=
  [.networked, .networkOwner, .sessionAgent, .resourceRespawn, .respawnTimer]

namespace World

def card (w : World F) (e : Entity) : Option Card :=
  if w.alive e then
    some ⟨w.get e .networked, w.get e .networkOwner, w.has e .sessionAgent,
      w.has e .resourceRespawn || w.has e .respawnTimer⟩
  else none

variable {e : Entity} {w w' : World F}

theorem card_eq_none : w.card e = none ↔ w.alive e = false := by
  simp [card]

theorem card_of_alive (h : w.alive e = true) :
    w.card e = some ⟨w.get e .networked, w.get e .networkOwner, w.has e .sessionAgent,
      w.has e .resourceRespawn || w.has e .respawnTimer⟩ := by
  simp [card, h]

theorem card_of_edits {ks : List Comp} (h : Edits ks w w')
    (hnet : .networked ∉ ks) (howner : .networkOwner ∉ ks) : w'.card = w.card := by
  funext e
  simp only [card, h.alive, h.has, h.get e _ hnet, h.get e _ howner]

theorem card_congr (halive : ∀ e, w'.alive e = w.alive e)
    (hget : ∀ e k, k ∈ identityComps → w'.get e k = w.get e k) : w'.card = w.card := by
  have hhas : ∀ e k, k ∈ identityComps → w'.has e k = w.has e k :=
    fun e k hk => congrArg Option.isSome (hget e k hk)
  funext e
  simp only [card, halive, hget e .networked (by decide), hget e .networkOwner (by decide),
    hhas e .sessionAgent (by decide), hhas e .resourceRespawn (by decide),
    hhas e .respawnTimer (by decide)]

/-- Inserting other components leaves every card as it is. -/
theorem card_insert {l : List (Σ k, CompVal F k)}
    (hl : ∀ c ∈ l, c.1 ∉ identityComps) : (w.insert e l).card = w.card :=
  card_congr (fun e' => alive_insert w e e' l) fun _ _ hk =>
    get_insert_of_ne w (Or.inr fun c hc h => hl c hc (h ▸ hk))

theorem card_spawn (w : World F) (l : List (Σ k, CompVal F k)) :
    (w.spawn l).card = update w.card w.spawned
      (some ⟨bundle l .networked, bundle l .networkOwner, (bundle l .sessionAgent).isSome,
        (bundle l .resourceRespawn).isSome || (bundle l .respawnTimer).isSome⟩) := by
  funext e
  have hhas : ∀ k, (w.spawn l).has e k = ((w.spawn l).get e k).isSome := fun _ => rfl
  have hhas' : ∀ k, w.has e k = (w.get e k).isSome := fun _ => rfl
  by_cases he : e = w.spawned
  · subst he
    rw [update_self]
    simp only [card, alive_spawn, hhas, get_spawn, decide_true, Bool.true_or, if_true]
  · rw [update_of_ne he]
    simp only [card, alive_spawn, hhas, hhas', get_spawn, he, decide_false, Bool.false_or, if_false]

theorem card_despawn (w : World F) (e : Entity) :
    (w.despawn e).card = update w.card e none := by
  funext e'
  have hhas : ∀ k, (w.despawn e).has e' k = ((w.despawn e).get e' k).isSome := fun _ => rfl
  have hhas' : ∀ k, w.has e' k = (w.get e' k).isSome := fun _ => rfl
  by_cases he : e' = e
  · subst he
    rw [update_self]
    simp [card, alive_despawn]
  · rw [update_of_ne he]
    simp only [card, alive_despawn, hhas, hhas', get_despawn, he, ne_eq, not_false_eq_true,
      decide_true, Bool.true_and, if_false]

/-- Despawning a dead entity changes no card. -/
theorem update_card_of_not_alive (h : w.alive e = false) :
    update w.card e none = w.card := by
  rw [← card_eq_none.mpr h, update_eq_self]

theorem card_of_ecs_eq (h : w'.ecs = w.ecs) : w'.card = w.card :=
  card_congr (fun e => congrArg (Storage.alive · e) h) fun e k _ => congrArg (Storage.get · e k) h

end World

namespace BevyWorldAdapter

def roster (a : BevyWorldAdapter F) : Roster :=
  ⟨a.world.card, a.world.ecs.next, a.bimap, a.owners, a.allocator.next⟩

theorem roster_cards (a : BevyWorldAdapter F) : a.roster.cards = a.world.card := rfl
theorem roster_bimap (a : BevyWorldAdapter F) : a.roster.bimap = a.bimap := rfl

/-! ## Moves -/

/-- What is fixed when the adapter is set up. -/
structure SameSetup (a a' : BevyWorldAdapter F) : Prop where
  hook : a'.postSimulateHook = a.postSimulateHook
  replicators : a'.replicators = a.replicators
  first : a'.allocator.first = a.allocator.first

variable {a' b : BevyWorldAdapter F} {card : Card} {e : Entity} {k : Comp} {l : Comps F}
  {n : NetworkId} {w : World F} {α : Type}

theorem SameSetup.trans {a c : BevyWorldAdapter F} (h : SameSetup a b) (h' : SameSetup b c) :
    SameSetup a c :=
  ⟨h'.hook.trans h.hook, h'.replicators.trans h.replicators, h'.first.trans h.first⟩

/-- `a'` comes from `a` by roster steps that hand out identifiers from the counter of `a` on. -/
structure Moves (a a' : BevyWorldAdapter F) : Prop where
  steps : ∀ m, m ≤ a.allocator.next → a.roster.Bounded → Roster.Steps m a.roster a'.roster
  setup : SameSetup a a'

namespace Moves

theorem refl (a : BevyWorldAdapter F) : Moves a a := ⟨fun _ _ _ => .refl, rfl, rfl, rfl⟩

variable {a a' : BevyWorldAdapter F}

theorem trans {b c : BevyWorldAdapter F} (h : Moves a b) (h' : Moves b c) : Moves a c where
  steps m hm hb := by
    have hab := h.steps m hm hb
    exact hab.trans (h'.steps m (Nat.le_trans hm (Roster.nextId_le_steps hab))
      (Roster.bounded_steps hab hb))
  setup := h.setup.trans h'.setup

/-- Only gameplay data, ticks or the generator changed. -/
theorem of_world (hcard : a'.world.card = a.world.card)
    (hnext : a'.world.ecs.next = a.world.ecs.next) (hbimap : a'.bimap = a.bimap)
    (howners : a'.owners = a.owners) (halloc : a'.allocator = a.allocator)
    (hhook : a'.postSimulateHook = a.postSimulateHook)
    (hrep : a'.replicators = a.replicators) : Moves a a' where
  steps m _ _ := by
    have heq : a'.roster = a.roster := by
      unfold roster
      rw [hcard, hnext, hbimap, howners, halloc]
    rw [heq]
  setup := ⟨hhook, hrep, congrArg NetworkIdAllocator.first halloc⟩

theorem of_edits {ks : List Comp} (a : BevyWorldAdapter F) {w : World F}
    (h : Edits ks a.world w) (hnet : .networked ∉ ks) (howner : .networkOwner ∉ ks) :
    Moves a { a with world := w } :=
  of_world (World.card_of_edits h hnet howner) h.next rfl rfl rfl rfl rfl

theorem coherent (hm : Moves a a') (h : a.roster.Coherent) : a'.roster.Coherent :=
  Roster.coherent_steps (hm.steps _ (Nat.le_refl _) h.toBounded) h

/-- A single step. -/
theorem of_step
    (h : ∀ m, m ≤ a.allocator.next → a.roster.Bounded → Roster.Step m a.roster a'.roster)
    (hsetup : SameSetup a a') : Moves a a' :=
  ⟨fun m hm hb => .single (h m hm hb), hsetup⟩

theorem foldl {σ α : Type} (π : σ → BevyWorldAdapter F) {f : σ → α → σ}
    (h : ∀ s x, Moves (π s) (π (f s x))) (l : List α) (s : σ) :
    Moves (π s) (π (l.foldl f s)) := by
  induction l generalizing s with
  | nil => exact refl _
  | cons x l ih => exact (h s x).trans (ih (f s x))

end Moves

/-! ## Despawning -/

theorem despawnNetworked_roster {a : BevyWorldAdapter F} (h : a.bimap.getByLeft n = some e) :
    (a.despawnNetworked n).1.roster =
      { a.roster with
        cards := update a.roster.cards e none
        bimap := a.bimap.removeByLeft n
        owners := update a.owners n none } := by
  unfold despawnNetworked
  simp only [h]
  split
  · simp only [roster]
    congr 1
    exact World.card_despawn _ e
  · next halive =>
    have hdead : a.world.alive e = false := Bool.eq_false_of_not_eq_true halive
    simp only [roster, World.update_card_of_not_alive hdead]
    congr 1

theorem despawnNetworked_other {a : BevyWorldAdapter F}
    (h : a.bimap.getByLeft n = none) : (a.despawnNetworked n).1 = a := by
  simp only [despawnNetworked, h]

variable (a : BevyWorldAdapter F)

theorem despawnNetworked_moves (n : NetworkId) : Moves a (a.despawnNetworked n).1 := by
  cases h : a.bimap.getByLeft n with
  | none =>
    rw [despawnNetworked_other h]
    exact Moves.refl a
  | some e =>
    have hsetup : SameSetup a (a.despawnNetworked n).1 := by
      simp only [despawnNetworked, h]
      split <;> exact ⟨rfl, rfl, rfl⟩
    refine Moves.of_step (fun m _ _ => ?_) hsetup
    rw [despawnNetworked_roster h]
    exact .despawnMapped a.roster n e (BiMap.getByLeft_eq_some.mp h)

/-! ## Spawning -/

theorem allocate_moves : Moves a { a with allocator := a.allocator.allocate.2 } :=
  Moves.of_step (fun _ _ _ => .allocate a.roster) ⟨rfl, rfl, rfl⟩

/-- Spawning an entity with identifier `n` and no other identity, and mapping it. -/
theorem spawnMapped_roster {a : BevyWorldAdapter F} (hl : ∀ c ∈ l, c.1 ∉ identityComps)
    (hcard : a'.world.card = (a.world.spawn (⟨.networked, n⟩ :: l)).card)
    (hnext : a'.world.ecs.next = a.world.ecs.next + 1)
    (hbimap : a'.bimap = a.bimap.insert n a.world.spawned) (howners : a'.owners = a.owners)
    (halloc : a'.allocator = a.allocator) :
    a'.roster = { a.roster with
      cards := update a.roster.cards ⟨a.roster.nextEntity⟩
        (some (Roster.networkedCard n))
      nextEntity := a.roster.nextEntity + 1
      bimap := a.roster.bimap.insert n ⟨a.roster.nextEntity⟩ } := by
  have hbundle : ∀ k, k ∈ identityComps → k ≠ .networked →
      bundle (⟨.networked, n⟩ :: l : Comps F) k = none := by
    intro k hk hne
    refine bundle_eq_none fun c hc hck => ?_
    rcases List.mem_cons.mp hc with rfl | hc
    · exact hne hck.symm
    · exact hl c hc (hck ▸ hk)
  have hnet : bundle (⟨.networked, n⟩ :: l : Comps F) .networked = some n :=
    bundle_cons_self fun c hc hck => hl c hc (hck ▸ by decide)
  simp only [roster, hcard, hnext, hbimap, howners, halloc, World.card_spawn, hnet,
    hbundle .networkOwner (by decide) (by decide), hbundle .sessionAgent (by decide) (by decide),
    hbundle .resourceRespawn (by decide) (by decide),
    hbundle .respawnTimer (by decide) (by decide)]
  rfl

theorem Bounded.not_rel_next {a : BevyWorldAdapter F} (hb : a.roster.Bounded) (e : Entity) :
    ¬ a.bimap.Rel ⟨a.allocator.next⟩ e :=
  fun hrel => Nat.lt_irrefl _ (hb.ids _ _ hrel)

theorem spawnNetworked_moves : Moves a a.spawnNetworked.1 := by
  let a₁ := { a with allocator := a.allocator.allocate.2 }
  have hroster : a.spawnNetworked.1.roster = { a₁.roster with
      cards := update a₁.roster.cards ⟨a₁.roster.nextEntity⟩
        (some (Roster.networkedCard ⟨a.allocator.next⟩))
      nextEntity := a₁.roster.nextEntity + 1
      bimap := a₁.roster.bimap.insert ⟨a.allocator.next⟩ ⟨a₁.roster.nextEntity⟩ } :=
    spawnMapped_roster (l := []) (by simp) rfl rfl rfl rfl rfl
  refine ⟨fun m hm hb => ((allocate_moves a).steps m hm hb).tail ?_, rfl, rfl, rfl⟩
  rw [hroster]
  exact .spawnMapped _ _ hm (Nat.lt_succ_self _) (Bounded.not_rel_next hb)

theorem masterComps_plain [F32 F] (n : NetworkId) :
    ∀ c ∈ masterComps (F := F) n, c.1 ∉ identityComps := by
  simp [masterComps, identityComps]

theorem createMaster_eq [F32 F] : a.createMaster = ({ a.spawnNetworked.1 with
      world := a.spawnNetworked.1.world.insert a.world.spawned (masterComps ⟨a.allocator.next⟩) },
      ⟨a.allocator.next⟩) := by
  have hleft : a.spawnNetworked.1.bimap.getByLeft ⟨a.allocator.next⟩ = some a.world.spawned :=
    BiMap.getByLeft_eq_some.mpr (BiMap.rel_insert.mpr (Or.inl ⟨rfl, rfl⟩))
  unfold createMaster
  simp only [show a.spawnNetworked.2 = ⟨a.allocator.next⟩ from rfl, hleft]

theorem createMaster_moves [F32 F] : Moves a a.createMaster.1 := by
  refine (spawnNetworked_moves a).trans ?_
  unfold createMaster
  dsimp only
  split
  · refine Moves.of_world (World.card_insert (masterComps_plain _)) ?_ rfl rfl rfl rfl rfl
    exact Storage.next_insert _ _ _
  · exact Moves.refl _

theorem kindComps_plain [F32 F] (kind : UInt16) (x y : F) :
    ∀ comps ∈ kindComps kind x y, ∀ c ∈ comps, c.1 ∉ identityComps := by
  unfold kindComps
  split
  · split <;> simp [agentComps, pools, identityComps]
  · repeat' split
    all_goals simp [agentComps, pools, identityComps]

theorem card_foldl_insert (ls : List (Comps F))
    (hl : ∀ l ∈ ls, ∀ c ∈ l, c.1 ∉ identityComps) (w : World F) :
    (ls.foldl (fun w l => w.insert e l) w).card = w.card ∧
      (ls.foldl (fun w l => w.insert e l) w).ecs.next = w.ecs.next := by
  induction ls generalizing w with
  | nil => exact ⟨rfl, rfl⟩
  | cons l ls ih =>
    obtain ⟨hcard, hnext⟩ := ih (fun l' hl' => hl l' (List.mem_cons_of_mem _ hl')) (w.insert e l)
    refine ⟨hcard.trans (World.card_insert (hl l List.mem_cons_self)), hnext.trans ?_⟩
    exact Storage.next_insert _ _ _

/-- Placing an entity of a kind is one mapped spawn. -/
theorem placeKind_roster [F32 F] (n : NetworkId) (kind : UInt16)
    (x y rot : F) (master : NetworkId) :
    (a.placeKind n kind x y rot master).roster = { a.roster with
      cards := update a.roster.cards ⟨a.roster.nextEntity⟩
        (some (Roster.networkedCard n))
      nextEntity := a.roster.nextEntity + 1
      bimap := a.roster.bimap.insert n ⟨a.roster.nextEntity⟩ } := by
  let transform : Transform F := ⟨x, y, 0.0, rot, kind⟩
  let velocity : Velocity F := ⟨0.0, 0.0, 0.0⟩
  let w₁ := a.world.spawn [⟨.networked, n⟩, ⟨.transform, transform⟩, ⟨.velocity, velocity⟩]
  let w₂ := (kindComps kind x y).foldl (fun w comps => w.insert a.world.spawned comps) w₁
  obtain ⟨hcard₂, hnext₂⟩ := card_foldl_insert (e := a.world.spawned) (kindComps kind x y)
    (kindComps_plain kind x y) w₁
  have hcard₃ : (w₂.insert a.world.spawned [⟨.workspaceMembership, master⟩]).card = w₂.card :=
    World.card_insert (by simp [identityComps])
  refine spawnMapped_roster (l := [⟨.transform, transform⟩, ⟨.velocity, velocity⟩])
    (by simp [identityComps]) ?_ ?_ rfl rfl rfl
  · exact (World.card_of_ecs_eq rfl).trans (hcard₃.trans hcard₂)
  · exact (Storage.next_insert _ _ _).trans hnext₂

theorem spawnKindFuel_moves [F32 F] (fuel : Nat) :
    ∀ (a : BevyWorldAdapter F) (kind : UInt16) (x y rot : F),
      Moves a (spawnKindFuel fuel a kind x y rot).1 := by
  induction fuel with
  | zero => exact fun a _ _ _ _ => Moves.refl a
  | succ fuel ih =>
    intro a kind x y rot
    let a₁ := { a with allocator := a.allocator.allocate.2 }
    unfold spawnKindFuel
    cases hmaster : a₁.findMaster with
    | some master =>
      simp only [a₁] at hmaster
      simp only [hmaster]
      refine ⟨fun m hm hb => ((allocate_moves a).steps m hm hb).tail ?_, rfl, rfl, rfl⟩
      rw [placeKind_roster]
      exact .spawnMapped _ _ hm (Nat.lt_succ_self _) (Bounded.not_rel_next hb)
    | none =>
      simp only [a₁] at hmaster
      simp only [hmaster]
      -- creating the workspace and its resource hands out larger identifiers
      have hnested := (createMaster_moves a₁).trans
        (ih a₁.createMaster.1 entityTypeResource 30.0 0.0 0.0)
      refine ⟨fun m hm hb => ?_, hnested.setup.hook, hnested.setup.replicators,
        hnested.setup.first⟩
      have hfirst := (allocate_moves a).steps m hm hb
      have hb₁ : a₁.roster.Bounded := Roster.bounded_steps hfirst hb
      have hsteps := hnested.steps (a.allocator.next + 1) (Nat.le_refl _) hb₁
      refine (hfirst.trans (Roster.Steps.mono (Nat.le_succ_of_le hm) hsteps)).tail ?_
      rw [placeKind_roster]
      refine .spawnMapped _ _ hm (Roster.nextId_le_steps hsteps) fun e hrel => ?_
      exact Bounded.not_rel_next hb e (Roster.rel_of_steps hsteps (Nat.lt_succ_self _) hrel)

theorem spawnKind_moves [F32 F] (kind : UInt16) (x y rot : F) :
    Moves a (a.spawnKind kind x y rot).1 := spawnKindFuel_moves 2 a kind x y rot

theorem placeKind_spec [F32 F] (n : NetworkId) (kind : UInt16) (x y rot : F) (master : NetworkId) :
    ∃ e, (a.placeKind n kind x y rot master).bimap.Rel n e ∧
      (a.placeKind n kind x y rot master).world.card e = some (Roster.networkedCard n) := by
  rw [← roster_bimap, ← roster_cards, placeKind_roster]
  exact ⟨⟨a.roster.nextEntity⟩, BiMap.rel_insert.mpr (Or.inl ⟨rfl, rfl⟩),
    update_self ..⟩

/-- A spawn by kind returns the next identifier, mapped to an entity without owner. -/
theorem spawnKind_spec [F32 F] (kind : UInt16) (x y rot : F) :
    (a.spawnKind kind x y rot).2 = ⟨a.allocator.next⟩ ∧
      ∃ e, (a.spawnKind kind x y rot).1.bimap.Rel ⟨a.allocator.next⟩ e ∧
        (a.spawnKind kind x y rot).1.world.card e =
          some (Roster.networkedCard ⟨a.allocator.next⟩) := by
  unfold spawnKind spawnKindFuel
  dsimp only
  split
  · exact ⟨rfl, placeKind_spec _ _ _ _ _ _ _⟩
  · exact ⟨rfl, placeKind_spec _ _ _ _ _ _ _⟩

/-- Once created, the master workspace is found. -/
theorem findMaster_createMaster [F32 F] (allocator : NetworkIdAllocator) :
    ∃ master, { a.createMaster.1 with allocator := allocator }.findMaster = some master := by
  set n : NetworkId := ⟨a.allocator.next⟩
  set e := a.world.spawned
  have hrel : (a.bimap.insert n e).Rel n e := BiMap.rel_insert.mpr (Or.inl ⟨rfl, rfl⟩)
  have hright : a.spawnNetworked.1.bimap.getByRight e = some n :=
    BiMap.getByRight_eq_some.mpr hrel
  have halive : a.spawnNetworked.1.world.alive e = true := by
    show (a.world.spawn _).alive e = true
    rw [World.alive_spawn, decide_eq_true rfl, Bool.true_or]
  have hworld : a.createMaster.1.world = a.spawnNetworked.1.world.insert e (masterComps n) := by
    rw [createMaster_eq]
  have hbimap : a.createMaster.1.bimap = a.spawnNetworked.1.bimap := by
    rw [createMaster_eq]
  have hdef : a.createMaster.1.world.get e .workspaceDefinition =
      some ⟨masterName, 0, .openAccess, false⟩ := by
    rw [hworld, World.get_insert, if_pos ⟨rfl, halive⟩]
    rfl
  rw [← Option.isSome_iff_exists]
  unfold findMaster
  rw [List.findSome?_isSome_iff]
  refine ⟨e, World.mem_query.mpr ⟨?_, ?_⟩, ?_⟩
  · show a.createMaster.1.world.alive e = true
    rw [hworld, World.alive_insert, halive]
  · intro k hk
    rw [List.mem_singleton.mp hk]
    exact Option.isSome_iff_exists.mpr ⟨_, hdef⟩
  · simp only [hdef, hbimap, if_true, hright, Option.isSome_some]

/-- Two levels of nesting are all `spawn_kind` ever uses. -/
theorem spawnKindFuel_eq [F32 F] (fuel : Nat) (a : BevyWorldAdapter F) (kind : UInt16)
    (x y rot : F) : spawnKindFuel (fuel + 2) a kind x y rot = a.spawnKind kind x y rot := by
  -- the nested call finds the workspace that was just created
  have hnested : ∀ b : BevyWorldAdapter F,
      spawnKindFuel (fuel + 1) b.createMaster.1 entityTypeResource 30.0 0.0 0.0 =
        spawnKindFuel 1 b.createMaster.1 entityTypeResource 30.0 0.0 0.0 := by
    intro b
    obtain ⟨master, hmaster⟩ :=
      findMaster_createMaster b b.createMaster.1.allocator.allocate.2
    simp only [spawnKindFuel, hmaster]
  unfold spawnKind
  rw [spawnKindFuel, spawnKindFuel]
  simp only [hnested]

/-! ## Owners and session agents -/

theorem alive_of_card (h : w.card e = some card) : w.alive e = true := by
  by_contra hdead
  rw [World.card_eq_none.mpr (Bool.eq_false_of_not_eq_true hdead)] at h
  cases h

/-- What an insertion makes of the card of its entity. -/
theorem card_insert_self (hl : ∀ c ∈ l, c.1 ∉ [Comp.networked, .resourceRespawn, .respawnTimer])
    (hcard : w.card e = some card) :
    (w.insert e l).card = update w.card e (some { card with
      owner := (bundle l .networkOwner).or card.owner
      session := (bundle l .sessionAgent).isSome || card.session }) := by
  have halive := alive_of_card hcard
  have hbundle : ∀ k, k ∈ [Comp.networked, .resourceRespawn, .respawnTimer] →
      bundle l k = none :=
    fun k hk => bundle_eq_none fun c hc hck => hl c hc (hck ▸ hk)
  rw [World.card_of_alive halive] at hcard
  obtain rfl := Option.some.inj hcard
  have hhas : ∀ (w' : World F) e' k, w'.has e' k = (w'.get e' k).isSome := fun _ _ _ => rfl
  funext e'
  by_cases he : e' = e
  · subst he
    rw [update_self, World.card_of_alive (by rw [World.alive_insert, halive])]
    simp only [hhas, World.get_insert, halive, and_self, if_true, Option.isSome_or,
      hbundle .networked (by decide), hbundle .resourceRespawn (by decide),
      hbundle .respawnTimer (by decide), Option.none_or]
  · rw [update_of_ne he]
    simp only [World.card, World.alive_insert, hhas, World.get_insert_of_ne w (Or.inl he)]

/-- Giving a fresh networked entity to a client. -/
theorem setOwner_roster {a : BevyWorldAdapter F} (c : ClientId)
    (hl : ∀ c ∈ l, c.1 ∉ identityComps) (hrel : a.bimap.Rel n e)
    (hcard : a.world.card e = some (Roster.networkedCard n)) :
    (a.setOwner n c l).roster = { a.roster with
      cards := update a.roster.cards e
        (some { Roster.networkedCard n with owner := some c })
      owners := update a.roster.owners n (some c) } := by
  have hplain : ∀ x ∈ (⟨.networkOwner, c⟩ :: l : Comps F),
      x.1 ∉ [Comp.networked, .resourceRespawn, .respawnTimer] := by
    intro x hx hmem
    rcases List.mem_cons.mp hx with rfl | hx
    · simp at hmem
    · refine hl x hx ?_
      revert hmem
      generalize x.1 = k
      cases k <;> decide
  have howner : bundle (⟨.networkOwner, c⟩ :: l : Comps F) .networkOwner = some c :=
    bundle_cons_self fun x hx hk => hl x hx (hk ▸ by decide)
  have hsession : bundle (⟨.networkOwner, c⟩ :: l : Comps F) .sessionAgent = none := by
    refine bundle_eq_none fun x hx hk => ?_
    rcases List.mem_cons.mp hx with rfl | hx
    · cases hk
    · exact hl x hx (hk ▸ by decide)
  have hinsert := card_insert_self hplain hcard
  rw [howner, hsession] at hinsert
  simp only [setOwner, BiMap.getByLeft_eq_some.mpr hrel, roster, hinsert]
  congr 1
  exact Storage.next_insert _ _ _

/-- Spawning under the next identifier, then giving the entity away. -/
theorem Moves.setOwner {a : BevyWorldAdapter F} (h : Moves a b) (c : ClientId)
    (hl : ∀ c ∈ l, c.1 ∉ identityComps) (hrel : b.bimap.Rel ⟨a.allocator.next⟩ e)
    (hcard : b.world.card e = some (Roster.networkedCard ⟨a.allocator.next⟩)) :
    Moves a (b.setOwner ⟨a.allocator.next⟩ c l) := by
  have hsetup : SameSetup b (b.setOwner ⟨a.allocator.next⟩ c l) := by
    simp only [BevyWorldAdapter.setOwner, BiMap.getByLeft_eq_some.mpr hrel]
    exact ⟨rfl, rfl, rfl⟩
  refine ⟨fun m hm hb => (h.steps m hm hb).tail ?_, h.setup.trans hsetup⟩
  rw [setOwner_roster c hl hrel hcard]
  exact .own _ _ e c _ hrel hcard hm rfl

theorem spawnNetworkedFor_moves [F32 F] (c : ClientId) : Moves a (a.spawnNetworkedFor c).1 := by
  refine (spawnNetworked_moves a).setOwner c ?_ (e := a.world.spawned)
    (BiMap.rel_insert.mpr (Or.inl ⟨rfl, rfl⟩)) ?_
  · simp [identityComps]
  · show (a.world.spawn _).card _ = _
    rw [World.card_spawn, update_self]
    rfl

theorem spawnKindFor_eq [F32 F] (kind : UInt16) (x y rot : F)
    (c : ClientId) : a.spawnKindFor kind x y rot c =
      ((a.spawnKind kind x y rot).1.setOwner ⟨a.allocator.next⟩ c [], ⟨a.allocator.next⟩) := by
  unfold spawnKindFor
  rw [← (spawnKind_spec a kind x y rot).1]

theorem spawnKindFor_moves [F32 F] (kind : UInt16) (x y rot : F)
    (c : ClientId) : Moves a (a.spawnKindFor kind x y rot c).1 := by
  obtain ⟨-, e, hrel, hcard⟩ := spawnKind_spec a kind x y rot
  rw [spawnKindFor_eq]
  exact (spawnKind_moves a kind x y rot).setOwner c (by simp) hrel hcard

/-- An owned spawn maps the next identifier to an entity of that client. -/
theorem spawnKindFor_spec [F32 F] (kind : UInt16) (x y rot : F) (c : ClientId) :
    ∃ e, (a.spawnKindFor kind x y rot c).1.bimap.Rel ⟨a.allocator.next⟩ e ∧
      (a.spawnKindFor kind x y rot c).1.world.card e =
        some { Roster.networkedCard ⟨a.allocator.next⟩ with owner := some c } := by
  obtain ⟨-, e, hrel, hcard⟩ := spawnKind_spec a kind x y rot
  rw [spawnKindFor_eq, ← roster_bimap, ← roster_cards]
  dsimp only
  rw [setOwner_roster c (by simp) hrel hcard]
  exact ⟨e, hrel, update_self ..⟩

theorem card_insertSession (hcard : w.card e = some card) :
    (w.insert e [⟨.sessionAgent, ()⟩]).card =
      update w.card e (some { card with session := true }) := by
  have hinsert := card_insert_self (l := [⟨.sessionAgent, ()⟩]) (by simp) hcard
  have howner : bundle ([⟨.sessionAgent, ()⟩] : Comps F) .networkOwner = none :=
    bundle_eq_none (by simp)
  rw [howner, bundle_singleton_self, Option.none_or, Option.isSome_some, Bool.true_or] at hinsert
  exact hinsert

/-- Inserting the `SessionAgent` component, with any change of resources, is the mark. -/
theorem insertSession_roster {a : BevyWorldAdapter F} (hcard : a.world.card e = some card)
    (hw : w.ecs = (a.world.insert e [⟨.sessionAgent, ()⟩]).ecs) :
    { a with world := w }.roster = a.roster.mark e card := by
  have hcards := (World.card_of_ecs_eq hw).trans (card_insertSession hcard)
  have hnext : w.ecs.next = a.world.ecs.next := by
    rw [hw]
    exact Storage.next_insert _ _ _
  simp only [roster, Roster.mark, hcards, hnext]

/-- A session agent is an owned spawn with a mark. -/
theorem spawnSessionAgent_spec [F32 F] (kind : UInt16) (x y rot : F) (c : ClientId) :
    (a.spawnSessionAgent kind x y rot c).2 = ⟨a.allocator.next⟩ ∧
      ∃ b e card, Moves a b ∧ b.bimap.Rel ⟨a.allocator.next⟩ e ∧ b.world.card e = some card ∧
        card.owner = some c ∧ card.networked = some ⟨a.allocator.next⟩ ∧
        (a.spawnSessionAgent kind x y rot c).1.roster = b.roster.mark e card ∧
        SameSetup b (a.spawnSessionAgent kind x y rot c).1 := by
  obtain ⟨e, hrel, hcard⟩ := spawnKindFor_spec a kind x y rot c
  have hid : (a.spawnKindFor kind x y rot c).2 = ⟨a.allocator.next⟩ := by
    rw [spawnKindFor_eq]
  have hmoves := spawnKindFor_moves a kind x y rot c
  unfold spawnSessionAgent
  dsimp only
  rw [hid, BiMap.getByLeft_eq_some.mpr hrel]
  dsimp only
  split
  · exact ⟨rfl, _, e, _, hmoves, hrel, hcard, rfl, rfl, insertSession_roster hcard rfl,
      ⟨rfl, rfl, rfl⟩⟩
  · exact ⟨rfl, _, e, _, hmoves, hrel, hcard, rfl, rfl, insertSession_roster hcard rfl,
      ⟨rfl, rfl, rfl⟩⟩

/-- Despawning by identifier only removes pairs, and the pair of that identifier for certain. -/
theorem rel_despawnNetworked {a : BevyWorldAdapter F} {n' : NetworkId} :
    (a.despawnNetworked n).1.bimap.Rel n' e ↔ a.bimap.Rel n' e ∧ n' ≠ n := by
  cases h : a.bimap.getByLeft n with
  | none =>
    rw [despawnNetworked_other h]
    refine ⟨fun hrel => ⟨hrel, ?_⟩, And.left⟩
    rintro rfl
    exact BiMap.getByLeft_eq_none.mp h e hrel
  | some e' =>
    have hbimap := congrArg Roster.bimap (despawnNetworked_roster h)
    dsimp only [roster] at hbimap
    rw [hbimap, BiMap.rel_removeByLeft]

theorem rel_despawnAll (ids : List NetworkId) (a : BevyWorldAdapter F) :
    (ids.foldl (fun a id => (a.despawnNetworked id).1) a).bimap.Rel n e ↔
      a.bimap.Rel n e ∧ n ∉ ids := by
  induction ids generalizing a with
  | nil => simp
  | cons id ids ih =>
    rw [List.foldl_cons, ih, rel_despawnNetworked, List.mem_cons, not_or, and_assoc]

/-! ## The simulation step -/

/-- Spawning an entity that carries a countdown and no identifier. -/
theorem spawnTracker_moves (hcard : (a.world.spawn l).card =
      update a.world.card a.world.spawned (some Roster.trackerCard)) :
    Moves a { a with world := a.world.spawn l } := by
  refine Moves.of_step (fun m _ _ => ?_) ⟨rfl, rfl, rfl⟩
  have hroster : { a with world := a.world.spawn l }.roster =
      { a.roster with
        cards := update a.roster.cards ⟨a.roster.nextEntity⟩ (some Roster.trackerCard)
        nextEntity := a.roster.nextEntity + 1 } := by
    simp only [roster, hcard]
    rfl
  rw [hroster]
  exact .spawnTracker a.roster

theorem onWorld_moves (ks : List Comp) (a : BevyWorldAdapter F) {f : World F → World F}
    (h : Edits ks a.world (f a.world)) (hnet : .networked ∉ ks) (howner : .networkOwner ∉ ks) :
    Moves a (a.onWorld f) := Moves.of_edits a h hnet howner

theorem pushReliable_moves (events : Events) : Moves a (a.onWorld (·.pushReliable events)) :=
  Moves.of_world (World.card_of_ecs_eq rfl) rfl rfl rfl rfl rfl rfl

theorem tracker_of_has (hcard : w.card e = some card) (hk : k ∈ trackerComps)
    (h : w.has e k = true) : card.tracker = true := by
  rw [World.card_of_alive (alive_of_card hcard)] at hcard
  rw [← Option.some.inj hcard]
  rcases List.mem_pair.mp hk with rfl | rfl
  · exact Bool.or_eq_true_iff.mpr (Or.inl h)
  · exact Bool.or_eq_true_iff.mpr (Or.inr h)

theorem despawn_roster (e : Entity) : (a.onWorld (·.despawn e)).roster =
    { a.roster with cards := update a.roster.cards e none } := by
  simp only [roster, onWorld, World.card_despawn]
  rfl

variable [F32 F] {asks : Bool} {ks : List Comp}

omit a in
theorem Deed.moves {a : BevyWorldAdapter F} (h : Deed asks ks a b) : Moves a b := by
  cases h with
  | edit h hvalues _ =>
    exact Moves.of_edits a h.edits (fun hk => absurd (hvalues hk) (by decide))
      fun hk => absurd (hvalues hk) (by decide)
  | request => exact Moves.of_world (World.card_of_ecs_eq rfl) rfl rfl rfl rfl rfl rfl
  | take => exact Moves.of_world (World.card_of_ecs_eq rfl) rfl rfl rfl rfl rfl rfl
  | track r _ => exact spawnTracker_moves a (l := [⟨.resourceRespawn, r⟩]) (World.card_spawn _ _)
  | timer _ => exact spawnTracker_moves a (l := timerComps) (World.card_spawn _ _)
  | spawn _ _ x y rot => exact spawnKind_moves a _ x y rot
  | unmap n => exact despawnNetworked_moves a n
  | unmapped h =>
    refine Moves.of_step (fun m _ _ => ?_) ⟨rfl, rfl, rfl⟩
    rw [despawn_roster]
    exact .despawnUnmapped _ _ h
  | @finish e k hk h =>
    refine ⟨fun m _ _ => ?_, rfl, rfl, rfl⟩
    rw [despawn_roster]
    cases hcard : a.roster.cards e with
    | none => rw [← hcard, update_eq_self]
    | some card =>
      exact .single (.despawnTracker _ e card hcard
        (tracker_of_has hcard hk (h (alive_of_card hcard))))

omit a in
theorem Deeds.moves {a : BevyWorldAdapter F} (h : Deeds asks ks a b) : Moves a b := by
  induction h with
  | refl => exact Moves.refl a
  | tail _ hdeed ih => exact ih.trans hdeed.moves

theorem despawnMapped_moves (event : NetworkId → PlatformEvent)
    (acc : BevyWorldAdapter F × Events) (e : Entity) :
    Moves acc.1 (despawnMapped event acc e).1 := (despawnMapped_deeds [] event acc e).moves

theorem despawnBeam_moves (acc : BevyWorldAdapter F × Events) (e : Entity) :
    Moves acc.1 (despawnBeam acc e).1 := (despawnBeam_deeds [] acc e).moves

theorem terminate_moves (acc : BevyWorldAdapter F × Events) (e : Entity) :
    Moves acc.1 (terminate acc e).1 := (terminate_deeds acc e).moves

theorem spawnTracker_one_moves (r : ResourceRespawn F) : Moves a (a.onWorld (spawnTracker · r)) :=
  (spawnTrackers_deeds [r] a (List.mem_singleton_self _)).moves

theorem beforeHook_moves (P : Platform F) (a : BevyWorldAdapter F) :
    Moves a (a.beforeHook P) := (simulation_deeds P a).moves

/-! ## Clearing -/

/-- Clearing empties the map by steps and then restarts the identifiers. -/
theorem clearWorld_spec (P : Platform F) (a : BevyWorldAdapter F) :
    ∃ b, Moves a b ∧ (∀ n e, ¬ b.bimap.Rel n e) ∧
      (a.clearWorld P).roster = b.roster.restart a.allocator.first ∧
      SameSetup a (a.clearWorld P) := by
  let ids := (P.bimapOrder a.bimap.pairs).map Prod.fst
  let a₁ := ids.foldl (fun a id => (a.despawnNetworked id).1) a
  let b := { a₁ with world := (a₁.world.query [.resourceRespawn]).foldl World.despawn a₁.world }
  have h₁ : Moves a a₁ := Moves.foldl id (fun a id => despawnNetworked_moves a id) ids a
  have h₂ : Moves a₁ b := (despawnTrackers_deeds [] (by decide) _ a₁ fun e he _ =>
    (World.mem_query.mp he).2 _ List.mem_cons_self).moves
  have hmoves := h₁.trans h₂
  refine ⟨b, hmoves, fun n e hrel => ?_, ?_,
    ⟨hmoves.setup.hook, hmoves.setup.replicators, hmoves.setup.first⟩⟩
  · obtain ⟨hold, hnot⟩ := (rel_despawnAll ids a).mp hrel
    exact hnot (List.mem_map.mpr ⟨(n, e), (P.bimapOrder_perm _).mem_iff.mpr hold, rfl⟩)
  · have hroster : (a.clearWorld P).roster = b.roster.restart a₁.allocator.first := rfl
    rw [hroster, show a₁.allocator.first = a.allocator.first from h₁.setup.first]

/-! ## Code from outside

The replicators and the hook are given to the adapter. An adapter is discreet when they leave
identity and ownership alone. -/

structure KeepsCards (w w' : World F) : Prop where
  card : w'.card = w.card
  next : w'.ecs.next = w.ecs.next

structure Discreet (a : BevyWorldAdapter F) : Prop where
  replicators : ∀ r ∈ a.replicators, ∀ w e u, KeepsCards w (r.apply w e u)
  hook : ∀ f, a.postSimulateHook = some f → ∀ w, KeepsCards w (f w)

omit [F32 F] in
theorem Discreet.of_setup {a : BevyWorldAdapter F} (h : Discreet a) (hs : SameSetup a a') :
    Discreet a' where
  replicators := hs.replicators ▸ h.replicators
  hook := hs.hook ▸ h.hook

omit [F32 F] in
theorem Moves.of_keepsCards (h : KeepsCards a.world w) : Moves a { a with world := w } :=
  Moves.of_world h.card h.next rfl rfl rfl rfl rfl

theorem simulate_moves (P : Platform F) {a : BevyWorldAdapter F} (h : Discreet a) :
    Moves a (a.simulate P) := by
  have hmoves := beforeHook_moves P a
  have hb : Discreet (a.beforeHook P) := h.of_setup hmoves.setup
  rw [simulate_eq]
  refine hmoves.trans ?_
  unfold runHook
  split
  · next f hf => exact Moves.of_keepsCards _ (hb.hook f hf _)
  · exact Moves.refl _

/-! ## Ticks, extraction and the reliable queue -/

section Ticks

omit [F32 F]

variable (a : BevyWorldAdapter F)

theorem advanceTick_moves : Moves a a.advanceTick :=
  Moves.of_world rfl rfl rfl rfl rfl rfl rfl

theorem extractDeltas_moves (P : Platform F) (a : BevyWorldAdapter F) :
    Moves a (a.extractDeltas P).1 := Moves.of_world rfl rfl rfl rfl rfl rfl rfl

theorem extractReliableEvents_moves :
    Moves a a.extractReliableEvents.1 := Moves.of_world rfl rfl rfl rfl rfl rfl rfl

theorem postExtract_moves : Moves a a.postExtract :=
  Moves.of_world rfl rfl rfl rfl rfl rfl rfl

theorem queueReliableEvent_moves (client : Option ClientId)
    (event : PlatformEvent) : Moves a (a.queueReliableEvent client event) :=
  Moves.of_world rfl rfl rfl rfl rfl rfl rfl

end Ticks

end BevyWorldAdapter

end Aetheris
