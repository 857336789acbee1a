import Aetheris.EcsBevy.Changes
import Aetheris.EcsBevy.Roles
import Aetheris.Lib.Directory

/-!
# The workspace index

`WorkspaceIndex` repeats what the components say: which entities are members of a workspace, and in
which workspace the session agent of a client is. Entities, workspaces and clients with this index are
a directory (`directory`), and every operation is a sequence of steps of the directory (`Surveys`),
as long as clients do not overwrite memberships and get one session agent at a time. So the index
agrees with the components except for workspaces that are their own members
(`workspace_index_agrees`). The master workspace created by the first spawn by kind is one:
`spawn_kind` enters every entity into the index but the workspace it has just created
(`master_not_in_index`).
-/

namespace Aetheris

open Ecs Function Relation

variable {F : Type}

variable {e : Entity} {ks : List Comp} {w w' : World F}

theorem Edited.workspaceIndex (h : Edited ks w w') : w'.workspaceIndex = w.workspaceIndex := by
  induction h with
  | refl => rfl
  | tail _ hstep ih =>
    rw [← ih]
    cases hstep <;> rfl

theorem World.workspaceIndex_foldl {α : Type} {f : World F → α → World F}
    (hf : ∀ w x, (f w x).workspaceIndex = w.workspaceIndex) (l : List α) (w : World F) :
    (l.foldl f w).workspaceIndex = w.workspaceIndex := by
  induction l generalizing w with
  | nil => rfl
  | cons x l ih => exact (ih (f w x)).trans (hf w x)

/-- The client a session agent acts for. -/
def World.agentOf (w : World F) (e : Entity) : Option ClientId :=
  if w.has e .sessionAgent then w.get e .networkOwner else none

theorem World.agentOf_eq_some {c : ClientId} : w.agentOf e = some c ↔
      w.has e .sessionAgent = true ∧ w.get e .networkOwner = some c := by
  unfold agentOf
  split
  · next h => exact ⟨fun hc => ⟨h, hc⟩, And.right⟩
  · next h => exact ⟨nofun, fun hc => absurd hc.1 h⟩

/-- The components of a session agent. -/
def sessionComps : List Comp := [.sessionAgent, .networkOwner]

/-- The components the index is about. -/
def residentComps : List Comp := .workspaceMembership :: sessionComps

theorem World.agentOf_congr
    (h : ∀ k ∈ sessionComps, w'.get e k = w.get e k) : w'.agentOf e = w.agentOf e := by
  have hsession : w'.has e .sessionAgent = w.has e .sessionAgent :=
    congrArg Option.isSome (h .sessionAgent (by decide))
  unfold agentOf
  rw [hsession, h .networkOwner (by decide)]

theorem World.agentOf_of_not_has (h : w.has e .sessionAgent = false) : w.agentOf e = none := by
  unfold agentOf
  rw [h]
  rfl

theorem World.agentOf_of_not_alive (h : w.alive e = false) : w.agentOf e = none := by
  refine agentOf_of_not_has ?_
  show (w.get e .sessionAgent).isSome = false
  rw [World.get_of_not_alive h]
  rfl

namespace BevyWorldAdapter

def index (a : BevyWorldAdapter F) : WorkspaceIndex :=
  a.world.workspaceIndex.getD WorkspaceIndex.empty

/-- Entities, their workspaces and identifiers, and the index. -/
def directory (a : BevyWorldAdapter F) : Directory Entity NetworkId ClientId where
  place e := a.world.get e .workspaceMembership
  name := a.bimap.getByRight
  agent := a.world.agentOf
  members := a.index.memberships
  homes := a.index.clientWorkspaces

/-- The index is among the resources. -/
def Indexed (a : BevyWorldAdapter F) : Prop := a.world.workspaceIndex.isSome = true

variable {a : BevyWorldAdapter F} {e : Entity} {n : NetworkId}

theorem Indexed.eq_some (h : a.Indexed) : a.world.workspaceIndex = some a.index := by
  obtain ⟨index, hindex⟩ := Option.isSome_iff_exists.mp h
  unfold BevyWorldAdapter.index
  rw [hindex]
  rfl

/-- `a'` comes from `a` by steps of the roster, which are also steps of the directory. -/
structure Surveys (a a' : BevyWorldAdapter F) : Prop extends Moves a a' where
  indexed : a.Indexed → a'.Indexed
  surveys : a.roster.Coherent → a.Indexed → Directory.Steps a.directory a'.directory

namespace Surveys

variable {a a' a'' : BevyWorldAdapter F}

theorem refl (a : BevyWorldAdapter F) : Surveys a a := ⟨Moves.refl a, id, fun _ _ => .refl⟩

theorem trans (h : Surveys a a') (h' : Surveys a' a'') : Surveys a a'' where
  toMoves := h.toMoves.trans h'.toMoves
  indexed := h'.indexed ∘ h.indexed
  surveys hcoherent hindexed :=
    (h.surveys hcoherent hindexed).trans
      (h'.surveys (h.toMoves.coherent hcoherent) (h.indexed hindexed))

theorem foldl {σ α : Type} (π : σ → BevyWorldAdapter F) {f : σ → α → σ}
    (h : ∀ s x, Surveys (π s) (π (f s x))) (l : List α) (s : σ) :
    Surveys (π s) (π (l.foldl f s)) := by
  induction l generalizing s with
  | nil => exact refl _
  | cons x l ih => exact (h s x).trans (ih (f s x))

/-- What the directory is made of stays. -/
theorem of_eq (hmoves : Moves a a') (hbimap : a'.bimap = a.bimap)
    (hindex : a'.world.workspaceIndex = a.world.workspaceIndex)
    (hget : ∀ e, ∀ k ∈ residentComps, a'.world.get e k = a.world.get e k) : Surveys a a' where
  toMoves := hmoves
  indexed h := by
    unfold Indexed
    rw [hindex]
    exact h
  surveys _ _ := by
    have hsame : a'.directory = a.directory := by
      refine Directory.ext (funext fun e => hget e .workspaceMembership (by decide))
        (congrArg BiMap.getByRight hbimap) 
        (funext fun e => World.agentOf_congr fun k hk => hget e k (List.mem_cons_of_mem _ hk)) ?_ ?_
      · exact congrArg (fun i => (i.getD WorkspaceIndex.empty).memberships) hindex
      · exact congrArg (fun i => (i.getD WorkspaceIndex.empty).clientWorkspaces) hindex
    rw [hsame]

/-- Changes of the world that leave the map and the index alone. Whoever goes is not on the map, or
the map would still list it. -/
theorem of_evolves {w : World F} {ks : List Comp} (hmoves : Moves a { a with world := w })
    (h : Evolves ks a.world w) (hks : ∀ k ∈ residentComps, k ∉ ks)
    (hindex : w.workspaceIndex = a.world.workspaceIndex) : Surveys a { a with world := w } where
  toMoves := hmoves
  indexed ha := by
    unfold Indexed
    rw [hindex]
    exact ha
  surveys hcoherent _ := by
    have hafter := hmoves.coherent hcoherent
    have hsame : { a with world := w }.directory = a.directory.vanish fun e => !w.alive e := by
      refine Directory.ext (funext fun e => ?_) rfl (funext fun e => ?_) ?_ ?_
      · show w.get e .workspaceMembership =
          if !w.alive e then none else a.world.get e .workspaceMembership
        cases halive : w.alive e with
        | true => exact h.get e _ (hks .workspaceMembership (by decide)) halive
        | false => exact World.get_of_not_alive halive _
      · show w.agentOf e = if !w.alive e then none else a.world.agentOf e
        cases halive : w.alive e with
        | true =>
          exact World.agentOf_congr fun k hk =>
            h.get e k (hks k (List.mem_cons_of_mem _ hk)) halive
        | false => exact World.agentOf_of_not_alive halive
      · exact congrArg (fun i => (i.getD WorkspaceIndex.empty).memberships) hindex
      · exact congrArg (fun i => (i.getD WorkspaceIndex.empty).clientWorkspaces) hindex
    rw [hsame]
    refine .single (.vanish _ fun e hgone => ?_)
    refine BiMap.getByRight_eq_none.mpr fun n hrel => ?_
    obtain ⟨card, hcard, -⟩ := hafter.card_of_rel (show _ from hrel)
    rw [show w.alive e = true from alive_of_card hcard] at hgone
    cases hgone

theorem of_edited {w : World F} {ks : List Comp} (h : Edited ks a.world w)
    (hnet : .networked ∉ ks) (hks : ∀ k ∈ residentComps, k ∉ ks) :
    Surveys a { a with world := w } :=
  of_evolves (Moves.of_edits a h.edits hnet (hks _ (by decide))) (.of_edits h.edits) hks
    h.workspaceIndex

end Surveys

/-! ## Despawns -/

theorem despawnNetworked_workspaceIndex (h : a.bimap.getByLeft n = some e) :
    (a.despawnNetworked n).1.world.workspaceIndex = a.world.workspaceIndex.map fun index =>
      forgetEntity index e (a.world.has e .sessionAgent) (a.world.get e .networkOwner) := by
  unfold despawnNetworked
  simp only [h]
  split <;> rfl

theorem despawnNetworked_directory (h : a.bimap.getByLeft n = some e) (ha : a.Indexed) :
    (a.despawnNetworked n).1.directory = a.directory.leave e := by
  have hrel := BiMap.getByLeft_eq_some.mp h
  have hget := get_despawnNetworked hrel
  have hbimap : (a.despawnNetworked n).1.bimap = a.bimap.removeByLeft n :=
    congrArg Roster.bimap (despawnNetworked_roster h)
  have hindex : (a.despawnNetworked n).1.index =
      forgetEntity a.index e (a.world.has e .sessionAgent) (a.world.get e .networkOwner) := by
    unfold index
    rw [despawnNetworked_workspaceIndex h, ha.eq_some]
    rfl
  refine Directory.ext (funext fun e' => ?_) ?_ (funext fun e' => ?_) ?_ ?_
  · show _ = update (fun e' => a.world.get e' .workspaceMembership) e none e'
    rw [update_apply]
    exact hget e' .workspaceMembership
  · exact (congrArg BiMap.getByRight hbimap).trans (BiMap.getByRight_removeByLeft hrel)
  · show (a.despawnNetworked n).1.world.agentOf e' = update a.world.agentOf e none e'
    by_cases he : e' = e
    · subst he
      rw [update_self]
      refine World.agentOf_of_not_has ?_
      show ((a.despawnNetworked n).1.world.get e' .sessionAgent).isSome = false
      rw [hget, if_pos rfl]
      rfl
    · rw [update_of_ne he]
      exact World.agentOf_congr fun k _ => (hget e' k).trans (if_neg he)
  · show (a.despawnNetworked n).1.index.memberships = _
    rw [hindex]
    rfl
  · -- the client whose home is forgotten is the one the entity acts for
    show (a.despawnNetworked n).1.index.clientWorkspaces = a.directory.homesWithout e
    rw [hindex]
    unfold forgetEntity Directory.homesWithout
    simp only [directory, World.agentOf]
    cases a.world.has e .sessionAgent with
    | false => rfl
    | true => cases a.world.get e .networkOwner <;> rfl

theorem despawnNetworked_surveys (a : BevyWorldAdapter F) (n : NetworkId) :
    Surveys a (a.despawnNetworked n).1 := by
  cases h : a.bimap.getByLeft n with
  | none =>
    rw [despawnNetworked_other h]
    exact .refl a
  | some e =>
    refine ⟨despawnNetworked_moves a n, fun ha => ?_, fun _ ha => ?_⟩
    · unfold Indexed
      rw [despawnNetworked_workspaceIndex h, Option.isSome_map]
      exact ha
    · rw [despawnNetworked_directory h ha]
      exact .single (.leave e)

/-! ## Spawns -/

/-- A new entity that has nothing to do with workspaces. -/
theorem get_spawn_resident (w : World F) {l : Comps F} (hl : ∀ c ∈ l, c.1 ∉ residentComps)
    (e : Entity) {k : Comp} (hk : k ∈ residentComps) : (w.spawn l).get e k = w.get e k := by
  rw [World.get_spawn]
  split
  · next he =>
    rw [he, World.get_of_not_alive (World.not_alive_spawned w)]
    exact bundle_eq_none fun c hc hck => hl c hc (hck ▸ hk)
  · rfl

theorem spawnNetworked_directory (hb : a.roster.Bounded) :
    a.spawnNetworked.1.directory = a.directory.call a.world.spawned ⟨a.allocator.next⟩ := by
  have hresident : ∀ e, ∀ k ∈ residentComps,
      a.spawnNetworked.1.world.get e k = a.world.get e k :=
    fun e k => get_spawn_resident a.world (by simp [residentComps, sessionComps]) e
  refine Directory.ext (funext fun e => hresident e _ (by decide)) ?_ (funext fun e => ?_) rfl rfl
  · exact BiMap.getByRight_insert _ (Bounded.not_rel_next hb)
  · exact World.agentOf_congr fun k hk => hresident e k (List.mem_cons_of_mem _ hk)

theorem directory_place_spawned (a : BevyWorldAdapter F) :
    a.directory.place a.world.spawned = none :=
  World.get_of_not_alive (World.not_alive_spawned _) _

theorem spawnNetworked_surveys (a : BevyWorldAdapter F) : Surveys a a.spawnNetworked.1 where
  toMoves := spawnNetworked_moves a
  indexed := id
  surveys hcoherent _ := by
    rw [spawnNetworked_directory hcoherent.toBounded]
    exact .single (.call _ _ (directory_place_spawned a))

section Kinds

variable [F32 F]

/-- The new workspace is its own member, and the index is not told. -/
theorem createMaster_directory (a : BevyWorldAdapter F) :
    a.createMaster.1.directory =
      a.spawnNetworked.1.directory.found a.world.spawned ⟨a.allocator.next⟩ := by
  have halive : a.spawnNetworked.1.world.alive a.world.spawned = true := by
    show (a.world.spawn _).alive _ = true
    rw [World.alive_spawn, decide_eq_true rfl, Bool.true_or]
  rw [createMaster_eq]
  refine Directory.ext (funext fun e => ?_) rfl (funext fun e => ?_) rfl rfl
  · show (a.spawnNetworked.1.world.insert _ _).get e .workspaceMembership =
      update (fun e => a.spawnNetworked.1.world.get e .workspaceMembership) _ _ e
    rw [World.get_insert, update_apply]
    by_cases he : e = a.world.spawned
    · rw [if_pos ⟨he, halive⟩, if_pos he]
      rfl
    · rw [if_neg fun h => he h.1, if_neg he]
  · refine World.agentOf_congr fun k hk => World.get_insert_of_ne _ (Or.inr fun c hc hck => ?_)
    have hidentity : ∀ k ∈ sessionComps, k ∈ identityComps := by decide
    exact masterComps_plain _ c hc (hck ▸ hidentity k hk)

theorem createMaster_surveys (a : BevyWorldAdapter F) : Surveys a a.createMaster.1 where
  toMoves := createMaster_moves a
  indexed ha := by
    rw [createMaster_eq]
    exact ha
  surveys hcoherent ha := by
    have hspawn := (spawnNetworked_surveys a).surveys hcoherent ha
    rw [createMaster_directory]
    refine hspawn.tail (.found _ _ ?_ ?_)
    · rw [spawnNetworked_directory hcoherent.toBounded]
      exact directory_place_spawned a
    · rw [spawnNetworked_directory hcoherent.toBounded]
      exact update_self ..

theorem placeKind_index (a : BevyWorldAdapter F) (n : NetworkId) (kind : UInt16) (x y rot : F)
    (master : NetworkId) :
    (a.placeKind n kind x y rot master).world.workspaceIndex = a.world.workspaceIndex.map
      fun index => { index with
        memberships := update index.memberships master
          (insert a.world.spawned (index.memberships master)) } := by
  have hkept : ((kindComps kind x y).foldl
      (fun (w : World F) comps => w.insert a.world.spawned comps)
      (a.world.spawn (spawnComps n kind x y rot))).workspaceIndex = a.world.workspaceIndex :=
    World.workspaceIndex_foldl
      (f := fun (w : World F) comps => w.insert a.world.spawned comps) (fun _ _ => rfl) _ _
  exact congrArg (Option.map _) hkept

theorem placedCells_workspaceMembership (n : NetworkId) (kind : UInt16) (x y rot : F)
    (master : NetworkId) :
    placedCells n kind x y rot master .workspaceMembership = some master := by
  unfold placedCells insertComps
  rw [List.foldl_append]
  rfl

theorem placedCells_sessionAgent (n : NetworkId) (kind : UInt16) (x y rot : F)
    (master : NetworkId) : placedCells n kind x y rot master .sessionAgent = none := by
  unfold placedCells insertComps kindComps
  split_ifs <;> rfl

variable {a : BevyWorldAdapter F} {c : ClientId} {e : Entity} {master n : NetworkId}

/-- Every other entity is entered among the members of its workspace. -/
theorem placeKind_directory (ha : a.Indexed)
    (hfree : ∀ e, ¬ a.bimap.Rel n e) (kind : UInt16) (x y rot : F) (master : NetworkId) :
    (a.placeKind n kind x y rot master).directory =
      a.directory.settle a.world.spawned n master := by
  have hindex : (a.placeKind n kind x y rot master).index = { a.index with
      memberships := update a.index.memberships master
        (insert a.world.spawned (a.index.memberships master)) } := by
    unfold index
    rw [placeKind_index, ha.eq_some]
    rfl
  have hnew := get_placeKind_new a n kind x y rot master
  have hother := fun e => get_placeKind_of_ne a n kind x y rot master (e := e)
  refine Directory.ext (funext fun e => ?_) (BiMap.getByRight_insert _ hfree) (funext fun e => ?_)
    (congrArg WorkspaceIndex.memberships hindex) ?_
  · show (a.placeKind n kind x y rot master).world.get e .workspaceMembership =
      update (fun e => a.world.get e .workspaceMembership) _ _ e
    by_cases he : e = a.world.spawned
    · rw [he, update_self, hnew]
      exact placedCells_workspaceMembership n kind x y rot master
    · rw [update_of_ne he]
      exact hother e he _
  · by_cases he : e = a.world.spawned
    · have hdead : a.world.agentOf e = none :=
        World.agentOf_of_not_alive (he ▸ World.not_alive_spawned _)
      refine (World.agentOf_of_not_has ?_).trans hdead.symm
      show ((a.placeKind n kind x y rot master).world.get e .sessionAgent).isSome = false
      rw [he, hnew, placedCells_sessionAgent]
      rfl
    · exact World.agentOf_congr fun k _ => hother e he k
  · show (a.placeKind n kind x y rot master).index.clientWorkspaces = _
    rw [hindex]
    rfl

theorem placeKind_step (ha : a.Indexed)
    (hfree : ∀ e, ¬ a.bimap.Rel n e) (hne : n ≠ master) (kind : UInt16) (x y rot : F) :
    Directory.Step a.directory (a.placeKind n kind x y rot master).directory := by
  rw [placeKind_directory ha hfree]
  exact .settle _ _ _ (directory_place_spawned a) hne

omit [F32 F] in
theorem rel_of_findMaster (h : a.findMaster = some master) : ∃ e, a.bimap.Rel master e := by
  obtain ⟨e, -, he⟩ := List.exists_of_findSome?_eq_some h
  refine ⟨e, ?_⟩
  split at he
  · split at he
    · exact BiMap.getByRight_eq_some.mp he
    · cases he
  · cases he

/-- The identifier is taken first, so it differs from that of a workspace found or created. -/
theorem spawnKindFuel_surveys (fuel : Nat) :
    ∀ (a : BevyWorldAdapter F) (kind : UInt16) (x y rot : F),
      Surveys a (spawnKindFuel fuel a kind x y rot).1 := by
  induction fuel with
  | zero => exact fun a _ _ _ _ => .refl a
  | succ fuel ih =>
    intro a kind x y rot
    let a₁ := { a with allocator := a.allocator.allocate.2 }
    have hfirst : Surveys a a₁ := .of_eq (allocate_moves a) rfl rfl fun _ _ _ => rfl
    have hmoves := spawnKindFuel_moves (fuel + 1) a kind x y rot
    unfold spawnKindFuel at hmoves ⊢
    cases hmaster : a₁.findMaster with
    | some master =>
      obtain ⟨e, hrel⟩ := rel_of_findMaster hmaster
      simp only [a₁] at hmaster
      simp only [hmaster] at hmoves ⊢
      refine ⟨hmoves, fun ha => ?_, fun hcoherent ha => ?_⟩
      · unfold Indexed
        rw [placeKind_index, Option.isSome_map]
        exact ha
      · have hfree := Bounded.not_rel_next hcoherent.toBounded
        refine .single (placeKind_step (a := a₁) ha hfree (fun heq => ?_) kind x y rot)
        exact hfree e (heq ▸ hrel)
    | none =>
      simp only [a₁] at hmaster
      simp only [hmaster] at hmoves ⊢
      have hnested := (createMaster_surveys a₁).trans
        (ih a₁.createMaster.1 entityTypeResource 30.0 0.0 0.0)
      generalize hb : (spawnKindFuel fuel a₁.createMaster.1 entityTypeResource 30.0 0.0 0.0).1 = b
        at hnested hmoves ⊢
      refine ⟨hmoves, fun ha => ?_, fun hcoherent ha => ?_⟩
      · unfold Indexed
        rw [placeKind_index, Option.isSome_map]
        exact hnested.indexed ha
      · have hbound := Bounded.not_rel_next hcoherent.toBounded
        have hcoherent₁ := hfirst.toMoves.coherent hcoherent
        have hsteps := hnested.steps (a.allocator.next + 1) (Nat.le_refl _) hcoherent₁.toBounded
        -- what comes in between takes larger identifiers
        have hfree : ∀ e, ¬ b.bimap.Rel ⟨a.allocator.next⟩ e := fun e hrel =>
          hbound e (Roster.rel_of_steps hsteps (Nat.lt_succ_self _) hrel)
        have hid : a₁.createMaster.2 = ⟨a.allocator.next + 1⟩ := by
          rw [createMaster_eq]
          rfl
        have hne : (⟨a.allocator.next⟩ : NetworkId) ≠ a₁.createMaster.2 := by
          rw [hid]
          exact fun heq => Nat.succ_ne_self _ (congrArg NetworkId.val heq).symm
        exact (hnested.surveys hcoherent₁ ha).tail
          (placeKind_step (hnested.indexed ha) hfree hne kind x y rot)

theorem spawnKind_surveys (a : BevyWorldAdapter F) (kind : UInt16) (x y rot : F) :
    Surveys a (a.spawnKind kind x y rot).1 := spawnKindFuel_surveys 2 a kind x y rot

/-! ## Owners and session agents -/

omit [F32 F] in
/-- Giving an entity that is no session agent an owner. -/
theorem setOwner_surveys {b : BevyWorldAdapter F}
    {l : Comps F} (h : Surveys a b) (hmoves : Moves a (b.setOwner n c l))
    (hrel : b.bimap.Rel n e) (hsession : b.world.has e .sessionAgent = false)
    (hl : ∀ c ∈ l, c.1 ∉ residentComps) : Surveys a (b.setOwner n c l) := by
  have hset : b.setOwner n c l = { b with
      world := b.world.insert e (⟨.networkOwner, c⟩ :: l)
      owners := update b.owners n (some c) } := by
    unfold setOwner
    rw [BiMap.getByLeft_eq_some.mpr hrel]
  have hget : ∀ e', ∀ k ∈ residentComps, k ≠ .networkOwner →
      (b.world.insert e (⟨.networkOwner, c⟩ :: l)).get e' k = b.world.get e' k := by
    intro e' k hk hne
    refine World.get_insert_of_ne _ (Or.inr fun comp hcomp heq => ?_)
    rcases List.mem_cons.mp hcomp with rfl | hcomp
    · exact hne heq.symm
    · exact hl comp hcomp (heq ▸ hk)
  have hsame : (b.setOwner n c l).directory = b.directory := by
    rw [hset]
    refine Directory.ext (funext fun e' => hget e' _ (by decide) (by decide)) rfl
      (funext fun e' => ?_) rfl rfl
    show (b.world.insert e (⟨.networkOwner, c⟩ :: l)).agentOf e' = b.world.agentOf e'
    by_cases he : e' = e
    · subst he
      rw [World.agentOf_of_not_has hsession]
      refine World.agentOf_of_not_has ?_
      exact (congrArg Option.isSome (hget e' .sessionAgent (by decide) (by decide))).trans hsession
    · exact World.agentOf_congr fun k _ => World.get_insert_of_ne _ (Or.inl he)
  refine ⟨hmoves, fun ha => ?_, fun hcoherent ha => ?_⟩
  · rw [hset]
    exact h.indexed ha
  · rw [hsame]
    exact h.surveys hcoherent ha

omit [F32 F] in
theorem not_session_of_card {w : World F} {card : Card} (h : w.card e = some card)
    (hsession : card.session = false) : w.has e .sessionAgent = false := by
  rw [World.card_of_alive (alive_of_card h)] at h
  rw [← Option.some.inj h] at hsession
  exact hsession

theorem spawnNetworkedFor_surveys (a : BevyWorldAdapter F) (c : ClientId) :
    Surveys a (a.spawnNetworkedFor c).1 := by
  have hcard : a.spawnNetworked.1.world.card a.world.spawned =
      some (Roster.networkedCard ⟨a.allocator.next⟩) := by
    show (a.world.spawn _).card _ = _
    rw [World.card_spawn, update_self]
    rfl
  exact setOwner_surveys (spawnNetworked_surveys a) (spawnNetworkedFor_moves a c)
    (BiMap.rel_insert.mpr (Or.inl ⟨rfl, rfl⟩)) (not_session_of_card hcard rfl)
    (by simp [residentComps, sessionComps])

theorem spawnKindFor_surveys (a : BevyWorldAdapter F) (kind : UInt16) (x y rot : F)
    (c : ClientId) : Surveys a (a.spawnKindFor kind x y rot c).1 := by
  have hmoves := spawnKindFor_moves a kind x y rot c
  obtain ⟨-, e, hrel, hcard⟩ := spawnKind_spec a kind x y rot
  rw [spawnKindFor_eq] at hmoves ⊢
  exact setOwner_surveys (spawnKind_surveys a kind x y rot) hmoves hrel
    (not_session_of_card hcard rfl) nofun

theorem placeKind_member (a : BevyWorldAdapter F) (n : NetworkId) (kind : UInt16) (x y rot : F)
    (master : NetworkId) :
    ∃ e w, (a.placeKind n kind x y rot master).bimap.Rel n e ∧
      (a.placeKind n kind x y rot master).world.get e .workspaceMembership = some w := by
  refine ⟨a.world.spawned, master, BiMap.rel_insert.mpr (Or.inl ⟨rfl, rfl⟩), ?_⟩
  rw [get_placeKind_new]
  exact placedCells_workspaceMembership n kind x y rot master

/-- What is spawned by kind is in a workspace. -/
theorem spawnKind_member (a : BevyWorldAdapter F) (kind : UInt16) (x y rot : F) :
    ∃ e w, (a.spawnKind kind x y rot).1.bimap.Rel ⟨a.allocator.next⟩ e ∧
      (a.spawnKind kind x y rot).1.world.get e .workspaceMembership = some w := by
  unfold spawnKind spawnKindFuel
  dsimp only
  split
  · exact placeKind_member _ _ kind x y rot _
  · exact placeKind_member _ _ kind x y rot _

omit [F32 F] in
theorem agentOf_iff (h : a.roster.Coherent) :
    a.world.agentOf e = some c ↔ ∃ n, a.roster.IsAgent e c n := by
  rw [World.agentOf_eq_some]
  constructor
  · rintro ⟨hsession, howner⟩
    have hcard := World.card_of_alive (World.alive_of_has hsession)
    obtain ⟨n, hn⟩ := Option.ne_none_iff_exists'.mp (h.sessions e _ hcard hsession)
    exact ⟨n, _, hcard, hsession, howner, hn⟩
  · rintro ⟨n, card, hcard, hsession, howner, -⟩
    rw [roster_cards, World.card_of_alive (alive_of_card hcard), Option.some.injEq] at hcard
    subst hcard
    exact ⟨hsession, howner⟩

omit [F32 F] in
/-- Only marks make session agents. -/
theorem agentOf_of_moves {a' : BevyWorldAdapter F} (hm : Moves a a') (h : a.roster.Coherent)
    (hagent : a'.world.agentOf e = some c) :
    a.world.agentOf e = some c := by
  obtain ⟨n, hn⟩ := (agentOf_iff (hm.coherent h)).mp hagent
  exact (agentOf_iff h).mpr
    ⟨n, Roster.isAgent_of_steps (hm.steps _ (Nat.le_refl _) h.toBounded) hn⟩

theorem spawnKindFor_member (a : BevyWorldAdapter F) (kind : UInt16) (x y rot : F)
    (c : ClientId) :
    ∃ e w, (a.spawnKindFor kind x y rot c).1.bimap.Rel ⟨a.allocator.next⟩ e ∧
      (a.spawnKindFor kind x y rot c).1.world.get e .workspaceMembership = some w := by
  obtain ⟨e, w, hrel, hplace⟩ := spawnKind_member a kind x y rot
  rw [spawnKindFor_eq]
  unfold setOwner
  simp only [BiMap.getByLeft_eq_some.mpr hrel]
  refine ⟨e, w, hrel, ?_⟩
  exact (World.get_insert_of_ne _ (Or.inr (by simp))).trans hplace

/-- A session agent is an owned spawn that is then appointed. -/
theorem spawnSessionAgent_directory (a : BevyWorldAdapter F) (kind : UInt16) (x y rot : F)
    (c : ClientId) (ha : a.Indexed) :
    (a.spawnSessionAgent kind x y rot c).1.Indexed ∧
      ∃ e w, (a.spawnKindFor kind x y rot c).1.directory.place e = some w ∧
        (a.spawnKindFor kind x y rot c).1.directory.agent e = none ∧
        (a.spawnSessionAgent kind x y rot c).1.directory =
          (a.spawnKindFor kind x y rot c).1.directory.appoint e c w := by
  obtain ⟨e, w, hrel, hplace⟩ := spawnKindFor_member a kind x y rot c
  obtain ⟨e', hrel', hcard⟩ := spawnKindFor_spec a kind x y rot c
  obtain rfl : e = e' := hrel.right_unique hrel'
  have hid : (a.spawnKindFor kind x y rot c).2 = ⟨a.allocator.next⟩ := by rw [spawnKindFor_eq]
  have hindexed := (spawnKindFor_surveys a kind x y rot c).indexed ha
  unfold spawnSessionAgent
  dsimp only
  rw [hid]
  generalize (a.spawnKindFor kind x y rot c).1 = b at hrel hplace hcard hindexed ⊢
  have halive := alive_of_card hcard
  have hsession := not_session_of_card hcard rfl
  have howner : b.world.get e .networkOwner = some c := by
    rw [World.card_of_alive halive, Option.some.injEq] at hcard
    exact congrArg Card.owner hcard
  let w' := b.world.insert e [⟨.sessionAgent, ()⟩]
  have hget : ∀ e', ∀ k, k ≠ .sessionAgent → w'.get e' k = b.world.get e' k := fun e' k hk =>
    World.get_insert_of_ne _ (Or.inr fun comp hcomp heq => by
      rw [List.mem_singleton.mp hcomp] at heq
      exact hk heq.symm)
  have hworkspace : { b with world := w' }.getEntityWorkspace ⟨a.allocator.next⟩ = some w := by
    unfold getEntityWorkspace
    rw [BiMap.getByLeft_eq_some.mpr hrel]
    exact (hget e _ (by decide)).trans hplace
  rw [BiMap.getByLeft_eq_some.mpr hrel]
  dsimp only
  rw [hworkspace]
  refine ⟨?_, e, w, hplace, World.agentOf_of_not_has hsession, ?_⟩
  · show (b.world.workspaceIndex.map _).isSome = true
    rw [Option.isSome_map]
    exact hindexed
  refine Directory.ext (funext fun e' => hget e' _ (by decide)) rfl (funext fun e' => ?_) ?_ ?_
  · show w'.agentOf e' = update b.world.agentOf e (some c) e'
    by_cases he : e' = e
    · subst he
      rw [update_self, World.agentOf_eq_some]
      refine ⟨?_, (hget e' _ (by decide)).trans howner⟩
      show (w'.get e' .sessionAgent).isSome = true
      rw [World.get_insert, if_pos ⟨rfl, halive⟩, bundle_singleton_self]
      rfl
    · rw [update_of_ne he]
      exact World.agentOf_congr fun k _ => World.get_insert_of_ne _ (Or.inl he)
  · show ((b.world.workspaceIndex.map _).getD WorkspaceIndex.empty).memberships = b.index.memberships
    rw [hindexed.eq_some]
    rfl
  · show ((b.world.workspaceIndex.map _).getD WorkspaceIndex.empty).clientWorkspaces = _
    rw [hindexed.eq_some]
    rfl

theorem stressTest_surveys (P : Platform F) (a : BevyWorldAdapter F) (count : UInt16)
    (rotate : Bool) : Surveys a (a.stressTest P count rotate) := by
  refine Surveys.foldl id (fun b i => ?_) _ a
  have hdraw : ∀ (b : BevyWorldAdapter F) lo hi, Surveys b (b.drawRange P lo hi).1 :=
    fun b lo hi => .of_eq (Moves.of_world rfl rfl rfl rfl rfl rfl rfl) rfl rfl fun _ _ _ => rfl
  show Surveys b (stressSpawn P rotate b i)
  unfold stressSpawn
  cases rotate with
  | false =>
    exact ((hdraw b (F32.neg 20.0) 20.0).trans (hdraw _ (F32.neg 20.0) 20.0)).trans
      (spawnKind_surveys _ _ _ _ _)
  | true =>
    exact (((hdraw b (F32.neg 20.0) 20.0).trans (hdraw _ (F32.neg 20.0) 20.0)).trans
      (hdraw _ 0.0 F32.tau)).trans (spawnKind_surveys _ _ _ _ _)

end Kinds

/-! ## The simulation -/

/-- Another list of beams asked for. -/
theorem requests_surveys (a : BevyWorldAdapter F) (requests : Option (List (BeamSpawn F))) :
    Surveys a { a with world := { a.world with beamSpawnRequests := requests } } :=
  .of_eq (Moves.of_world (World.card_of_ecs_eq rfl) rfl rfl rfl rfl rfl rfl) rfl rfl
    fun _ _ _ => rfl

section Simulation

variable [F32 F] {asks : Bool} {ks : List Comp}

theorem Deed.surveys (h : Deed asks ks a b) : Surveys a b := by
  have hmoves := h.moves
  have hresident : ∀ k ∈ residentComps, k ∉ valueComps ++ trackerComps := by decide
  cases h with
  | edit h hvalues _ =>
    exact .of_edited h (fun hk => absurd (hvalues hk) (by decide))
      fun k hk hmem => hresident k hk (hvalues hmem)
  | request => exact requests_surveys a _
  | take => exact requests_surveys a _
  | track r _ =>
    have hspawn : Evolves [.resourceRespawn] a.world (spawnTracker a.world r) :=
      Evolves.spawn _ (by simp)
    exact .of_evolves hmoves hspawn (by decide) rfl
  | timer _ =>
    have hspawn : Evolves [.trainingTarget, .respawnTimer] a.world (a.world.spawn timerComps) :=
      Evolves.spawn _ (by simp [timerComps])
    exact .of_evolves hmoves hspawn (by decide) rfl
  | spawn _ _ x y rot => exact spawnKind_surveys a _ x y rot
  | unmap n => exact despawnNetworked_surveys a n
  | unmapped _ => exact .of_evolves hmoves (Evolves.despawn [] _ _) (fun _ _ => List.not_mem_nil) rfl
  | finish _ _ => exact .of_evolves hmoves (Evolves.despawn [] _ _) (fun _ _ => List.not_mem_nil) rfl

theorem Deeds.surveys (h : Deeds asks ks a b) : Surveys a b := by
  induction h with
  | refl => exact .refl a
  | tail _ hdeed ih => exact ih.trans hdeed.surveys

theorem beforeHook_surveys (P : Platform F) (a : BevyWorldAdapter F) :
    Surveys a (a.beforeHook P) := (simulation_deeds P a).surveys

end Simulation

/-! ## Clearing and client updates -/

/-- Clearing despawns everybody on the map and empties the index. -/
theorem clearWorld_directory [F32 F] (P : Platform F) (hcoherent : a.roster.Coherent) (ha : a.Indexed) :
    (a.clearWorld P).Indexed ∧ Directory.Steps a.directory (a.clearWorld P).directory := by
  let ids := (P.bimapOrder a.bimap.pairs).map Prod.fst
  let a₁ := ids.foldl (fun a id => (a.despawnNetworked id).1) a
  let b := { a₁ with world := (a₁.world.query [.resourceRespawn]).foldl World.despawn a₁.world }
  have h₁ : Surveys a a₁ := Surveys.foldl id despawnNetworked_surveys ids a
  have h₂ : Deeds false [] a₁ b := despawnTrackers_deeds [] (k := .resourceRespawn) (by decide) _ a₁
    fun e he _ => (World.mem_query.mp he).2 _ List.mem_cons_self
  have h := h₁.trans h₂.surveys
  have hindexed : b.world.workspaceIndex = some b.index := (h.indexed ha).eq_some
  have hclear : (a.clearWorld P).directory = b.directory.clear := by
    refine Directory.ext rfl rfl rfl ?_ ?_
    · show ((b.world.workspaceIndex.map _).getD WorkspaceIndex.empty).memberships = _
      rw [hindexed]
      rfl
    · show ((b.world.workspaceIndex.map _).getD WorkspaceIndex.empty).clientWorkspaces = _
      rw [hindexed]
      rfl
  refine ⟨?_, ?_⟩
  · show (b.world.workspaceIndex.map _).isSome = true
    rw [hindexed]
    rfl
  · rw [hclear]
    refine (h.surveys hcoherent ha).tail (.clear fun e => ?_)
    refine BiMap.getByRight_eq_none.mpr fun n hrel => ?_
    obtain ⟨hold, hnot⟩ := (rel_despawnAll ids a).mp hrel
    exact hnot (List.mem_map.mpr ⟨(n, e), (P.bimapOrder_perm _).mem_iff.mpr hold, rfl⟩)

theorem authorize_surveys (c : ClientId)
    (hrel : a.bimap.Rel n e) : Surveys a (a.authorize c n e).1 := by
  have hmoves := authorize_moves c hrel
  rw [authorize_fst] at hmoves ⊢
  exact .of_eq hmoves rfl rfl fun _ _ _ => rfl

/-- No replicator that writes memberships is registered for the kind of the update. -/
def SparesMembership (a : BevyWorldAdapter F) (u : ComponentUpdate) : Prop :=
  ∀ r, findReplicator a.replicators u.componentKind = some r →
    ∃ k, k ≠ Comp.workspaceMembership ∧ r.WritesOnly k

theorem applyOne_surveys (h : ∀ r ∈ a.replicators, r.Plain)
    {u : ClientId × ComponentUpdate} (hu : a.SparesMembership u.2) :
    Surveys a (a.applyOne u) := by
  have hcases := applyOne_cases a u
  generalize a.applyOne u = a' at hcases ⊢
  cases hcases with
  | unmapped => exact .refl a
  | checked e hrel => exact authorize_surveys u.1 hrel
  | applied e hrel howner r hr =>
    obtain ⟨k, hk, hwrites⟩ := h r (mem_of_findReplicator hr)
    obtain ⟨k', hk', hwrites'⟩ := hu r hr
    have hwrite := hwrites.writes a.world e u.2
    rw [← authorize_world a u.1 u.2.networkId e] at hwrite ⊢
    refine (authorize_surveys u.1 hrel).trans
      (.of_eq (Moves.of_keepsCards _ (hwrite.keepsCards hk)) rfl ?_ fun e' k₀ hk₀ => ?_)
    · show (r.apply _ e u.2).workspaceIndex = _
      rw [hwrite.resources]
    · rcases List.mem_cons.mp hk₀ with rfl | hk₀
      · exact (hwrites'.writes _ e u.2).get e' _ (Or.inr hk'.symm)
      · have hidentity : ∀ k ∈ sessionComps, k ∈ identityComps := by decide
        exact hwrite.get e' _ (Or.inr fun heq => hk (heq ▸ hidentity k₀ hk₀))

theorem applyUpdates_surveys (h : ∀ r ∈ a.replicators, r.Plain)
    {updates : List (ClientId × ComponentUpdate)}
    (hupdates : ∀ u ∈ updates, a.SparesMembership u.2) : Surveys a (a.applyUpdates updates) := by
  rw [applyUpdates_eq_foldl]
  induction updates generalizing a with
  | nil => exact .refl a
  | cons u updates ih =>
    have hsame := (applyOne_rest a u).2.replicators
    refine (applyOne_surveys h (hupdates u List.mem_cons_self)).trans (ih (hsame ▸ h) ?_)
    intro u' hu' r hr
    exact hupdates u' (List.mem_cons_of_mem u hu') r (hsame ▸ hr)

/-! ## Runs -/

/-- `e` is a live session agent of `c`. -/
def IsSessionAgentOf (a : BevyWorldAdapter F) (c : ClientId) (e : Entity) : Prop :=
  a.world.alive e = true ∧ a.world.has e .sessionAgent = true ∧
    a.world.get e .networkOwner = some c

/-- The workspace `w` is a member of itself. -/
def OwnMember (a : BevyWorldAdapter F) (w : NetworkId) : Prop :=
  ∃ e, a.bimap.Rel w e ∧ a.world.get e .workspaceMembership = some w

/-- The index lists exactly the live members of `w`. -/
def MembersAgree (a : BevyWorldAdapter F) (index : WorkspaceIndex) (w : NetworkId) : Prop :=
  ∀ e, e ∈ index.memberships w ↔
    a.world.alive e = true ∧ a.world.get e .workspaceMembership = some w

/-- The index has a workspace for `c` just if there is a live session agent of `c`, and it is the
workspace of that agent. -/
def ClientAgrees (a : BevyWorldAdapter F) (index : WorkspaceIndex) (c : ClientId) : Prop :=
  ((index.clientWorkspaces c).isSome = true ↔ ∃ e, a.IsSessionAgentOf c e) ∧
    ∀ e, a.IsSessionAgentOf c e →
      ∃ n, a.bimap.Rel n e ∧ index.clientWorkspaces c = a.getEntityWorkspace n

theorem agentOf_eq_some_iff {c : ClientId} :
    a.world.agentOf e = some c ↔ a.IsSessionAgentOf c e := by
  rw [World.agentOf_eq_some]
  exact ⟨fun h => ⟨World.alive_of_has h.1, h⟩, And.right⟩

/-- No update writes a membership, and a client gets a session agent only while it has none. -/
def Op.Careful (a : BevyWorldAdapter F) : Op F → Prop
  | .spawnSessionAgent _ _ _ _ client => ∀ e, ¬ a.IsSessionAgentOf client e
  | .applyUpdates updates => ∀ u ∈ updates, a.SparesMembership u.2
  | _ => True

/-- The index agrees with the components, in an adapter without a hook. -/
structure Surveyed (a : BevyWorldAdapter F) : Prop extends Sound a where
  plain : ∀ r ∈ a.replicators, r.Plain
  hook : a.postSimulateHook = none
  indexed : a.Indexed
  agrees : a.directory.Agrees

namespace Surveyed

variable {a a' : BevyWorldAdapter F}

theorem of_surveys (h : Surveyed a) (hs : Surveys a a') : Surveyed a' where
  toSound := h.toSound.of_moves hs.toMoves
  plain := by
    rw [hs.setup.replicators]
    exact h.plain
  hook := hs.setup.hook.trans h.hook
  indexed := hs.indexed h.indexed
  agrees := h.agrees.steps (hs.surveys h.coherent h.indexed)

theorem members (h : Surveyed a) (w : NetworkId) (e : Entity) :
    e ∈ a.index.memberships w ↔
      a.world.get e .workspaceMembership = some w ∧ ¬ a.bimap.Rel w e := by
  rw [show e ∈ a.index.memberships w ↔ _ from h.agrees.members w e]
  exact and_congr_right fun _ => not_congr BiMap.getByRight_eq_some

theorem membersAgree (h : Surveyed a) {w : NetworkId} (hw : ¬ a.OwnMember w) :
    a.MembersAgree a.index w := by
  intro e
  rw [h.members]
  constructor
  · intro hmember
    exact ⟨Storage.alive_of_get hmember.1, hmember.1⟩
  · intro hmember
    exact ⟨hmember.2, fun hrel => hw ⟨e, hrel, hmember.2⟩⟩

theorem clientAgrees (h : Surveyed a) (c : ClientId) : a.ClientAgrees a.index c := by
  refine ⟨?_, fun e he => ?_⟩
  · rw [show (a.index.clientWorkspaces c).isSome = true ↔ _ from h.agrees.isSome_homes c]
    exact exists_congr fun e => agentOf_eq_some_iff
  · have hagent := agentOf_eq_some_iff.mpr he
    obtain ⟨n, hn⟩ := (agentOf_iff h.coherent).mp hagent
    have hrel : a.bimap.Rel n e := h.coherent.rel_of_isAgent hn
    refine ⟨n, hrel, ?_⟩
    unfold getEntityWorkspace
    rw [BiMap.getByLeft_eq_some.mpr hrel]
    exact h.agrees.home_of_agent hagent

variable [F32 F] (P : Platform F)

theorem run (h : Surveyed a) {op : Op F} (hop : op.Careful a) : Surveyed (op.run P a) := by
  cases op with
  | advanceTick => exact h.of_surveys (.of_eq (advanceTick_moves a) rfl rfl fun _ _ _ => rfl)
  | spawnNetworked => exact h.of_surveys (spawnNetworked_surveys a)
  | spawnNetworkedFor client => exact h.of_surveys (spawnNetworkedFor_surveys a client)
  | spawnKind kind x y rot => exact h.of_surveys (spawnKind_surveys a kind x y rot)
  | spawnKindFor kind x y rot client =>
    exact h.of_surveys (spawnKindFor_surveys a kind x y rot client)
  | spawnSessionAgent kind x y rot client =>
    have hspawn := h.of_surveys (spawnKindFor_surveys a kind x y rot client)
    obtain ⟨hindexed, e, w, hplace, hagent, hdirectory⟩ :=
      spawnSessionAgent_directory a kind x y rot client h.indexed
    have hfree : ∀ e', (a.spawnKindFor kind x y rot client).1.world.agentOf e' ≠ some client :=
      fun e' he' => hop e' (agentOf_eq_some_iff.mp
        (agentOf_of_moves (spawnKindFor_moves a kind x y rot client) h.coherent he'))
    obtain ⟨-, b, e₀, card, hmoves, -, -, -, -, -, hsetup⟩ :=
      spawnSessionAgent_spec a kind x y rot client
    have hall := hmoves.setup.trans hsetup
    refine ⟨h.toSound.spawnSessionAgent kind x y rot client, ?_, hall.hook.trans h.hook, hindexed, ?_⟩
    · show ∀ r ∈ (a.spawnSessionAgent kind x y rot client).1.replicators, r.Plain
      rw [hall.replicators]
      exact h.plain
    · show (a.spawnSessionAgent kind x y rot client).1.directory.Agrees
      rw [hdirectory]
      exact hspawn.agrees.appoint hplace hagent hfree
  | stressTest count rotate => exact h.of_surveys (stressTest_surveys P a count rotate)
  | despawnNetworked n => exact h.of_surveys (despawnNetworked_surveys a n)
  | queueReliableEvent client event =>
    exact h.of_surveys (.of_eq (queueReliableEvent_moves a client event) rfl rfl fun _ _ _ => rfl)
  | clearWorld =>
    obtain ⟨hindexed, hsteps⟩ := clearWorld_directory P h.coherent h.indexed
    obtain ⟨b, -, -, -, hsetup⟩ := clearWorld_spec P a
    refine ⟨h.toSound.clearWorld P, ?_, hsetup.hook.trans h.hook, hindexed, h.agrees.steps hsteps⟩
    show ∀ r ∈ (a.clearWorld P).replicators, r.Plain
    rw [hsetup.replicators]
    exact h.plain
  | applyUpdates updates => exact h.of_surveys (applyUpdates_surveys h.plain hop)
  | simulate =>
    have hbefore := h.of_surveys (beforeHook_surveys P a)
    show Surveyed (a.simulate P)
    rw [simulate_eq]
    unfold runHook
    rw [hbefore.hook]
    exact hbefore
  | extractDeltas =>
    exact h.of_surveys (.of_eq (extractDeltas_moves P a) rfl rfl fun _ _ _ => rfl)
  | extractReliableEvents =>
    exact h.of_surveys (.of_eq (extractReliableEvents_moves a) rfl rfl fun _ _ _ => rfl)
  | postExtract => exact h.of_surveys (.of_eq (postExtract_moves a) rfl rfl fun _ _ _ => rfl)

end Surveyed

theorem Fresh.surveyed (h : Fresh a) : Surveyed a := by
  obtain ⟨hblank, hplain, hbimap, -, hhook, -⟩ := h.spec
  have hindex : a.world.workspaceIndex = some WorkspaceIndex.empty := by
    cases h with
    | new w hw tickRate a hnew rs hrs =>
      unfold BevyWorldAdapter.new at hnew
      split at hnew
      · cases hnew
        rfl
      · cases hnew
    | newWithRng w hw tickRate rng rs hrs => rfl
  have hempty : a.index = WorkspaceIndex.empty := by
    unfold index
    rw [hindex]
    rfl
  have hplace : ∀ e, a.directory.place e = none := fun e =>
    World.get_of_not_alive (hblank.alive e) _
  have hagent : ∀ e, a.directory.agent e = none := fun e =>
    World.agentOf_of_not_alive (hblank.alive e)
  refine ⟨h.sound, hplain, hhook, ?_, ?_, ?_, fun e _ => hplace e, fun e _ => hagent e, ?_⟩
  · unfold Indexed
    rw [hindex]
    rfl
  · intro w e
    show e ∈ a.index.memberships w ↔ _
    rw [hempty, hplace]
    exact ⟨fun hmem => absurd hmem (Finset.notMem_empty e), fun hmem => nomatch hmem.1⟩
  · intro c w
    show a.index.clientWorkspaces c = some w ↔ _
    rw [hempty]
    refine ⟨nofun, ?_⟩
    rintro ⟨e, hc, -⟩
    rw [hagent] at hc
    cases hc
  · intro e e' c hc
    rw [hagent] at hc
    cases hc

variable [F32 F] (P : Platform F)

/-- Every operation is careful when its turn comes. -/
def CarefulRun : BevyWorldAdapter F → List (Op F) → Prop
  | _, [] => True
  | a, op :: ops => op.Careful a ∧ CarefulRun (op.run P a) ops

theorem Surveyed.runOps (h : Surveyed a) {ops : List (Op F)}
    (hops : a.CarefulRun P ops) : Surveyed (a.runOps P ops) := by
  induction ops generalizing a with
  | nil => exact h
  | cons op ops ih => exact ih (h.run P hops.1) hops.2

/-- In every state of every careful run from a fresh adapter the index lists exactly the live members
of each workspace that is not its own member, and of the others all members but the workspace
itself; it has a workspace for a client just if the client has a live session agent, and it is the
workspace of that agent. -/
theorem workspace_index_agrees {a : BevyWorldAdapter F} (h : Fresh a) (ops : List (Op F))
    (hops : a.CarefulRun P ops) :
    let b := a.runOps P ops
    ∃ index, b.world.workspaceIndex = some index ∧
      (∀ w, ¬ b.OwnMember w → b.MembersAgree index w) ∧
      (∀ w e, ¬ b.bimap.Rel w e → (e ∈ index.memberships w ↔
        b.world.alive e = true ∧ b.world.get e .workspaceMembership = some w)) ∧
      ∀ c, b.ClientAgrees index c := by
  have hb := h.surveyed.runOps P hops
  refine ⟨_, hb.indexed.eq_some, fun w => hb.membersAgree, fun w e hrel => ?_, hb.clientAgrees⟩
  rw [hb.members]
  constructor
  · intro hmember
    exact ⟨Storage.alive_of_get hmember.1, hmember.1⟩
  · intro hmember
    exact ⟨hmember.2, hrel⟩

/-! ## Where the index is wrong -/

/-- One byte for a membership: the identifier of the workspace. -/
def membershipDecode : (k : Comp) → Bytes → Option (CompVal ℚ k)
  | .workspaceMembership, [n] => some ⟨n.toNat⟩
  | _, _ => none

def membershipPlatform : Platform ℚ := { rationalPlatform with decode := membershipDecode }

/-- An empty server with the replicators of the platform. -/
def emptyServer : BevyWorldAdapter ℚ :=
  { newWithRng World.new 60 ⟨1, 0⟩ with replicators := platformReplicators membershipPlatform }

theorem emptyServer_fresh : Fresh emptyServer :=
  .newWithRng World.new blank_new 60 ⟨1, 0⟩ _ (platformReplicators_plain membershipPlatform)

instance {a : BevyWorldAdapter F} {c : ClientId} {e : Entity} : Decidable (a.IsSessionAgentOf c e) :=
  inferInstanceAs (Decidable (_ ∧ _ ∧ _))

/-- Client 7 moves its agent to another workspace. -/
def movingOps : List (Op ℚ) :=
  [.spawnSessionAgent 1 0 0 0 ⟨7⟩, .applyUpdates [(⟨7⟩, ⟨⟨1⟩, ⟨131⟩, [9], 0⟩)]]

/-- Client 7 gets two session agents, and the first is despawned. -/
def twiceOps : List (Op ℚ) :=
  [.spawnSessionAgent 1 0 0 0 ⟨7⟩, .spawnSessionAgent 1 0 0 0 ⟨7⟩, .despawnNetworked ⟨1⟩]

/-- The workspace created by the first spawn is alive and its own member, and not in the index. A
client that moves its agent to another workspace is left in the old entry. A client with two session
agents loses its entry with the first of them. -/
theorem master_not_in_index :
    let first := emptyServer.runOps membershipPlatform [.spawnKind 1 0 0 0]
    let moved := emptyServer.runOps membershipPlatform movingOps
    let twice := emptyServer.runOps membershipPlatform twiceOps
    Fresh emptyServer ∧ ¬ first.MembersAgree first.index ⟨2⟩ ∧
      (¬ moved.MembersAgree moved.index ⟨9⟩ ∧ ¬ moved.ClientAgrees moved.index ⟨7⟩) ∧
      ¬ twice.ClientAgrees twice.index ⟨7⟩ := by
  intro first moved twice
  refine ⟨emptyServer_fresh, fun hagree => ?_, ⟨fun hagree => ?_, fun hagree => ?_⟩,
    fun hagree => ?_⟩
  · have hmember := (hagree ⟨0⟩).mpr (by decide +kernel)
    exact absurd hmember (by decide +kernel)
  · have hmember := (hagree ⟨2⟩).mpr (by decide +kernel)
    exact absurd hmember (by decide +kernel)
  · -- the client is still in workspace 2, its agent says 9
    obtain ⟨n, hrel, hsame⟩ := hagree.2 ⟨2⟩ (by decide +kernel)
    have hn : n = ⟨1⟩ := hrel.left_unique (BiMap.getByLeft_eq_some.mp (by decide +kernel))
    rw [hn] at hsame
    exact absurd hsame (by decide +kernel)
  · -- the second agent, entity 3, is alive
    have hentry := hagree.1.mpr ⟨⟨3⟩, by decide +kernel⟩
    exact absurd hentry (by decide +kernel)

/-- The first spawn makes the workspace, its resource and the agent of client 7; the client moves the
agent, time passes, and the workspace itself is despawned. -/
def orphaningOps : List (Op ℚ) :=
  [.spawnSessionAgent 1 0 0 0 ⟨7⟩, .applyUpdates [(⟨7⟩, ⟨⟨1⟩, ⟨1⟩, [3, 4], 0⟩)], .simulate,
    .despawnNetworked ⟨2⟩]

theorem orphaningOps_careful : emptyServer.CarefulRun membershipPlatform orphaningOps := by
  refine ⟨fun e hagent => ?_, fun u hu r hr => ?_, trivial, trivial, trivial⟩
  · exact absurd hagent.1 (Bool.eq_false_iff.mp ((emptyServer_fresh.spec).1.alive e))
  · -- the kind of the update is that of positions
    cases List.mem_singleton.mp hu
    refine ⟨.transform, by decide, ?_⟩
    have hfound : findReplicator (platformReplicators membershipPlatform) ⟨1⟩ =
        some (defaultReplicator membershipPlatform .transform ⟨1⟩) := rfl
    cases hfound.symm.trans hr
    exact defaultReplicator_writesOnly membershipPlatform .transform ⟨1⟩

/-- The agent and the resource are left in the entry of the workspace that is gone. -/
theorem workspace_index_agrees_orphans :
    let b := emptyServer.runOps membershipPlatform orphaningOps
    (Fresh emptyServer ∧ emptyServer.CarefulRun membershipPlatform orphaningOps) ∧
    ¬ b.OwnMember ⟨2⟩ ∧ b.world.get ⟨1⟩ .workspaceMembership = some (⟨2⟩ : NetworkId) ∧
    ∃ index, b.world.workspaceIndex = some index ∧
      (∀ w, ¬ b.OwnMember w → b.MembersAgree index w) ∧
      (∀ w e, ¬ b.bimap.Rel w e → (e ∈ index.memberships w ↔
        b.world.alive e = true ∧ b.world.get e .workspaceMembership = some w)) ∧
      ∀ c, b.ClientAgrees index c := by
  refine ⟨⟨emptyServer_fresh, orphaningOps_careful⟩, ?_, by decide +kernel,
    workspace_index_agrees membershipPlatform emptyServer_fresh orphaningOps orphaningOps_careful⟩
  rintro ⟨e, hrel, -⟩
  exact BiMap.getByLeft_eq_none.mp
    (show (emptyServer.runOps membershipPlatform orphaningOps).bimap.getByLeft ⟨2⟩ = none by
      decide +kernel) e hrel

end BevyWorldAdapter

end Aetheris
