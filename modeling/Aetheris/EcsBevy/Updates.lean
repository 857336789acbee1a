import Aetheris.EcsBevy.Growth
import Aetheris.EcsBevy.Rational
import Aetheris.EcsBevy.Replicators

/-!
# Client updates

`apply_updates` keeps two caches: the owners of identifiers, which lives in the adapter, and the last
replicator, which lives for one call. The second is removed first (`applyUpdates_eq_foldl`): what is
left is a plain loop over `applyOne`. The owner cache then agrees with the `NetworkOwner` component
in every reachable adapter, so the loop is the reference that reads the component.
-/

namespace Aetheris

open Ecs Relation

variable {F : Type}

namespace BevyWorldAdapter

/-! ## Without the replicator cache -/

/-- One update, with the replicator looked up in the map. -/
def applyOne (a : BevyWorldAdapter F) (u : ClientId × ComponentUpdate) : BevyWorldAdapter F :=
  match a.bimap.getByLeft u.2.networkId with
  | none => a
  | some e =>
    let (a, isAuthorized) := a.authorize u.1 u.2.networkId e
    if isAuthorized then
      match findReplicator a.replicators u.2.componentKind with
      | some r => { a with world := r.apply a.world e u.2 }
      | none => a
    else a

/-- The cache holds what a lookup would return. -/
def CacheOk (rs : List (ComponentReplicator F)) (cache : ReplicatorCache F) : Prop :=
  ∀ kind, cache.lastKind = some kind → cache.lastReplicator = findReplicator rs kind

theorem resolveReplicator_eq {a : BevyWorldAdapter F} {cache : ReplicatorCache F}
    (h : CacheOk a.replicators cache) (kind : ComponentKind) :
    (a.resolveReplicator cache kind).lastReplicator = findReplicator a.replicators kind ∧
      CacheOk a.replicators (a.resolveReplicator cache kind) := by
  unfold resolveReplicator
  split
  · next hkind => exact ⟨h kind hkind, h⟩
  · refine ⟨rfl, fun kind' hkind' => ?_⟩
    rw [← Option.some.inj hkind']

variable (a : BevyWorldAdapter F)

/-- Nothing but the owner cache depends on the ownership check. -/
theorem authorize_fst (c : ClientId) (n : NetworkId) (e : Entity) :
    (a.authorize c n e).1 = { a with owners := (a.authorize c n e).1.owners } := by
  unfold authorize
  split
  · rfl
  · split <;> rfl

/-- The owner the check goes by: the cached one, else the component. -/
def ownerOnRecord (a : BevyWorldAdapter F) (n : NetworkId) (e : Entity) : Option ClientId :=
  (a.owners n).or (a.world.get e .networkOwner)

theorem authorize_snd (c : ClientId) (n : NetworkId) (e : Entity) :
    (a.authorize c n e).2 = decide (a.ownerOnRecord n e = some c) := by
  unfold authorize ownerOnRecord
  split
  · next owner howner =>
    rw [howner]
    simp
  · next hnone =>
    rw [hnone]
    split
    · next owner howner =>
      rw [howner]
      simp
    · next hnone =>
      rw [hnone]
      simp

theorem applyUpdate_eq {st : BevyWorldAdapter F × ReplicatorCache F}
    (h : CacheOk st.1.replicators st.2) (u : ClientId × ComponentUpdate) :
    (applyUpdate st u).1 = st.1.applyOne u ∧
      CacheOk (applyUpdate st u).1.replicators (applyUpdate st u).2 := by
  obtain ⟨a, cache⟩ := st
  unfold applyUpdate applyOne
  cases a.bimap.getByLeft u.2.networkId with
  | none => exact ⟨rfl, h⟩
  | some e =>
    have hauth := authorize_fst a u.1 u.2.networkId e
    dsimp only at h ⊢
    generalize a.authorize u.1 u.2.networkId e = p at hauth ⊢
    obtain ⟨b, isAuthorized⟩ := p
    dsimp only at hauth ⊢
    have hb : CacheOk b.replicators cache := hauth ▸ h
    cases isAuthorized with
    | false => exact ⟨rfl, hb⟩
    | true =>
      obtain ⟨hlookup, hok⟩ := resolveReplicator_eq hb u.2.componentKind
      simp only [if_true, hlookup]
      cases findReplicator b.replicators u.2.componentKind with
      | some r => exact ⟨rfl, hok⟩
      | none => exact ⟨rfl, hok⟩

/-- The replicator cache is invisible. -/
theorem applyUpdates_eq_foldl (updates : List (ClientId × ComponentUpdate)) :
    a.applyUpdates updates = updates.foldl applyOne a := by
  have hrun : ∀ st : BevyWorldAdapter F × ReplicatorCache F, CacheOk st.1.replicators st.2 →
      (updates.foldl applyUpdate st).1 = updates.foldl applyOne st.1 := by
    induction updates with
    | nil => exact fun _ _ => rfl
    | cons u updates ih =>
      intro st hst
      obtain ⟨hfst, hok⟩ := applyUpdate_eq hst u
      rw [List.foldl_cons, List.foldl_cons, ih _ hok, hfst]
  refine hrun (a, ⟨none, none⟩) fun kind hkind => ?_
  cases hkind

theorem applyUpdates_append (xs ys : List (ClientId × ComponentUpdate)) :
    a.applyUpdates (xs ++ ys) = (a.applyUpdates xs).applyUpdates ys := by
  simp only [applyUpdates_eq_foldl, List.foldl_append]

/-! ## What one update does -/

theorem mem_of_findReplicator {rs : List (ComponentReplicator F)} {kind : ComponentKind}
    {r : ComponentReplicator F} (h : findReplicator rs kind = some r) : r ∈ rs :=
  List.mem_of_find?_eq_some h

/-- Nothing happens to an unknown identifier. Otherwise the check may fill the owner cache, and the
replicator is applied if the sender is the owner on record. -/
inductive ApplyCase (a : BevyWorldAdapter F) (u : ClientId × ComponentUpdate) :
    BevyWorldAdapter F → Prop where
  | unmapped : ApplyCase a u a
  | checked (e : Entity) (hrel : a.bimap.Rel u.2.networkId e) :
      ApplyCase a u (a.authorize u.1 u.2.networkId e).1
  | applied (e : Entity) (hrel : a.bimap.Rel u.2.networkId e)
      (howner : a.ownerOnRecord u.2.networkId e = some u.1) (r : ComponentReplicator F)
      (hr : findReplicator a.replicators u.2.componentKind = some r) :
      ApplyCase a u { (a.authorize u.1 u.2.networkId e).1 with world := r.apply a.world e u.2 }

theorem authorize_world (c : ClientId) (n : NetworkId) (e : Entity) :
    (a.authorize c n e).1.world = a.world := by
  rw [authorize_fst]

theorem authorize_replicators (c : ClientId) (n : NetworkId)
    (e : Entity) : (a.authorize c n e).1.replicators = a.replicators := by
  rw [authorize_fst]

theorem applyOne_cases (u : ClientId × ComponentUpdate) : ApplyCase a u (a.applyOne u) := by
  unfold applyOne
  split
  · exact .unmapped
  · next e he =>
    have hrel := BiMap.getByLeft_eq_some.mp he
    dsimp only
    split
    · next hok =>
      have howner : a.ownerOnRecord u.2.networkId e = some u.1 :=
        of_decide_eq_true ((authorize_snd a u.1 u.2.networkId e).symm.trans hok)
      split
      · next r hr =>
        rw [authorize_replicators] at hr
        rw [authorize_world]
        exact .applied e hrel howner r hr
      · exact .checked e hrel
    · exact .checked e hrel

/-! ## Discreet adapters -/

/-- The ownership check at most copies the owner of a live entity into the cache. -/
theorem authorize_moves {a : BevyWorldAdapter F} {n : NetworkId} {e : Entity} (c : ClientId)
    (hrel : a.bimap.Rel n e) : Moves a (a.authorize c n e).1 := by
  unfold authorize
  split
  · exact Moves.refl a
  · split
    · next owner howner =>
      have halive : a.world.alive e = true :=
        World.alive_of_has (Option.isSome_iff_exists.mpr ⟨owner, howner⟩)
      refine Moves.of_step (fun m _ _ => ?_) ⟨rfl, rfl, rfl⟩
      exact .cacheOwner a.roster n e owner _ hrel (World.card_of_alive halive) howner
    · exact Moves.refl a

theorem applyOne_moves {a : BevyWorldAdapter F} (h : Discreet a)
    (u : ClientId × ComponentUpdate) : Moves a (a.applyOne u) := by
  have hcase := applyOne_cases a u
  generalize a.applyOne u = b at hcase ⊢
  cases hcase with
  | unmapped => exact Moves.refl a
  | checked e hrel => exact authorize_moves u.1 hrel
  | applied e hrel howner r hr =>
    have hkeeps := h.replicators r (mem_of_findReplicator hr) a.world e u.2
    rw [← authorize_world a u.1 u.2.networkId e] at hkeeps ⊢
    exact (authorize_moves u.1 hrel).trans (Moves.of_keepsCards _ hkeeps)

theorem applyUpdates_moves {a : BevyWorldAdapter F} (h : Discreet a)
    (updates : List (ClientId × ComponentUpdate)) : Moves a (a.applyUpdates updates) := by
  rw [applyUpdates_eq_foldl]
  induction updates generalizing a with
  | nil => exact Moves.refl a
  | cons u updates ih =>
    have hone := applyOne_moves h u
    exact hone.trans (ih (h.of_setup hone.setup))

/-! ## The owner cache -/

/-- The owner cache agrees with the components, and the code from outside respects owners. -/
structure Owned (a : BevyWorldAdapter F) : Prop where
  bounded : a.roster.Bounded
  cached : a.roster.Cached
  replicators : ∀ r ∈ a.replicators, r.Local
  hook : ∀ f, a.postSimulateHook = some f → ∀ w, KeepsOwners w (f w)

namespace Owned

variable {a a' : BevyWorldAdapter F} {e : Entity} {n : NetworkId}

theorem of_roster (h : Owned a) (hs : SameSetup a a')
    (hb : a'.roster.Bounded) (hc : a'.roster.Cached) : Owned a' :=
  ⟨hb, hc, hs.replicators ▸ h.replicators, hs.hook ▸ h.hook⟩

theorem of_moves (h : Owned a) (hm : Moves a a') : Owned a' := by
  have hsteps := hm.steps 0 (Nat.zero_le _) h.bounded
  exact h.of_roster hm.setup (Roster.bounded_steps hsteps h.bounded)
    (Roster.cached_steps hsteps h.bounded h.cached)

theorem of_keepsOwners (h : Owned a) {w : World F}
    (hk : KeepsOwners a.world w) : Owned { a with world := w } := by
  have hcard : ∀ e, w.card e ≠ none ↔ a.world.card e ≠ none := by
    intro e
    rw [ne_eq, ne_eq, World.card_eq_none, World.card_eq_none, hk.alive]
  refine h.of_roster ⟨rfl, rfl, rfl⟩ ⟨h.bounded.ids, ?_, ?_⟩ ?_
  · show ∀ n e, a.bimap.Rel n e → e.id < w.ecs.next
    rw [hk.next]
    exact h.bounded.ents
  · show ∀ e, w.card e ≠ none → e.id < w.ecs.next
    rw [hk.next]
    exact fun e he => h.bounded.cards e ((hcard e).mp he)
  · intro n c hn
    obtain ⟨e, hrel, howner⟩ := h.cached n c hn
    refine ⟨e, hrel, fun card (hcard' : w.card e = some card) => ?_⟩
    have halive := alive_of_card hcard'
    have hold := howner _ (World.card_of_alive (hk.alive e ▸ halive))
    rw [World.card_of_alive halive] at hcard'
    rw [← Option.some.inj hcard']
    exact (hk.owner e).trans hold

/-- A cached owner is the owner of the entity, as long as it lives. -/
theorem owner_of_cached (h : Owned a)
    {c : ClientId} (hrel : a.bimap.Rel n e) (hn : a.owners n = some c)
    (halive : a.world.alive e = true) : a.world.get e .networkOwner = some c := by
  obtain ⟨e', hrel', howner⟩ := h.cached n c hn
  rw [hrel.right_unique hrel']
  exact howner _ (World.card_of_alive (hrel.right_unique hrel' ▸ halive))

theorem ownerOnRecord_eq (h : Owned a) (hrel : a.bimap.Rel n e) (halive : a.world.alive e = true) :
    a.ownerOnRecord n e = a.world.get e .networkOwner := by
  unfold ownerOnRecord
  cases hn : a.owners n with
  | none => rw [Option.none_or]
  | some c => rw [Option.some_or, h.owner_of_cached hrel hn halive]

end Owned

/-! ## The reference -/

/-- One update judged by the component alone. -/
def applyReference (bimap : BiMap NetworkId Entity) (replicators : List (ComponentReplicator F))
    (w : World F) (u : ClientId × ComponentUpdate) : World F :=
  match bimap.getByLeft u.2.networkId with
  | none => w
  | some e =>
    if (w.get e .networkOwner : Option ClientId) = some u.1 then
      match findReplicator replicators u.2.componentKind with
      | some r => r.apply w e u.2
      | none => w
    else w

theorem applyOne_world {a : BevyWorldAdapter F} (h : Owned a) (u : ClientId × ComponentUpdate) :
    (a.applyOne u).world = applyReference a.bimap a.replicators a.world u := by
  unfold applyOne applyReference
  cases he : a.bimap.getByLeft u.2.networkId with
  | none => rfl
  | some e =>
    have hfst := authorize_fst a u.1 u.2.networkId e
    have hsnd := authorize_snd a u.1 u.2.networkId e
    have hrecord := h.ownerOnRecord_eq (BiMap.getByLeft_eq_some.mp he)
    dsimp only
    generalize a.authorize u.1 u.2.networkId e = p at hfst hsnd ⊢
    rw [hfst]
    dsimp only
    cases halive : a.world.alive e with
    | true =>
      rw [hsnd, hrecord halive]
      by_cases howner : (a.world.get e .networkOwner : Option ClientId) = some u.1
      · simp only [howner, decide_true, if_true]
        split <;> rfl
      · simp only [howner, decide_false, Bool.false_eq_true, if_false]
    | false =>
      -- the cache may still name an owner, but then there is nothing to apply the update to
      have hskip : ¬ (a.world.get e .networkOwner : Option ClientId) = some u.1 := by
        rw [World.get_of_not_alive halive]
        exact nofun
      rw [if_neg hskip]
      split
      · split
        · next r hr => exact (h.replicators r (mem_of_findReplicator hr)).dead _ _ _ halive
        · rfl
      · rfl

variable {bimap : BiMap NetworkId Entity} {replicators : List (ComponentReplicator F)}

/-- Applying one update touches only a mapped entity of the sender. -/
theorem applyReference_spec (h : ∀ r ∈ replicators, r.Local) (w : World F)
    (u : ClientId × ComponentUpdate) :
    KeepsOwners w (applyReference bimap replicators w u) ∧
      ∀ e k, (applyReference bimap replicators w u).get e k ≠ w.get e k →
        bimap.Rel u.2.networkId e ∧ w.get e .networkOwner = some u.1 := by
  have hsame : KeepsOwners w w ∧ ∀ e k, w.get e k ≠ w.get e k →
      bimap.Rel u.2.networkId e ∧ w.get e .networkOwner = some u.1 :=
    ⟨⟨fun _ => rfl, fun _ => rfl, rfl⟩, fun _ _ hne => absurd rfl hne⟩
  unfold applyReference
  split
  · exact hsame
  · next e he =>
    split
    · next howner =>
      split
      · next r hr =>
        have hlocal := h r (mem_of_findReplicator hr)
        refine ⟨hlocal.keeps w e u.2, fun e' k hne => ?_⟩
        have heq : e' = e := by
          by_contra hdiff
          exact hne (hlocal.others w e u.2 e' k hdiff)
        rw [heq]
        exact ⟨BiMap.getByLeft_eq_some.mp he, howner⟩
      · exact hsame
    · exact hsame

/-- What `applyOne` leaves alone. -/
theorem applyOne_rest (a : BevyWorldAdapter F) (u : ClientId × ComponentUpdate) :
    (a.applyOne u).bimap = a.bimap ∧ SameSetup a (a.applyOne u) := by
  have hcase := applyOne_cases a u
  generalize a.applyOne u = b at hcase ⊢
  cases hcase with
  | unmapped => exact ⟨rfl, rfl, rfl, rfl⟩
  | checked e hrel =>
    rw [authorize_fst]
    exact ⟨rfl, rfl, rfl, rfl⟩
  | applied e hrel howner r hr =>
    rw [authorize_fst]
    exact ⟨rfl, rfl, rfl, rfl⟩

theorem applyUpdates_bimap (a : BevyWorldAdapter F)
    (updates : List (ClientId × ComponentUpdate)) : (a.applyUpdates updates).bimap = a.bimap := by
  rw [applyUpdates_eq_foldl]
  induction updates generalizing a with
  | nil => rfl
  | cons u updates ih => exact (ih (a.applyOne u)).trans (applyOne_rest a u).1

namespace Owned

variable {a : BevyWorldAdapter F}

theorem applyOne (h : Owned a) (u : ClientId × ComponentUpdate) : Owned (a.applyOne u) := by
  have hcase := applyOne_cases a u
  generalize a.applyOne u = b at hcase ⊢
  cases hcase with
  | unmapped => exact h
  | checked e hrel => exact h.of_moves (authorize_moves u.1 hrel)
  | applied e hrel howner r hr =>
    have hkeeps := (h.replicators r (mem_of_findReplicator hr)).keeps a.world e u.2
    rw [← authorize_world a u.1 u.2.networkId e] at hkeeps ⊢
    exact (h.of_moves (authorize_moves u.1 hrel)).of_keepsOwners hkeeps

theorem applyUpdates (h : Owned a)
    (updates : List (ClientId × ComponentUpdate)) : Owned (a.applyUpdates updates) := by
  rw [applyUpdates_eq_foldl]
  induction updates generalizing a with
  | nil => exact h
  | cons u updates ih => exact ih (h.applyOne u)

/-- The loop is the reference. -/
theorem applyUpdates_world (h : Owned a) (updates : List (ClientId × ComponentUpdate)) :
    (a.applyUpdates updates).world =
      updates.foldl (applyReference a.bimap a.replicators) a.world := by
  rw [applyUpdates_eq_foldl]
  induction updates generalizing a with
  | nil => rfl
  | cons u updates ih =>
    rw [List.foldl_cons, List.foldl_cons, ih (h.applyOne u), (applyOne_rest a u).1,
      (applyOne_rest a u).2.replicators, applyOne_world h]

end Owned

/-- The reference changes components only on entities of a sender. -/
theorem foldl_applyReference_spec (h : ∀ r ∈ replicators, r.Local)
    (updates : List (ClientId × ComponentUpdate)) (w : World F) (e : Entity) (k : Comp)
    (hne : (updates.foldl (applyReference bimap replicators) w).get e k ≠ w.get e k) :
    ∃ u ∈ updates, bimap.Rel u.2.networkId e ∧ w.get e .networkOwner = some u.1 := by
  induction updates generalizing w with
  | nil => exact absurd rfl hne
  | cons u updates ih =>
    obtain ⟨hkeeps, hspec⟩ := applyReference_spec h w u
    by_cases hfirst : (applyReference bimap replicators w u).get e k = w.get e k
    · rw [List.foldl_cons, ← hfirst] at hne
      obtain ⟨u', hmem, hrel, howner⟩ := ih _ hne
      exact ⟨u', List.mem_cons_of_mem _ hmem, hrel, (hkeeps.owner e).symm.trans howner⟩
    · exact ⟨u, List.mem_cons_self, hspec e k hfirst⟩

/-! ## Reachable adapters -/

/-- The operations of an adapter in use. -/
inductive Op (F : Type) where
  | advanceTick
  | spawnNetworked
  | spawnNetworkedFor (client : ClientId)
  | spawnKind (kind : UInt16) (x y rot : F)
  | spawnKindFor (kind : UInt16) (x y rot : F) (client : ClientId)
  | spawnSessionAgent (kind : UInt16) (x y rot : F) (client : ClientId)
  | stressTest (count : UInt16) (rotate : Bool)
  | despawnNetworked (n : NetworkId)
  | queueReliableEvent (client : Option ClientId) (event : PlatformEvent)
  | clearWorld
  | applyUpdates (updates : List (ClientId × ComponentUpdate))
  | simulate
  | extractDeltas
  | extractReliableEvents
  | postExtract

variable [F32 F] (P : Platform F)

def Op.run (a : BevyWorldAdapter F) : Op F → BevyWorldAdapter F
  | .advanceTick => a.advanceTick
  | .spawnNetworked => a.spawnNetworked.1
  | .spawnNetworkedFor client => (a.spawnNetworkedFor client).1
  | .spawnKind kind x y rot => (a.spawnKind kind x y rot).1
  | .spawnKindFor kind x y rot client => (a.spawnKindFor kind x y rot client).1
  | .spawnSessionAgent kind x y rot client => (a.spawnSessionAgent kind x y rot client).1
  | .stressTest count rotate => a.stressTest P count rotate
  | .despawnNetworked n => (a.despawnNetworked n).1
  | .queueReliableEvent client event => a.queueReliableEvent client event
  | .clearWorld => a.clearWorld P
  | .applyUpdates updates => a.applyUpdates updates
  | .simulate => a.simulate P
  | .extractDeltas => (a.extractDeltas P).1
  | .extractReliableEvents => a.extractReliableEvents.1
  | .postExtract => a.postExtract

/-- The operations that take roster steps only: a session agent is marked too, and a clear starts the
identifiers again. -/
def Op.IsMove : Op F → Prop
  | .spawnSessionAgent .. | .clearWorld => False
  | _ => True

theorem Op.moves {a : BevyWorldAdapter F} (h : Discreet a) {op : Op F} (hop : op.IsMove) :
    Moves a (op.run P a) := by
  cases op with
  | advanceTick => exact advanceTick_moves a
  | spawnNetworked => exact spawnNetworked_moves a
  | spawnNetworkedFor client => exact spawnNetworkedFor_moves a client
  | spawnKind kind x y rot => exact spawnKind_moves a kind x y rot
  | spawnKindFor kind x y rot client => exact spawnKindFor_moves a kind x y rot client
  | spawnSessionAgent => exact hop.elim
  | stressTest count rotate => exact (stressTest_grows P a count rotate).toMoves
  | despawnNetworked n => exact despawnNetworked_moves a n
  | queueReliableEvent client event => exact queueReliableEvent_moves a client event
  | clearWorld => exact hop.elim
  | applyUpdates updates => exact applyUpdates_moves h updates
  | simulate => exact simulate_moves P h
  | extractDeltas => exact extractDeltas_moves P a
  | extractReliableEvents => exact extractReliableEvents_moves a
  | postExtract => exact postExtract_moves a

theorem Op.setup {a : BevyWorldAdapter F} (h : Discreet a) (op : Op F) :
    SameSetup a (op.run P a) := by
  cases op with
  | spawnSessionAgent kind x y rot client =>
    obtain ⟨-, b, -, -, hmoves, -, -, -, -, -, hsetup⟩ :=
      spawnSessionAgent_spec a kind x y rot client
    exact hmoves.setup.trans hsetup
  | clearWorld =>
    obtain ⟨-, -, -, -, hsetup⟩ := clearWorld_spec P a
    exact hsetup
  | _ =>
    refine Moves.setup (Op.moves P h ?_)
    trivial

/-- Built by a constructor, set up with local replicators and a hook that keeps owners, and then
used in any way. -/
inductive Reachable : BevyWorldAdapter F → Prop where
  | new (w : World F) (tickRate : UInt64) (a : BevyWorldAdapter F)
      (h : BevyWorldAdapter.new w tickRate = some a) : Reachable a
  | newWithRng (w : World F) (tickRate : UInt64) (rng : DeterministicRng) :
      Reachable (newWithRng w tickRate rng)
  | addReplicator (a : BevyWorldAdapter F) (h : Reachable a) (r : ComponentReplicator F)
      (hr : r.Local) : Reachable (a.addReplicator r)
  | setPostSimulateHook (a : BevyWorldAdapter F) (h : Reachable a) (f : World F → World F)
      (hf : ∀ w, KeepsOwners w (f w)) : Reachable (a.setPostSimulateHook f)
  | run (a : BevyWorldAdapter F) (h : Reachable a) (op : Op F) : Reachable (op.run P a)

omit [F32 F] in
theorem Owned.fresh {a : BevyWorldAdapter F} (hbimap : a.bimap = BiMap.empty)
    (howners : a.owners = fun _ => none) (hrep : a.replicators = [])
    (hhook : a.postSimulateHook = none) : Owned a := by
  refine ⟨⟨?_, ?_, ?_⟩, ?_, ?_, ?_⟩
  · intro n e hrel
    exact absurd (hbimap ▸ hrel) (BiMap.not_rel_empty n e)
  · intro n e hrel
    exact absurd (hbimap ▸ hrel) (BiMap.not_rel_empty n e)
  · intro e he
    obtain ⟨card, hcard⟩ := Option.ne_none_iff_exists'.mp he
    exact Storage.lt_next_of_alive (alive_of_card hcard)
  · intro n c hn
    rw [show a.roster.owners = fun _ => none from howners] at hn
    cases hn
  · rw [hrep]
    simp
  · rw [hhook]
    exact nofun

theorem Owned.run {a : BevyWorldAdapter F} (h : Owned a) (op : Op F) : Owned (op.run P a) := by
  cases op with
  | advanceTick => exact h.of_moves (advanceTick_moves a)
  | spawnNetworked => exact h.of_moves (spawnNetworked_moves a)
  | spawnNetworkedFor client => exact h.of_moves (spawnNetworkedFor_moves a client)
  | spawnKind kind x y rot => exact h.of_moves (spawnKind_moves a kind x y rot)
  | spawnKindFor kind x y rot client => exact h.of_moves (spawnKindFor_moves a kind x y rot client)
  | spawnSessionAgent kind x y rot client =>
    obtain ⟨-, b, e, card, hmoves, -, hcard, -, -, hroster, hsetup⟩ :=
      spawnSessionAgent_spec a kind x y rot client
    have hb := h.of_moves hmoves
    refine hb.of_roster hsetup ?_ ?_
    · rw [Op.run, hroster]
      exact Roster.bounded_mark hb.bounded hcard
    · rw [Op.run, hroster]
      exact Roster.cached_mark hb.cached hcard
  | stressTest count rotate => exact h.of_moves (stressTest_grows P a count rotate).toMoves
  | despawnNetworked n => exact h.of_moves (despawnNetworked_moves a n)
  | queueReliableEvent client event => exact h.of_moves (queueReliableEvent_moves a client event)
  | clearWorld =>
    obtain ⟨b, hmoves, hempty, hroster, hsetup⟩ := clearWorld_spec P a
    have hb := h.of_moves hmoves
    refine h.of_roster hsetup ?_ ?_
    · rw [Op.run, hroster]
      exact Roster.bounded_restart hempty _ hb.bounded
    · rw [Op.run, hroster]
      exact hb.cached
  | applyUpdates updates => exact h.applyUpdates updates
  | simulate =>
    have howned := h.of_moves (beforeHook_moves P a)
    rw [Op.run, simulate_eq]
    unfold runHook
    split
    · next f hf => exact howned.of_keepsOwners (howned.hook f hf _)
    · exact howned
  | extractDeltas => exact h.of_moves (extractDeltas_moves P a)
  | extractReliableEvents => exact h.of_moves (extractReliableEvents_moves a)
  | postExtract => exact h.of_moves (postExtract_moves a)

theorem Reachable.owned {a : BevyWorldAdapter F} (h : Reachable P a) : Owned a := by
  induction h with
  | new w tickRate a h =>
    unfold BevyWorldAdapter.new at h
    split at h
    · obtain rfl := Option.some.inj h
      exact Owned.fresh rfl rfl rfl rfl
    · cases h
  | newWithRng w tickRate rng => exact Owned.fresh rfl rfl rfl rfl
  | addReplicator a _ r hr ih =>
    refine ⟨ih.bounded, ih.cached, fun r' hr' => ?_, ih.hook⟩
    rcases mem_registerReplicator hr' with rfl | hold
    · exact hr
    · exact ih.replicators r' hold
  | setPostSimulateHook a _ f hf ih =>
    refine ⟨ih.bounded, ih.cached, ih.replicators, fun g hg w => ?_⟩
    rw [← Option.some.inj hg]
    exact hf w
  | run a _ op ih => exact ih.run P op

/-- In a reachable adapter the two caches are invisible: the world becomes what the reference makes
of it, only entities of a sender change, and a batch may be cut anywhere. -/
theorem applyUpdates_eq_reference {a : BevyWorldAdapter F} (h : Reachable P a)
    (updates : List (ClientId × ComponentUpdate)) :
    (a.applyUpdates updates).world =
        updates.foldl (applyReference a.bimap a.replicators) a.world ∧
      (∀ e k, (a.applyUpdates updates).world.get e k ≠ a.world.get e k →
        ∃ u ∈ updates, a.bimap.Rel u.2.networkId e ∧ a.world.get e .networkOwner = some u.1) ∧
      ∀ xs ys, a.applyUpdates (xs ++ ys) = (a.applyUpdates xs).applyUpdates ys := by
  have howned := h.owned
  have hworld := howned.applyUpdates_world updates
  refine ⟨hworld, fun e k hne => ?_, applyUpdates_append a⟩
  rw [hworld] at hne
  exact foldl_applyReference_spec howned.replicators updates a.world e k hne

/-- An adapter with one replicator and one entity, owned by client 7. -/
def ownedAdapter : BevyWorldAdapter ℚ :=
  (((newWithRng World.new 60 ⟨1, 0⟩).addReplicator
    (defaultReplicator rationalPlatform .transform ⟨1⟩)).spawnNetworkedFor ⟨7⟩).1

/-- Client 7 moves the entity, then client 8 tries to. -/
def moveUpdates : List (ClientId × ComponentUpdate) :=
  [(⟨7⟩, ⟨⟨1⟩, ⟨1⟩, [3, 4], 0⟩), (⟨8⟩, ⟨⟨1⟩, ⟨1⟩, [9, 9], 0⟩)]

theorem applyUpdates_eq_reference_move :
    ((ownedAdapter.applyUpdates moveUpdates).world =
        moveUpdates.foldl (applyReference ownedAdapter.bimap ownedAdapter.replicators)
          ownedAdapter.world ∧
      (∀ e k, (ownedAdapter.applyUpdates moveUpdates).world.get e k ≠ ownedAdapter.world.get e k →
        ∃ u ∈ moveUpdates, ownedAdapter.bimap.Rel u.2.networkId e ∧
          ownedAdapter.world.get e .networkOwner = some u.1) ∧
      ∀ xs ys, ownedAdapter.applyUpdates (xs ++ ys) =
        (ownedAdapter.applyUpdates xs).applyUpdates ys) ∧
    ((ownedAdapter.applyUpdates moveUpdates).world.get ⟨0⟩ .transform).map Transform.x = some 3 :=
  ⟨applyUpdates_eq_reference rationalPlatform
    (Reachable.run _ (Reachable.addReplicator _ (Reachable.newWithRng _ _ _) _
      (defaultReplicator_local rationalPlatform _ _ (by decide))) (.spawnNetworkedFor ⟨7⟩))
    moveUpdates, by decide +kernel⟩

end BevyWorldAdapter

end Aetheris
