import Aetheris.EcsBevy.Refines

/-!
# What the platform replicators write

Every replicator that `register_platform_components` registers writes at most one component of the
entity it is applied to: a default replicator its own component, the input command replicator the
`LatestInput` slot. From this it follows that the platform replicators are local and leave identity
and ownership alone.
-/

namespace Aetheris

open Ecs

variable {F : Type}

/-! ## Writes -/

/-- Only the component `k` of `e` may differ. -/
structure Writes (w w' : World F) (e : Entity) (k : Comp) : Prop where
  resources : w' = { w with ecs := w'.ecs }
  alive : ∀ e', w'.alive e' = w.alive e'
  next : w'.ecs.next = w.ecs.next
  get : ∀ e' k', e' ≠ e ∨ k' ≠ k → w'.get e' k' = w.get e' k'

namespace Writes

theorem refl (w : World F) (e : Entity) (k : Comp) : Writes w w e k :=
  ⟨rfl, fun _ => rfl, rfl, fun _ _ _ => rfl⟩

theorem insert (w : World F) (e : Entity) (k : Comp) (v : CompVal F k) :
    Writes w (w.insert e [⟨k, v⟩]) e k where
  resources := rfl
  alive e' := World.alive_insert w e e' _
  next := Storage.next_insert _ _ _
  get e' k' h := by
    refine World.get_insert_of_ne w (h.imp_right fun hk c hc => ?_)
    rw [List.mem_singleton.mp hc]
    exact Ne.symm hk

theorem modify (w : World F) (e : Entity) (k : Comp) (f : CompVal F k → CompVal F k) :
    Writes w (w.modify e k f) e k where
  resources := rfl
  alive e' := World.alive_modify w e e' k f
  next := rfl
  get _ _ h := World.get_modify_of_ne w f h

theorem keepsCards {w w' : World F} {e : Entity} {k : Comp} (h : Writes w w' e k)
    (hk : k ∉ identityComps) : BevyWorldAdapter.KeepsCards w w' where
  card := World.card_congr h.alive fun e' _ hk' =>
    h.get e' _ (Or.inr fun heq => hk (heq ▸ hk'))
  next := h.next

end Writes

/-! ## Local replicators -/

/-- The same entities live, with the same owners. -/
structure KeepsOwners (w w' : World F) : Prop where
  alive : ∀ e, w'.alive e = w.alive e
  owner : ∀ e, w'.get e .networkOwner = w.get e .networkOwner
  next : w'.ecs.next = w.ecs.next

/-- `apply` touches only the given entity, and not its owner; an entity that is gone cannot be
touched. -/
structure ComponentReplicator.Local (r : ComponentReplicator F) : Prop where
  keeps : ∀ w e u, KeepsOwners w (r.apply w e u)
  others : ∀ w e u e' k, e' ≠ e → (r.apply w e u).get e' k = w.get e' k
  dead : ∀ w e u, w.alive e = false → r.apply w e u = w

variable {e : Entity} {r : ComponentReplicator F} {w : World F}

/-- A replicator that only ever writes one component, which is not the owner. -/
theorem ComponentReplicator.local_of_writes {k : Comp}
    (hk : k ≠ .networkOwner) (hwrites : ∀ w e u, Writes w (r.apply w e u) e k)
    (hdead : ∀ w e u, w.alive e = false → r.apply w e u = w) : r.Local where
  keeps w e u :=
    ⟨(hwrites w e u).alive, fun e' => (hwrites w e u).get e' _ (Or.inr hk.symm),
      (hwrites w e u).next⟩
  others w e u e' k' he := (hwrites w e u).get e' k' (Or.inl he)
  dead := hdead

/-- Applying an update does nothing or writes component `k` of the entity once. -/
def ComponentReplicator.WritesOnly (r : ComponentReplicator F) (k : Comp) : Prop :=
  ∀ w e u, r.apply w e u = w ∨ (∃ v, r.apply w e u = w.insert e [⟨k, v⟩]) ∨
    ∃ f, r.apply w e u = w.modify e k f

theorem ComponentReplicator.WritesOnly.writes {k : Comp}
    (h : r.WritesOnly k) (w : World F) (e : Entity) (u : ComponentUpdate) :
    Writes w (r.apply w e u) e k := by
  rcases h w e u with hsame | ⟨v, hinsert⟩ | ⟨f, hmodify⟩
  · rw [hsame]
    exact Writes.refl w e k
  · rw [hinsert]
    exact Writes.insert w e k v
  · rw [hmodify]
    exact Writes.modify w e k f

/-- A replicator of a component that has nothing to do with identity. -/
def ComponentReplicator.Plain (r : ComponentReplicator F) : Prop :=
  ∃ k, k ∉ identityComps ∧ r.WritesOnly k

theorem ComponentReplicator.Plain.keepsCards (h : r.Plain)
    (w : World F) (e : Entity) (u : ComponentUpdate) :
    BevyWorldAdapter.KeepsCards w (r.apply w e u) := by
  obtain ⟨k, hk, hwrites⟩ := h
  exact (hwrites.writes w e u).keepsCards hk

/-! ## The two kinds of platform replicator -/

variable (P : Platform F)

/-- A default replicator stores what the payload decodes to. -/
theorem defaultReplicator_apply (k : Comp) (kind : ComponentKind) (w : World F) (e : Entity)
    (u : ComponentUpdate) :
    (defaultReplicator P k kind).apply w e u = w ∨
      ∃ v, tryFrom P k u.payload = some v ∧ w.alive e = true ∧
        (defaultReplicator P k kind).apply w e u = w.insert e [⟨k, v⟩] := by
  dsimp only [defaultReplicator]
  split
  · next v hv =>
    split
    · next halive => exact Or.inr ⟨v, hv, halive, rfl⟩
    · exact Or.inl rfl
  · exact Or.inl rfl

theorem defaultReplicator_writesOnly (k : Comp) (kind : ComponentKind) :
    (defaultReplicator P k kind).WritesOnly k := by
  intro w e u
  rcases defaultReplicator_apply P k kind w e u with hsame | ⟨v, -, -, hinsert⟩
  · exact .inl hsame
  · exact .inr (.inl ⟨v, hinsert⟩)

theorem defaultReplicator_local (k : Comp) (kind : ComponentKind) (hk : k ≠ .networkOwner) :
    (defaultReplicator P k kind).Local := by
  refine ComponentReplicator.local_of_writes hk (defaultReplicator_writesOnly P k kind).writes ?_
  intro w e u hdead
  rcases defaultReplicator_apply P k kind w e u with hsame | ⟨v, -, halive, -⟩
  · exact hsame
  · rw [hdead] at halive
    cases halive

theorem inputCommandReplicator_writesOnly :
    (inputCommandReplicator P).WritesOnly .latestInput := by
  intro w e u
  dsimp only [inputCommandReplicator, applyCommandUpdate]
  split
  · split
    · split
      · split
        · split
          · exact .inr (.inr ⟨_, rfl⟩)
          · exact .inl rfl
        · exact .inr (.inl ⟨_, rfl⟩)
      · exact .inl rfl
    · exact .inl rfl
  · exact .inl rfl

/-- Only session agents with an owner take commands. -/
theorem inputCommandReplicator_gate (h : validateAccessGate w e = false)
    (u : ComponentUpdate) : (inputCommandReplicator P).apply w e u = w := by
  dsimp only [inputCommandReplicator]
  rw [h]
  rfl

theorem inputCommandReplicator_local : (inputCommandReplicator P).Local := by
  refine ComponentReplicator.local_of_writes (by decide)
    (inputCommandReplicator_writesOnly P).writes ?_
  intro w e u hdead
  refine inputCommandReplicator_gate P ?_ u
  have hhas : w.has e .networkOwner = false := by
    show (w.get e .networkOwner).isSome = false
    rw [World.get_of_not_alive hdead]
    rfl
  rw [validateAccessGate, hhas, Bool.false_and]

/-! ## Registration -/

/-- Registering kinds that are all different never panics. -/
theorem foldlM_register (ds registry : List (ComponentDescriptor F))
    (h : ((registry ++ ds).map ComponentDescriptor.kind).Nodup) :
    ds.foldlM ComponentRegistry.register registry = some (registry ++ ds) := by
  induction ds generalizing registry with
  | nil => rw [List.append_nil]; rfl
  | cons d ds ih =>
    have hfresh : registry.any (·.kind = d.kind) = false := by
      rw [List.any_eq_false]
      intro x hx hkind
      rw [List.map_append, List.nodup_append] at h
      exact h.2.2 _ (List.mem_map_of_mem hx) _ (List.mem_map_of_mem List.mem_cons_self)
        (of_decide_eq_true hkind)
    have hregister : ComponentRegistry.register registry d = some (registry ++ [d]) := by
      simp [ComponentRegistry.register, hfresh]
    rw [List.foldlM_cons, hregister]
    have hrest := ih (registry ++ [d]) (by rwa [List.append_assoc, List.singleton_append])
    rw [List.append_assoc, List.singleton_append] at hrest
    exact hrest

/-- The 25 kinds of the platform are all different. -/
theorem registerPlatformComponents_eq :
    registerPlatformComponents P = some (platformDescriptors P) := by
  have hkinds : (platformDescriptors P).map ComponentDescriptor.kind =
      platformKinds.map (fun x => x.2.1) ++ [inputCommandKind] := by
    simp [platformDescriptors, Function.comp_def]
  refine foldlM_register (platformDescriptors P) [] ?_
  rw [List.nil_append, hkinds]
  decide

theorem mem_registerReplicator {r' : ComponentReplicator F} {rs : List (ComponentReplicator F)}
    (h : r' ∈ registerReplicator r rs) : r' = r ∨ r' ∈ rs := by
  induction rs with
  | nil => exact Or.inl (List.mem_singleton.mp h)
  | cons x rs ih =>
    unfold registerReplicator at h
    split at h
    · exact List.mem_cons.mp h
    · split at h
      · exact (List.mem_cons.mp h).imp_right (List.mem_cons_of_mem x)
      · rcases List.mem_cons.mp h with rfl | h
        · exact Or.inr List.mem_cons_self
        · exact (ih h).imp_right (List.mem_cons_of_mem x)

theorem mem_foldl_registerReplicator (ds : List (ComponentDescriptor F))
    (rs : List (ComponentReplicator F))
    (h : r ∈ ds.foldl (fun rs d => registerReplicator d.replicator rs) rs) :
    (∃ d ∈ ds, r = d.replicator) ∨ r ∈ rs := by
  induction ds generalizing rs with
  | nil => exact Or.inr h
  | cons d ds ih =>
    rcases ih _ h with ⟨d', hd', hr⟩ | hmem
    · exact Or.inl ⟨d', List.mem_cons_of_mem _ hd', hr⟩
    · rcases mem_registerReplicator hmem with rfl | hold
      · exact Or.inl ⟨d, List.mem_cons_self, rfl⟩
      · exact Or.inr hold

/-- A platform replicator is the default one of a replicated component or the one for input. -/
theorem mem_platformReplicators (h : r ∈ platformReplicators P) :
    (∃ k kind name, (k, kind, name) ∈ platformKinds ∧ r = defaultReplicator P k kind) ∨
      r = inputCommandReplicator P := by
  unfold platformReplicators at h
  rw [registerPlatformComponents_eq, Option.getD_some] at h
  rcases mem_foldl_registerReplicator _ _ h with ⟨d, hd, rfl⟩ | hnil
  · rcases List.mem_append.mp hd with hdefault | hinput
    · obtain ⟨⟨k, kind, name⟩, hmem, rfl⟩ := List.mem_map.mp hdefault
      exact Or.inl ⟨k, kind, name, hmem, rfl⟩
    · rw [List.mem_singleton.mp hinput]
      exact Or.inr rfl
  · cases hnil

/-- The registered components are not among those that carry identity. -/
theorem not_identity_of_platformKinds {k : Comp} {kind : ComponentKind} {name : String}
    (h : (k, kind, name) ∈ platformKinds) : k ∉ identityComps := by
  have hall : ∀ x ∈ platformKinds, x.1 ∉ identityComps := by decide
  exact hall _ h

/-- An update changes only the entity it names, never its owner, and nothing that is dead. -/
theorem platformReplicators_local : ∀ r ∈ platformReplicators P, r.Local := by
  intro r hr
  rcases mem_platformReplicators P hr with ⟨k, kind, name, hmem, rfl⟩ | rfl
  · refine defaultReplicator_local P k kind ?_
    rintro rfl
    exact not_identity_of_platformKinds hmem (by decide)
  · exact inputCommandReplicator_local P

theorem platformReplicators_plain : ∀ r ∈ platformReplicators P, r.Plain := by
  intro r hr
  rcases mem_platformReplicators P hr with ⟨k, kind, name, hmem, rfl⟩ | rfl
  · exact ⟨k, not_identity_of_platformKinds hmem, defaultReplicator_writesOnly P k kind⟩
  · exact ⟨_, by decide, inputCommandReplicator_writesOnly P⟩

end Aetheris
