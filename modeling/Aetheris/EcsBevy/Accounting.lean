import Aetheris.EcsBevy.PayloadFlow

/-!
# The accounts of one extraction

`process_extraction` validates all beams against one snapshot and then executes the transfers one
after another, so several agents may drain a resource that none of them left empty when it was
looked at. Nothing is assumed of the world: beams may point at themselves, stores may be over their
capacity, and any entity may carry any of the components.

* `extractionPlan` is what the validation decides; `mem_switchedOff` says for which beams it is the
  end, and `mem_transfers` what is known of a transfer when it starts.
* A transfer moves payload between a resource and a store that aims at it, so the two together hold
  the same before and after (`executeTransfers_circle`).
-/

namespace Aetheris

open Ecs

variable {F : Type}

/-- A pass that appends to two lists, for each element what it depends on. -/
theorem foldl_append_pair {α β γ : Type} {f : List β × List γ → α → List β × List γ}
    {g : α → List β} {h : α → List γ} (hf : ∀ acc x, f acc x = (acc.1 ++ g x, acc.2 ++ h x))
    (l : List α) (acc : List β × List γ) :
    l.foldl f acc = (acc.1 ++ l.flatMap g, acc.2 ++ l.flatMap h) := by
  induction l generalizing acc with
  | nil => simp
  | cons x l ih =>
    rw [List.foldl_cons, ih, hf]
    simp

/-! ## What the validation decides -/

section Plan

/-- The entity at which the beam of `e` is aimed. -/
def beamAim (w : World F) (bimap : BiMap NetworkId Entity) (e : Entity) : Option Entity :=
  (w.get e .extractionBeam).bind fun beam : ExtractionBeam F => beam.target.bind bimap.getByLeft

/-- What makes an active beam end. -/
def BeamFails [F32 F] (w : World F) (bimap : BiMap NetworkId Entity) (beam : ExtractionBeam F)
    (transform : Transform F) (store : DataStore) : Prop :=
  -- no target, or one that is not networked
  beam.target = none ∨ (∃ n, beam.target = some n ∧ bimap.getByLeft n = none) ∨
  -- no resource with a transform
  (∃ n t, beam.target = some n ∧ bimap.getByLeft n = some t ∧
    (w.get t .resource = none ∨ w.get t .transform = none)) ∨
  -- out of range
  (∃ n t, ∃ at_ : Transform F, beam.target = some n ∧ bimap.getByLeft n = some t ∧
    w.get t .transform = some at_ ∧
    beam.extractionRange * beam.extractionRange < distSq at_ transform) ∨
  -- the store is full
  store.capacity ≤ store.payloadCount

/-- The beam of `e` is active, `e` can extract, and the beam fails. -/
def SwitchedOff [F32 F] (w : World F) (bimap : BiMap NetworkId Entity) (e : Entity)
    (beam : ExtractionBeam F) : Prop :=
  beam.active = true ∧ ∃ transform store, w.get e .transform = some transform ∧
    w.get e .dataStore = some store ∧ BeamFails w bimap beam transform store

/-- The beams of one snapshot: the attempts, and the agents whose target is unknown. -/
def extractionAttempts (w : World F) (bimap : BiMap NetworkId Entity) :
    List (ExtractionAttempt F) × List Entity :=
  (w.query [.extractionBeam, .transform, .dataStore]).foldl (collectAttempt w bimap) ([], [])

/-- The transfers to execute, and the agents whose beams end. -/
def extractionPlan [F32 F] (w : World F) (bimap : BiMap NetworkId Entity) :
    List Transfer × List Entity :=
  (extractionAttempts w bimap).1.foldl (validateAttempt w) ([], (extractionAttempts w bimap).2)

theorem afterTransfers_eq [F32 F] (w : World F) (bimap : BiMap NetworkId Entity) :
    afterTransfers w bimap = (extractionPlan w bimap).1.foldl executeTransfer
      ((extractionPlan w bimap).2.foldl disableBeam w) := rfl

variable {w : World F} {bimap : BiMap NetworkId Entity}

theorem collectAttempt_append (acc : List (ExtractionAttempt F) × List Entity) (e : Entity) :
    collectAttempt w bimap acc e = (acc.1 ++ (collectAttempt w bimap ([], []) e).1,
      acc.2 ++ (collectAttempt w bimap ([], []) e).2) := by
  unfold collectAttempt
  split
  · dsimp only
    split
    · split <;> simp
    · simp
  · simp

theorem validateAttempt_append [F32 F] (acc : List Transfer × List Entity) (a : ExtractionAttempt F) :
    validateAttempt w acc a = (acc.1 ++ (validateAttempt w ([], []) a).1,
      acc.2 ++ (validateAttempt w ([], []) a).2) := by
  unfold validateAttempt
  split
  · dsimp only
    split_ifs <;> simp
  · simp

variable {a : ExtractionAttempt F} {beam : ExtractionBeam F} {e : Entity} {store : DataStore}
  {t : Transfer} {transform : Transform F}

/-- An attempt holds what was read from its agent. -/
theorem mem_attempts (h : a ∈ (extractionAttempts w bimap).1) :
    w.get a.agent .extractionBeam = some a.beam ∧ w.get a.agent .transform = some a.transform ∧
      w.get a.agent .dataStore = some a.store ∧ a.beam.active = true ∧
      a.beam.target.bind bimap.getByLeft = some a.target := by
  unfold extractionAttempts at h
  rw [foldl_append_pair collectAttempt_append] at h
  obtain ⟨e, -, ha⟩ := List.mem_flatMap.mp h
  unfold collectAttempt at ha
  split at ha
  · next beam transform store hbeam htransform hstore =>
    dsimp only at ha
    split at ha
    · next hactive =>
      split at ha
      · next target htarget =>
        obtain rfl := List.mem_singleton.mp ha
        exact ⟨hbeam, htransform, hstore, hactive, htarget⟩
      · cases ha
    · cases ha
  · cases ha

variable (bimap) in
/-- An agent with an active beam, a transform and a store is visited, and read. -/
theorem read_agent (hbeam : w.get e .extractionBeam = some beam)
    (htransform : w.get e .transform = some transform) (hstore : w.get e .dataStore = some store)
    (hactive : beam.active = true) :
    e ∈ w.query [.extractionBeam, .transform, .dataStore] ∧
      collectAttempt w bimap ([], []) e =
        match beam.target.bind bimap.getByLeft with
        | some target => ([⟨e, target, transform, store, beam⟩], [])
        | none => ([], [e]) := by
  constructor
  · refine World.mem_query.mpr ⟨Storage.alive_of_get hbeam, ?_⟩
    intro k hk
    have hhas : k = .extractionBeam ∨ k = .transform ∨ k = .dataStore := by simpa using hk
    rcases hhas with rfl | rfl | rfl
    · exact Option.isSome_iff_exists.mpr ⟨_, hbeam⟩
    · exact Option.isSome_iff_exists.mpr ⟨_, htransform⟩
    · exact Option.isSome_iff_exists.mpr ⟨_, hstore⟩
  · unfold collectAttempt
    simp only [hbeam, htransform, hstore, hactive, if_true]
    cases beam.target.bind bimap.getByLeft <;> rfl

theorem mem_attempts_of {target : Entity} (hbeam : w.get e .extractionBeam = some beam)
    (htransform : w.get e .transform = some transform) (hstore : w.get e .dataStore = some store)
    (hactive : beam.active = true) (htarget : beam.target.bind bimap.getByLeft = some target) :
    ⟨e, target, transform, store, beam⟩ ∈ (extractionAttempts w bimap).1 := by
  obtain ⟨hquery, hread⟩ := read_agent bimap hbeam htransform hstore hactive
  unfold extractionAttempts
  rw [foldl_append_pair collectAttempt_append]
  refine List.mem_flatMap.mpr ⟨e, hquery, ?_⟩
  rw [hread, htarget]
  exact List.mem_singleton_self _

theorem mem_unmapped : e ∈ (extractionAttempts w bimap).2 ↔
    ∃ (beam : ExtractionBeam F) (transform : Transform F) (store : DataStore),
      w.get e .extractionBeam = some beam ∧ w.get e .transform = some transform ∧
      w.get e .dataStore = some store ∧ beam.active = true ∧
      beam.target.bind bimap.getByLeft = none := by
  unfold extractionAttempts
  rw [foldl_append_pair collectAttempt_append]
  show e ∈ List.flatMap _ _ ↔ _
  rw [List.mem_flatMap]
  constructor
  · rintro ⟨e', -, he⟩
    unfold collectAttempt at he
    split at he
    · next beam transform store hbeam htransform hstore =>
      dsimp only at he
      split at he
      · next hactive =>
        split at he
        · cases he
        · next htarget =>
          obtain rfl := List.mem_singleton.mp he
          exact ⟨beam, transform, store, hbeam, htransform, hstore, hactive, htarget⟩
      · cases he
    · cases he
  · rintro ⟨beam, transform, store, hbeam, htransform, hstore, hactive, htarget⟩
    obtain ⟨hquery, hread⟩ := read_agent bimap hbeam htransform hstore hactive
    refine ⟨e, hquery, ?_⟩
    rw [hread, htarget]
    exact List.mem_singleton_self _

variable [F32 F]

/-- The attempts that validation refuses. -/
theorem mem_refused : e ∈ (validateAttempt w ([], []) a).2 ↔ e = a.agent ∧
      ((w.get a.target .resource = none ∨ w.get a.target .transform = none) ∨
        (∃ at_ : Transform F, w.get a.target .transform = some at_ ∧
          a.beam.extractionRange * a.beam.extractionRange < distSq at_ a.transform) ∨
        a.store.capacity ≤ a.store.payloadCount) := by
  unfold validateAttempt
  cases hresource : w.get a.target .resource with
  | none => simp
  | some resource =>
    cases htransform : w.get a.target .transform with
    | none => simp
    | some at_ =>
      dsimp only
      split_ifs with hrange hfull <;> simp_all

theorem mem_granted (h : t ∈ (validateAttempt w ([], []) a).1) :
    t.agent = a.agent ∧ t.resource = a.target ∧ a.store.payloadCount < a.store.capacity := by
  unfold validateAttempt at h
  split at h
  · dsimp only at h
    split_ifs at h with hrange hfull _ _
    · cases h
    · cases h
    · obtain rfl := List.mem_singleton.mp h
      exact ⟨rfl, rfl, UInt16.not_le.mp hfull⟩
    · cases h
    · cases h
  · cases h

/-- The beams that end are those that fail. -/
theorem mem_switchedOff : e ∈ (extractionPlan w bimap).2 ↔
    ∃ beam : ExtractionBeam F, w.get e .extractionBeam = some beam ∧
      SwitchedOff w bimap e beam := by
  unfold extractionPlan
  rw [foldl_append_pair validateAttempt_append]
  show e ∈ _ ++ List.flatMap _ _ ↔ _
  rw [List.mem_append, List.mem_flatMap, mem_unmapped]
  constructor
  · rintro (⟨beam, transform, store, hbeam, htransform, hstore, hactive, htarget⟩ | ⟨a, ha, he⟩)
    · refine ⟨beam, hbeam, hactive, transform, store, htransform, hstore, ?_⟩
      cases hn : beam.target with
      | none => exact Or.inl hn
      | some n =>
        rw [hn] at htarget
        exact Or.inr (Or.inl ⟨n, hn, htarget⟩)
    · obtain ⟨hbeam, htransform, hstore, hactive, htarget⟩ := mem_attempts ha
      obtain ⟨rfl, hwhy⟩ := mem_refused.mp he
      obtain ⟨n, hn, ht⟩ := Option.bind_eq_some_iff.mp htarget
      refine ⟨a.beam, hbeam, hactive, a.transform, a.store, htransform, hstore, ?_⟩
      rcases hwhy with hbare | ⟨at_, hat, hrange⟩ | hfull
      · exact Or.inr (Or.inr (Or.inl ⟨n, a.target, hn, ht, hbare⟩))
      · exact Or.inr (Or.inr (Or.inr (Or.inl ⟨n, a.target, at_, hn, ht, hat, hrange⟩)))
      · exact Or.inr (Or.inr (Or.inr (Or.inr hfull)))
  · rintro ⟨beam, hbeam, hactive, transform, store, htransform, hstore, hwhy⟩
    cases htarget : beam.target.bind bimap.getByLeft with
    | none =>
      exact Or.inl ⟨beam, transform, store, hbeam, htransform, hstore, hactive, htarget⟩
    | some t =>
      obtain ⟨n, hn, ht⟩ := Option.bind_eq_some_iff.mp htarget
      refine Or.inr ⟨_, mem_attempts_of hbeam htransform hstore hactive htarget, ?_⟩
      refine mem_refused.mpr ⟨rfl, ?_⟩
      -- whatever the reason names as the target is the one that was found
      have hsame : ∀ n' t', beam.target = some n' → bimap.getByLeft n' = some t' → t' = t := by
        intro n' t' hn' ht'
        obtain rfl := Option.some.inj (hn.symm.trans hn')
        exact Option.some.inj (ht'.symm.trans ht)
      rcases hwhy with hunset | ⟨n', hn', ht'⟩ | ⟨n', t', hn', ht', hbare⟩ |
        ⟨n', t', at_, hn', ht', hat, hrange⟩ | hfull
      · cases hunset.symm.trans hn
      · obtain rfl := Option.some.inj (hn.symm.trans hn')
        cases ht'.symm.trans ht
      · obtain rfl := hsame n' t' hn' ht'
        exact Or.inl hbare
      · obtain rfl := hsame n' t' hn' ht'
        exact Or.inr (Or.inl ⟨at_, hat, hrange⟩)
      · exact Or.inr (Or.inr hfull)

/-- A transfer goes from the aim of its agent's beam into a store with room. -/
theorem mem_transfers (h : t ∈ (extractionPlan w bimap).1) :
    beamAim w bimap t.agent = some t.resource ∧
      ∃ s : DataStore, w.get t.agent .dataStore = some s ∧ s.payloadCount < s.capacity := by
  unfold extractionPlan at h
  rw [foldl_append_pair validateAttempt_append] at h
  obtain ⟨a, ha, ht⟩ := List.mem_flatMap.mp h
  obtain ⟨hbeam, -, hstore, -, htarget⟩ := mem_attempts ha
  obtain ⟨hagent, hresource, hroom⟩ := mem_granted ht
  rw [hagent, hresource]
  exact ⟨Option.bind_eq_some_iff.mpr ⟨a.beam, hbeam, htarget⟩, a.store, hstore, hroom⟩

theorem ready_transfers (h : t ∈ (extractionPlan w bimap).1) : t.Ready w :=
  validateAttempt_ready w _ (fun _ ha => (mem_attempts ha).2.2.1) _
    (fun _ ht => absurd ht List.not_mem_nil) t h

end Plan

/-! ## One transfer -/

variable {aim : Entity → Option Entity} {e : Entity} {t : Transfer} {w w' : World F}

/-- The same amount leaves the resource and enters the store. -/
theorem executeTransfer_moved (h : t.Ready w) : ∃ (s : DataStore) (r : Resource) (amount : UInt16),
      w.get t.agent .dataStore = some s ∧ w.get t.resource .resource = some r ∧
      s.payloadCount.toNat + amount.toNat ≤ s.capacity.toNat ∧
      amount.toNat ≤ r.payloadRemaining.toNat ∧
      (executeTransfer w t).get t.agent .dataStore =
        some { s with payloadCount := s.payloadCount + amount } ∧
      (executeTransfer w t).get t.resource .resource =
        some { r with payloadRemaining := r.payloadRemaining - amount } ∧
      (∀ e, e ≠ t.agent → (executeTransfer w t).get e .dataStore = w.get e .dataStore) ∧
      ∀ e, e ≠ t.resource → (executeTransfer w t).get e .resource = w.get e .resource := by
  obtain ⟨store, hstore⟩ := Option.isSome_iff_exists.mp h.store
  obtain ⟨resource, hresource⟩ := Option.isSome_iff_exists.mp h.resource
  have hroom := h.room store hstore
  change w.get t.agent .dataStore = some store at hstore
  change w.get t.resource .resource = some resource at hresource
  have hadd : min (min t.amount (Resource.payloadRemaining resource))
      (DataStore.capacity store - DataStore.payloadCount store) ≤ _ := Std.min_le_right
  have hsub : min (min t.amount (Resource.payloadRemaining resource))
      (DataStore.capacity store - DataStore.payloadCount store) ≤
        Resource.payloadRemaining resource :=
    UInt16.le_trans Std.min_le_left Std.min_le_right
  unfold executeTransfer
  simp only [hstore, hresource]
  generalize min (min t.amount (Resource.payloadRemaining resource))
    (DataStore.capacity store - DataStore.payloadCount store) = amount at hadd hsub ⊢
  have hcapacity : (DataStore.payloadCount store).toNat + amount.toNat ≤
      (DataStore.capacity store).toNat := by
    rw [UInt16.le_iff_toNat_le, UInt16.toNat_sub_of_le _ _ hroom] at hadd
    have hle := UInt16.le_iff_toNat_le.mp hroom
    omega
  refine ⟨store, resource, amount, rfl, rfl, hcapacity, UInt16.le_iff_toNat_le.mp hsub, ?_⟩
  split
  · refine ⟨?_, ?_, fun e he => ?_, fun e he => ?_⟩
    · rw [World.get_modify_of_ne _ _ (Or.inr (by decide)), World.get_modify_self, hstore]
      rfl
    · rw [World.get_modify_self, World.get_modify_of_ne _ _ (Or.inr (by decide)), hresource]
      rfl
    · rw [World.get_modify_of_ne _ _ (Or.inr (by decide)), World.get_modify_of_ne _ _ (Or.inl he)]
    · rw [World.get_modify_of_ne _ _ (Or.inl he), World.get_modify_of_ne _ _ (Or.inr (by decide))]
  · next hzero =>
    -- nothing moves
    obtain rfl : amount = 0 := by
      rw [UInt16.not_lt] at hzero
      exact UInt16.le_antisymm hzero (UInt16.zero_le)
    refine ⟨?_, ?_, fun _ _ => rfl, fun _ _ => rfl⟩
    · rw [UInt16.add_zero]
      exact hstore
    · rw [UInt16.sub_zero]
      exact hresource

/-! ## All transfers -/

/-- A store with room has taken something in and is not over its capacity. -/
def Filled (s s' : DataStore) : Prop :=
  s.payloadCount < s.capacity ∧ s.payloadCount < s'.payloadCount ∧
    s'.payloadCount ≤ s.capacity ∧ s' = { s with payloadCount := s'.payloadCount }

/-- What the store of `e` holds, if `e` aims at `r`. -/
def storedFor (aim : Entity → Option Entity) (r : Entity) (w : World F) (e : Entity) : Nat :=
  if aim e = some r then w.amountIn .dataStore e else 0

/-- The accounts between the world `w` of the snapshot and `w'`: a resource and the stores of those
who aim at it hold the same together, and stores only fill up to their capacity. -/
structure Balanced (aim : Entity → Option Entity) (w w' : World F) : Prop where
  edits : Edits [.extractionBeam, .dataStore, .resource] w w'
  circle : ∀ r, w'.amountIn .resource r + w.ecs.total (storedFor aim r w') =
    w.amountIn .resource r + w.ecs.total (storedFor aim r w)
  store : ∀ e (s : DataStore), w.get e .dataStore = some s →
    ∃ s' : DataStore, w'.get e .dataStore = some s' ∧ (s' = s ∨ Filled s s')
  resource : ∀ e (r : Resource), w.get e .resource = some r →
    ∃ r' : Resource, w'.get e .resource = some r' ∧
      r' = { r with payloadRemaining := r'.payloadRemaining }

theorem vanishes_storedFor (aim : Entity → Option Entity) (r : Entity)
    {ks : List Comp} (h : Edits ks w w') : w.ecs.Vanishes (storedFor aim r w') := by
  intro e he
  have hdead : w'.alive e = false := (h.alive e).trans he
  unfold storedFor
  rw [World.amountIn_of_none (World.get_of_not_alive hdead _), ite_self]

theorem Balanced.of_disabled (aim : Entity → Option Entity) (w : World F) (es : List Entity) :
    Balanced aim w (es.foldl disableBeam w) := by
  have hedits := (disableBeams_written es w).edits
  have hstore : ∀ e, (es.foldl disableBeam w).get e .dataStore = w.get e .dataStore := fun e =>
    hedits.get e _ (by decide)
  have hresource : ∀ e, (es.foldl disableBeam w).get e .resource = w.get e .resource := fun e =>
    hedits.get e _ (by decide)
  refine ⟨hedits.mono (by decide), fun r => ?_, fun e s hs => ?_, fun e r hr => ?_⟩
  · have hsame : storedFor aim r (es.foldl disableBeam w) = storedFor aim r w := by
      funext e
      unfold storedFor
      rw [World.amountIn_congr (hstore e)]
    rw [hsame, World.amountIn_congr (hresource r)]
  · exact ⟨s, (hstore e).trans hs, Or.inl rfl⟩
  · exact ⟨r, (hresource e).trans hr, rfl⟩

theorem filled_add {s₀ s : DataStore} {amount : UInt16} (hroom : s₀.payloadCount < s₀.capacity)
    (h : s = s₀ ∨ Filled s₀ s) (hcapacity : s.payloadCount.toNat + amount.toNat ≤ s.capacity.toNat)
    (hsum : (s.payloadCount + amount).toNat = s.payloadCount.toNat + amount.toNat)
    (hpos : amount ≠ 0) : Filled s₀ { s with payloadCount := s.payloadCount + amount } := by
  have hgrows : amount.toNat ≠ 0 := fun hzero => hpos (UInt16.toNat_inj.mp hzero)
  have hle : s₀.payloadCount.toNat ≤ s.payloadCount.toNat := by
    rcases h with rfl | ⟨-, hlt, -, -⟩
    · exact Nat.le_refl _
    · exact (UInt16.lt_iff_toNat_lt.mp hlt).le
  have hsame : s = { s₀ with payloadCount := s.payloadCount } := by
    rcases h with rfl | ⟨-, -, -, hsame⟩
    · rfl
    · exact hsame
  have hcap : s.capacity = s₀.capacity := by rw [hsame]
  refine ⟨hroom, ?_, ?_, ?_⟩
  · rw [UInt16.lt_iff_toNat_lt, hsum]
    omega
  · rw [UInt16.le_iff_toNat_le, hsum, ← hcap]
    exact hcapacity
  · rw [hsame]

theorem Balanced.step
    (h : Balanced aim w w') (haim : aim t.agent = some t.resource) (hready : t.Ready w')
    (hroom : ∃ s : DataStore, w.get t.agent .dataStore = some s ∧ s.payloadCount < s.capacity) :
    Balanced aim w (executeTransfer w' t) := by
  obtain ⟨s, r, amount, hs, hr, hcapacity, hremaining, hs', hr', hstores, hresources⟩ :=
    executeTransfer_moved hready
  have hedits : Edits [.extractionBeam, .dataStore, .resource] w (executeTransfer w' t) :=
    h.edits.trans ((executeTransfer_written w' t).edits.mono (by decide))
  -- neither the sum nor the difference leaves its counter
  have hsum : (s.payloadCount + amount).toNat = s.payloadCount.toNat + amount.toNat := by
    have hlt := s.capacity.toNat_lt
    rw [UInt16.toNat_add, Nat.mod_eq_of_lt (by omega)]
  have hrest : (r.payloadRemaining - amount).toNat = r.payloadRemaining.toNat - amount.toNat :=
    UInt16.toNat_sub_of_le _ _ (UInt16.le_iff_toNat_le.mpr hremaining)
  refine ⟨hedits, fun r₀ => ?_, fun e s₀ hs₀ => ?_, fun e r₀ hr₀ => ?_⟩
  · rw [← h.circle r₀]
    by_cases hr₀ : r₀ = t.resource
    · subst hr₀
      have hupdate := Storage.total_update (vanishes_storedFor aim t.resource h.edits)
        (vanishes_storedFor aim t.resource hedits) t.agent fun e he => by
          unfold storedFor
          rw [World.amountIn_congr (hstores e he)]
      have hbefore : storedFor aim t.resource w' t.agent = s.payloadCount.toNat :=
        (if_pos haim).trans (World.amountIn_of_get hs)
      have hafter : storedFor aim t.resource (executeTransfer w' t) t.agent =
          (s.payloadCount + amount).toNat := (if_pos haim).trans (World.amountIn_of_get hs')
      have hold : w'.amountIn .resource t.resource = r.payloadRemaining.toNat :=
        World.amountIn_of_get hr
      have hnew : (executeTransfer w' t).amountIn .resource t.resource =
          (r.payloadRemaining - amount).toNat := World.amountIn_of_get hr'
      rw [hbefore, hafter, hsum] at hupdate
      rw [hold, hnew, hrest]
      omega
    · -- the agent aims at another resource, so neither side changes
      have hsame : storedFor aim r₀ (executeTransfer w' t) = storedFor aim r₀ w' := by
        funext e
        unfold storedFor
        by_cases he : e = t.agent
        · have hother : aim e ≠ some r₀ := by
            rw [he, haim]
            exact fun heq => hr₀ (Option.some.inj heq).symm
          rw [if_neg hother, if_neg hother]
        · rw [World.amountIn_congr (hstores e he)]
      rw [hsame, World.amountIn_congr (hresources r₀ hr₀)]
  · obtain ⟨s₁, hs₁, hfilled⟩ := h.store e s₀ hs₀
    by_cases he : e = t.agent
    · subst he
      obtain rfl : s₁ = s := Option.some.inj (hs₁.symm.trans hs)
      obtain ⟨s₂, hs₂, hroom⟩ := hroom
      obtain rfl : s₂ = s₀ := Option.some.inj (hs₂.symm.trans hs₀)
      refine ⟨_, hs', ?_⟩
      by_cases hzero : amount = 0
      · subst hzero
        rw [UInt16.add_zero]
        exact hfilled
      · exact Or.inr (filled_add hroom hfilled hcapacity hsum hzero)
    · exact ⟨s₁, (hstores e he).trans hs₁, hfilled⟩
  · obtain ⟨r₁, hr₁, hkept⟩ := h.resource e r₀ hr₀
    by_cases he : e = t.resource
    · subst he
      obtain rfl : r₁ = r := Option.some.inj (hr₁.symm.trans hr)
      exact ⟨_, hr', by rw [hkept]⟩
    · exact ⟨r₁, (hresources e he).trans hr₁, hkept⟩

theorem Balanced.run (transfers : List Transfer) :
    ∀ {w' : World F}, Balanced aim w w' → (∀ t ∈ transfers, aim t.agent = some t.resource) →
      (∀ t ∈ transfers, t.Ready w') →
      (∀ t ∈ transfers, ∃ s : DataStore, w.get t.agent .dataStore = some s ∧
        s.payloadCount < s.capacity) →
      Balanced aim w (transfers.foldl executeTransfer w') := by
  induction transfers with
  | nil => exact fun h _ _ _ => h
  | cons t transfers ih =>
    intro w' h haim hready hroom
    have hstep := h.step (haim t List.mem_cons_self) (hready t List.mem_cons_self)
      (hroom t List.mem_cons_self)
    refine ih hstep (fun t' ht' => haim t' (List.mem_cons_of_mem t ht')) (fun t' ht' => ?_)
      fun t' ht' => hroom t' (List.mem_cons_of_mem t ht')
    exact executeTransfer_ready t (hready t' (List.mem_cons_of_mem t ht'))

/-! ## The extraction -/

theorem get_spawnTrackers (trackers : List (ResourceRespawn F)) (w : World F)
    (he : w.alive e = true) (k : Comp) :
    (trackers.foldl spawnTracker w).get e k = w.get e k := by
  induction trackers generalizing w with
  | nil => rfl
  | cons tracker trackers ih =>
    have halive : (spawnTracker w tracker).alive e = true := by
      show (w.spawn _).alive e = true
      rw [World.alive_spawn, he, Bool.or_true]
    have hne : e ≠ w.spawned := by
      rintro rfl
      rw [w.not_alive_spawned] at he
      cases he
    exact (ih _ halive).trans ((World.get_spawn w _ e k).trans (if_neg hne))

theorem get_disableBeams (es : List Entity) (w : World F) (e : Entity) :
    (es.foldl disableBeam w).get e .extractionBeam =
      if e ∈ es then (w.get e .extractionBeam).map fun b : ExtractionBeam F =>
        { b with active := false }
      else w.get e .extractionBeam := by
  induction es generalizing w with
  | nil => rfl
  | cons e' es ih =>
    rw [List.foldl_cons, ih]
    unfold disableBeam
    by_cases he : e = e'
    · subst he
      rw [World.get_modify_self, if_pos List.mem_cons_self]
      split
      · cases w.get e .extractionBeam <;> rfl
      · rfl
    · rw [World.get_modify_of_ne _ _ (Or.inl he)]
      simp [he]

/-- What the agents that aim at `r` gain. -/
def gainedFor (aim : Entity → Option Entity) (r : Entity) (w w' : World F) (e : Entity) : Nat :=
  if aim e = some r then w'.amountIn .dataStore e - w.amountIn .dataStore e else 0

theorem Balanced.gained (h : Balanced aim w w') (r : Entity) :
    w'.amountIn .resource r + w.ecs.total (gainedFor aim r w w') = w.amountIn .resource r := by
  have hpoint : ∀ e, gainedFor aim r w w' e + storedFor aim r w e = storedFor aim r w' e := by
    intro e
    unfold gainedFor storedFor
    split
    · have hle : w.amountIn .dataStore e ≤ w'.amountIn .dataStore e := by
        cases hs : w.get e .dataStore with
        | none =>
          rw [World.amountIn_of_none hs]
          exact Nat.zero_le _
        | some s =>
          obtain ⟨s', hs', hfilled⟩ := h.store e s hs
          rw [World.amountIn_of_get hs, World.amountIn_of_get hs']
          rcases hfilled with rfl | ⟨-, hlt, -, -⟩
          · exact Nat.le_refl _
          · exact (UInt16.lt_iff_toNat_lt.mp hlt).le
      omega
    · rfl
  have htotal : w.ecs.total (gainedFor aim r w w') + w.ecs.total (storedFor aim r w) =
      w.ecs.total (storedFor aim r w') := by
    unfold Storage.total
    rw [← List.sum_map_add]
    exact congrArg List.sum (List.map_congr_left fun e _ => hpoint e)
  have hcircle := h.circle r
  omega

variable [F32 F]

/-- The exhaustion that follows adds trackers and leaves what is there alone. -/
theorem get_processExtraction (w : World F) (bimap : BiMap NetworkId Entity)
    (he : w.alive e = true) (k : Comp) :
    (processExtraction w bimap).1.get e k = (afterTransfers w bimap).get e k := by
  obtain ⟨events, trackers, -, hshape⟩ := processExtraction_shape w bimap
  rw [hshape]
  exact get_spawnTrackers trackers ((afterTransfers w bimap).pushReliable events)
    (((afterTransfers_written w bimap).edits.alive e).trans he) k

theorem balanced_afterTransfers (w : World F) (bimap : BiMap NetworkId Entity) :
    Balanced (beamAim w bimap) w (afterTransfers w bimap) := by
  have hdisabled := (disableBeams_written (extractionPlan w bimap).2 w).edits
  rw [afterTransfers_eq]
  refine (Balanced.of_disabled _ w _).run _ (fun t ht => (mem_transfers ht).1) (fun t ht => ?_)
    fun t ht => (mem_transfers ht).2
  exact (ready_transfers ht).of_edits hdisabled (by decide)

/-- In any world, extraction neither fails nor wraps around; what a resource loses is what those who
aim at it gain; stores fill up to their capacity only; and among the beams that can extract exactly
the failing ones end. -/
theorem extraction_accounts (w : World F) (bimap : BiMap NetworkId Entity) :
    processExtractionChecked w bimap = some (processExtraction w bimap) ∧
    (∀ e (r : Resource), w.get e .resource = some r →
      ∃ r' : Resource, (processExtraction w bimap).1.get e .resource = some r' ∧
        r' = { r with payloadRemaining := r'.payloadRemaining } ∧
        r'.payloadRemaining.toNat + w.ecs.total (gainedFor (beamAim w bimap) e w
          (processExtraction w bimap).1) = r.payloadRemaining.toNat) ∧
    (∀ e (s : DataStore), w.get e .dataStore = some s →
      ∃ s' : DataStore, (processExtraction w bimap).1.get e .dataStore = some s' ∧
        (s' = s ∨ Filled s s')) ∧
    ∀ e (beam : ExtractionBeam F), w.get e .extractionBeam = some beam →
      (SwitchedOff w bimap e beam →
        (processExtraction w bimap).1.get e .extractionBeam = some { beam with active := false }) ∧
      (¬ SwitchedOff w bimap e beam →
        (processExtraction w bimap).1.get e .extractionBeam = some beam) := by
  have hbalanced := balanced_afterTransfers w bimap
  refine ⟨processExtractionChecked_eq w bimap, fun e r hr => ?_, fun e s hs => ?_,
    fun e beam hbeam => ?_⟩
  · obtain ⟨r', hr', hkept⟩ := hbalanced.resource e r hr
    refine ⟨r', (get_processExtraction w bimap (Storage.alive_of_get hr) _).trans hr', hkept, ?_⟩
    -- live entities hold after the extraction what they held after the transfers
    have hgained : w.ecs.total (gainedFor (beamAim w bimap) e w (processExtraction w bimap).1) =
        w.ecs.total (gainedFor (beamAim w bimap) e w (afterTransfers w bimap)) := by
      refine congrArg List.sum (List.map_congr_left fun e' he' => ?_)
      unfold gainedFor
      rw [World.amountIn_congr (get_processExtraction w bimap ((w.ecs.mem_entities e').mp he') _)]
    have hsum := hbalanced.gained e
    rw [World.amountIn_of_get hr, World.amountIn_of_get hr'] at hsum
    rw [hgained]
    exact hsum
  · obtain ⟨s', hs', hfilled⟩ := hbalanced.store e s hs
    exact ⟨s', (get_processExtraction w bimap (Storage.alive_of_get hs) _).trans hs', hfilled⟩
  · have hfinal : (processExtraction w bimap).1.get e .extractionBeam =
        ((extractionPlan w bimap).2.foldl disableBeam w).get e .extractionBeam := by
      rw [get_processExtraction w bimap (Storage.alive_of_get hbeam), afterTransfers_eq]
      exact (Written.foldl id executeTransfer_written _ _).edits.get e _ (by decide)
    rw [hfinal, get_disableBeams, hbeam]
    constructor
    · intro hoff
      rw [if_pos (mem_switchedOff.mpr ⟨beam, hbeam, hoff⟩)]
      rfl
    · intro hon
      refine if_neg fun hmem => hon ?_
      obtain ⟨beam', hbeam', hoff⟩ := mem_switchedOff.mp hmem
      obtain rfl := Option.some.inj (hbeam.symm.trans hbeam')
      exact hoff

end Aetheris
