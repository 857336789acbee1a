import Aetheris.EcsBevy.Changes
import Aetheris.EcsBevy.Identity

/-!
# What an extraction contains

A default replicator reports a component when its change tick is later than the last extraction.
This is right because the change tick advances between an extraction and whatever is written next:
`post_extract` advances it at the end of a tick, and `advance_tick` before the next one.

`Since prev cleared a` says where `a` stands: its storage comes from that of `prev`, the adapter at
the last extraction, by storage operations, and `cleared` tells whether the world was cleared in
between. Every operation but an extraction keeps it, and it determines the deltas of the next
extraction (`Since.mem_extractDeltas`).
-/

namespace Aetheris

open Ecs Relation

variable {F : Type}

/-! ## The registry -/

/-- The replicators are default ones or the one for input, in the order of their kinds. -/
structure Standard (P : Platform F) (rs : List (ComponentReplicator F)) : Prop where
  sorted : rs.Pairwise fun r r' => r.kind.val < r'.kind.val
  known : ∀ r ∈ rs, (∃ k kind, r = defaultReplicator P k kind) ∨ r = inputCommandReplicator P

namespace Standard

variable {P : Platform F} {rs : List (ComponentReplicator F)}

theorem nil : Standard P [] := ⟨.nil, by simp⟩

theorem register (h : Standard P rs) {r : ComponentReplicator F}
    (hr : (∃ k kind, r = defaultReplicator P k kind) ∨ r = inputCommandReplicator P) :
    Standard P (registerReplicator r rs) where
  known r' hr' := by
    rcases mem_registerReplicator hr' with rfl | hold
    · exact hr
    · exact h.known r' hold
  sorted := by
    have hsorted := h.sorted
    clear h
    induction rs with
    | nil => exact List.pairwise_singleton _ r
    | cons x rs ih =>
      obtain ⟨hx, hrs⟩ := List.pairwise_cons.mp hsorted
      unfold registerReplicator
      split
      · next hlt =>
        refine List.pairwise_cons.mpr ⟨fun y hy => ?_, hsorted⟩
        rcases List.mem_cons.mp hy with rfl | hy
        · exact hlt
        · exact UInt16.lt_trans hlt (hx y hy)
      · next hnlt =>
        split
        · next heq => exact List.pairwise_cons.mpr ⟨fun y hy => heq ▸ hx y hy, hrs⟩
        · next hne =>
          refine List.pairwise_cons.mpr ⟨fun y hy => ?_, ih hrs⟩
          rcases mem_registerReplicator hy with rfl | hold
          · refine UInt16.lt_of_le_of_ne (UInt16.not_lt.mp hnlt) fun heq => hne ?_
            exact (congrArg ComponentKind.mk heq).symm
          · exact hx y hold

theorem registerAll {ds : List (ComponentDescriptor F)} (h : Standard P rs)
    (hds : ∀ d ∈ ds, (∃ k kind, d.replicator = defaultReplicator P k kind) ∨
      d.replicator = inputCommandReplicator P) :
    Standard P (ds.foldl (fun rs d => registerReplicator d.replicator rs) rs) := by
  induction ds generalizing rs with
  | nil => exact h
  | cons d ds ih =>
    obtain ⟨hd, hds⟩ := List.forall_mem_cons.mp hds
    exact ih (h.register hd) hds

theorem nodup_kinds (h : Standard P rs) : (rs.map ComponentReplicator.kind).Nodup := by
  refine List.pairwise_map.mpr (h.sorted.imp fun hlt heq => ?_)
  rw [heq] at hlt
  exact UInt16.lt_irrefl _ hlt

end Standard

theorem platformReplicators_standard (P : Platform F) : Standard P (platformReplicators P) := by
  unfold platformReplicators
  rw [registerPlatformComponents_eq, Option.getD_some]
  refine Standard.nil.registerAll fun d hd => ?_
  rcases List.mem_append.mp hd with hdefault | hinput
  · obtain ⟨⟨k, kind, name⟩, -, rfl⟩ := List.mem_map.mp hdefault
    exact .inl ⟨k, kind, rfl⟩
  · rw [List.mem_singleton.mp hinput]
    exact .inr rfl

/-- A default replicator reports a component that is there, newer than the last extraction, and can
be encoded. -/
theorem defaultReplicator_extract {P : Platform F} {k : Comp} {kind : ComponentKind} {w : World F}
    {e : Entity} {n : NetworkId} {tick : UInt64} {last : Option Nat} {d : ReplicationEvent} :
    (defaultReplicator P k kind).extract w e n tick last = some d ↔
      ∃ v t payload, w.get e k = some v ∧ w.ecs.changedAt e k = some t ∧
        (∀ l, last = some l → l < t) ∧ P.encode k v = some payload ∧
        d = ⟨n, kind, payload, tick⟩ := by
  dsimp only [defaultReplicator]
  cases hv : w.get e k with
  | none => simp
  | some v =>
    cases ht : w.ecs.changedAt e k with
    | none => simp
    | some t =>
      cases hpayload : P.encode k v with
      | none => cases last <;> simp [hpayload]
      | some payload =>
        cases last with
        | none => simp [hpayload, eq_comm]
        | some l =>
          by_cases hlt : l < t
          · simp [hpayload, hlt, eq_comm]
          · simp [hlt]

namespace BevyWorldAdapter

/-! ## Deltas -/

/-- The entity `e` is live and networked as `n`, and its component `k`, registered under `kind`, has
the value `v`. -/
structure Carries (P : Platform F) (a : BevyWorldAdapter F) (n : NetworkId) (e : Entity) (k : Comp)
    (kind : ComponentKind) (v : CompVal F k) : Prop where
  alive : a.world.alive e = true
  networked : a.world.get e .networked = some n
  registered : defaultReplicator P k kind ∈ a.replicators
  value : a.world.get e k = some v

variable {P : Platform F} {a : BevyWorldAdapter F} {cleared : Bool} {d : ReplicationEvent}
  {e : Entity} {k : Comp} {n : NetworkId}

theorem mem_extractDeltas :
    d ∈ (a.extractDeltas P).2 ↔ ∃ n e, a.bimap.Rel n e ∧ ∃ r ∈ a.replicators,
      r.extract a.world e n a.world.currentServerTick a.lastExtractionTick = some d := by
  unfold extractDeltas
  simp only [List.mem_flatMap, List.mem_filterMap, Prod.exists]
  refine exists_congr fun n => exists_congr fun e => and_congr_left fun _ => ?_
  exact (P.bimapOrder_perm _).mem_iff

/-- The deltas of an adapter whose replicators are standard and whose stores agree, by the change
ticks of the components. -/
theorem mem_extractDeltas_iff (hsound : Sound a) (hrs : Standard P a.replicators) :
    d ∈ (a.extractDeltas P).2 ↔ ∃ e k v, Carries P a d.networkId e k d.componentKind v ∧
      P.encode k v = some d.payload ∧ d.tick = a.world.currentServerTick ∧
      ∃ t, a.world.ecs.changedAt e k = some t ∧ ∀ l, a.lastExtractionTick = some l → l < t := by
  rw [mem_extractDeltas]
  constructor
  · rintro ⟨n, e, hrel, r, hr, hd⟩
    obtain ⟨halive, hnet⟩ := networked_iff.mp ((hsound.coherent.mapped n e).mp hrel)
    rcases hrs.known r hr with ⟨k, kind, rfl⟩ | rfl
    · obtain ⟨v, t, payload, hv, ht, hlast, hencode, rfl⟩ := defaultReplicator_extract.mp hd
      exact ⟨e, k, v, ⟨halive, hnet, hr, hv⟩, hencode, rfl, t, ht, hlast⟩
    · cases hd
  · rintro ⟨e, k, v, hcarries, hencode, htick, t, ht, hlast⟩
    have hrel : a.bimap.Rel d.networkId e := (hsound.coherent.mapped _ e).mpr
      (networked_iff.mpr ⟨hcarries.alive, hcarries.networked⟩)
    refine ⟨d.networkId, e, hrel, _, hcarries.registered, defaultReplicator_extract.mpr ?_⟩
    exact ⟨v, t, d.payload, hcarries.value, ht, hlast, hencode, by rw [← htick]⟩

/-- The key of a delta names the pair of the map and the replicator it comes from. -/
theorem key_of_extract (hrs : Standard P a.replicators) {r : ComponentReplicator F}
    (hr : r ∈ a.replicators)
    (hd : r.extract a.world e n a.world.currentServerTick a.lastExtractionTick = some d) :
    d.networkId = n ∧ d.componentKind = r.kind := by
  rcases hrs.known r hr with ⟨k, kind, rfl⟩ | rfl
  · obtain ⟨_, _, _, -, -, -, -, rfl⟩ := defaultReplicator_extract.mp hd
    exact ⟨rfl, rfl⟩
  · cases hd

/-- A delta with the key of a component has its payload. -/
theorem payload_of_mem_extractDeltas (hsound : Sound a)
    (hrs : Standard P a.replicators) {kind : ComponentKind}
    {v : CompVal F k} {payload : Bytes} (hcarries : Carries P a n e k kind v)
    (hpayload : P.encode k v = some payload)
    (hd : d ∈ (a.extractDeltas P).2) (hn : d.networkId = n) (hkind : d.componentKind = kind) :
    d.payload = payload := by
  obtain ⟨n', e', hrel, r, hr, hextract⟩ := mem_extractDeltas.mp hd
  obtain ⟨hn', hkind'⟩ := key_of_extract hrs hr hextract
  have hr' : r = defaultReplicator P k kind :=
    List.inj_on_of_nodup_map hrs.nodup_kinds hr hcarries.registered (hkind'.symm.trans hkind)
  have hrel' : a.bimap.Rel n e := (hsound.coherent.mapped n e).mpr
    (networked_iff.mpr ⟨hcarries.alive, hcarries.networked⟩)
  have he : e' = e := by
    rw [← hn', hn] at hrel
    exact hrel.right_unique hrel'
  subst hr' he
  obtain ⟨v', t, payload', hv', -, -, hpayload', rfl⟩ := defaultReplicator_extract.mp hextract
  obtain rfl : v' = v := Option.some.inj (hv'.symm.trans hcarries.value)
  exact Option.some.inj (hpayload'.symm.trans hpayload)

/-- At most one delta for each entity and kind. -/
theorem nodup_extractDeltas (hrs : Standard P a.replicators) :
    ((a.extractDeltas P).2.map fun d => (d.networkId, d.componentKind)).Nodup := by
  unfold extractDeltas
  rw [List.map_flatMap, List.nodup_flatMap]
  constructor
  · rintro ⟨n, e⟩ -
    refine List.pairwise_map.mpr (List.pairwise_filterMap.mpr ?_)
    refine hrs.sorted.imp_of_mem fun {r r'} hr hr' hlt d hd d' hd' heq => ?_
    have hkinds : r.kind = r'.kind := by
      rw [← (key_of_extract hrs hr hd).2, ← (key_of_extract hrs hr' hd').2]
      exact congrArg Prod.snd heq
    rw [hkinds] at hlt
    exact UInt16.lt_irrefl _ hlt
  · have hpairs : ((P.bimapOrder a.bimap.pairs).map Prod.fst).Nodup :=
      ((P.bimapOrder_perm _).map _).nodup_iff.mpr a.bimap.nodupLeft
    refine (List.pairwise_map.mp hpairs).imp fun {p p'} hne => ?_
    simp only [Function.onFun, List.disjoint_left, List.mem_map, List.mem_filterMap]
    rintro key ⟨d, ⟨r, hr, hd⟩, rfl⟩ ⟨d', ⟨r', hr', hd'⟩, heq⟩
    refine hne ?_
    rw [← (key_of_extract hrs hr hd).1, ← (key_of_extract hrs hr' hd').1]
    exact (congrArg Prod.fst heq).symm

/-- Nothing is newer than the change tick, so an extraction right after another is empty. -/
theorem extractDeltas_twice (hsound : Sound a)
    (hrs : Standard P a.replicators) (hdated : a.world.ecs.Dated) :
    ((a.extractDeltas P).1.extractDeltas P).2 = [] := by
  have hsound' : Sound (a.extractDeltas P).1 := hsound.of_moves (extractDeltas_moves P a)
  rw [List.eq_nil_iff_forall_not_mem]
  intro d hd
  obtain ⟨e, k, -, -, -, -, t, ht, hlast⟩ := (mem_extractDeltas_iff hsound' hrs).mp hd
  have hlt : a.world.ecs.tick < t := hlast _ rfl
  have hle : t ≤ a.world.ecs.tick := hdated e k t ht
  omega

/-! ## Adapters in use -/

def Op.clears : Op F → Bool
  | .clearWorld => true
  | _ => false

theorem Op.clears_eq_false {op : Op F} (h : op ≠ .clearWorld) : op.clears = false := by
  cases op with
  | clearWorld => exact absurd rfl h
  | _ => rfl

/-- A hook that leaves identities alone and changes the storage by its own operations. -/
structure Lawful (hook : World F → World F) : Prop where
  cards : ∀ w, KeepsCards w (hook w)
  history : ∀ w, ∃ log, Run Storage.Performs w.ecs log (hook w).ecs

structure Running (P : Platform F) (a : BevyWorldAdapter F) : Prop extends Sound a where
  standard : Standard P a.replicators
  plain : ∀ r ∈ a.replicators, r.Plain
  lawful : ∀ hook, a.postSimulateHook = some hook → Lawful hook

namespace Running

variable [F32 F] {P : Platform F} {a : BevyWorldAdapter F}

theorem run (h : Running P a) (op : Op F) : Running P (op.run P a) := by
  have hsetup := Op.setup P h.discreet op
  refine ⟨h.toSound.run P op, ?_, ?_, ?_⟩
  · rw [hsetup.replicators]
    exact h.standard
  · rw [hsetup.replicators]
    exact h.plain
  · rw [hsetup.hook]
    exact h.lawful

/-- Every operation works on the storage by the operations of the storage. -/
theorem history (h : Running P a) (op : Op F) :
    ∃ log, Run Storage.Performs a.world.ecs log (op.run P a).world.ecs := by
  cases op with
  | advanceTick => exact ⟨_, .snoc .nil (.advance a.world.ecs)⟩
  | postExtract => exact ⟨_, .snoc .nil (.advance a.world.ecs)⟩
  | extractDeltas => exact ⟨[], .nil⟩
  | extractReliableEvents => exact ⟨[], .nil⟩
  | clearWorld =>
    obtain ⟨b, hchanges, hb⟩ := clearWorld_changes P a
    rw [Op.run, hb]
    exact hchanges.history
  | simulate =>
    obtain ⟨log, hlog⟩ := (beforeHook_changes P a).history
    have hhook := (beforeHook_moves P a).setup.hook
    rw [Op.run, simulate_eq]
    generalize a.beforeHook P = b at hlog hhook ⊢
    unfold runHook
    split
    · next hook hsome =>
      obtain ⟨log', hlog'⟩ := (h.lawful hook (hhook ▸ hsome)).history b.world
      exact ⟨log ++ log', hlog.trans hlog'⟩
    · exact ⟨log, hlog⟩
  | _ =>
    refine Changes.history (Op.changes P h.plain ?_)
    trivial

theorem runOps (h : Running P a) (ops : List (Op F)) : Running P (a.runOps P ops) := by
  induction ops generalizing a with
  | nil => exact h
  | cons op ops ih => exact ih (h.run op)

theorem runOps_setup (h : Running P a) (ops : List (Op F)) : SameSetup a (a.runOps P ops) := by
  induction ops generalizing a with
  | nil => exact ⟨rfl, rfl, rfl⟩
  | cons op ops ih => exact (Op.setup P h.discreet op).trans (ih (h.run op))

/-- Only an extraction sets the tick of the last extraction, and only a clear forgets it. -/
theorem lastExtractionTick (h : Running P a) {op : Op F} (hclear : op ≠ .clearWorld)
    (hextract : op ≠ .extractDeltas) :
    (op.run P a).lastExtractionTick = a.lastExtractionTick := by
  cases op with
  | clearWorld => exact absurd rfl hclear
  | extractDeltas => exact absurd rfl hextract
  | advanceTick => rfl
  | postExtract => rfl
  | extractReliableEvents => rfl
  | simulate =>
    have hlast := (beforeHook_changes P a).lastExtractionTick
    rw [Op.run, simulate_eq]
    generalize a.beforeHook P = b at hlast ⊢
    unfold runHook
    split
    · exact hlast
    · exact hlast
  | _ =>
    refine Changes.lastExtractionTick (Op.changes P h.plain ?_)
    trivial

end Running

/-! ## Since the last extraction -/

/-- `prev` is the adapter right before the last extraction, if there was one, and `cleared` tells
whether the world was cleared after it. -/
structure Since (prev : Option (BevyWorldAdapter F)) (cleared : Bool) (a : BevyWorldAdapter F) :
    Prop where
  dated : a.world.ecs.Dated
  last : a.lastExtractionTick = if cleared then none else prev.map (·.world.ecs.tick)
  history : ∀ y, prev = some y → y.world.ecs.Dated ∧
    ∃ log, Run Storage.Performs y.postExtract.world.ecs log a.world.ecs

/-- Component `k` of `e` has to be reported: everything has to after a clear or without an earlier
extraction, otherwise what was written since. -/
def Due (prev : Option (BevyWorldAdapter F)) (cleared : Bool) (a : BevyWorldAdapter F) (e : Entity)
    (k : Comp) : Prop :=
  cleared = true ∨
    ∀ y, prev = some y → Storage.WrittenBetween y.postExtract.world.ecs a.world.ecs e k

namespace Since

variable {prev : Option (BevyWorldAdapter F)} {cleared : Bool} {a a' : BevyWorldAdapter F}

/-- The comparison with the tick of the last extraction finds what is due. -/
theorem due_iff (h : Since prev cleared a) {e : Entity} {k : Comp} {t : Nat}
    (ht : a.world.ecs.changedAt e k = some t) :
    (∀ l, a.lastExtractionTick = some l → l < t) ↔ Due prev cleared a e k := by
  rw [h.last, Due]
  cases cleared with
  | true => simp
  | false =>
    cases prev with
    | none => simp
    | some y =>
      obtain ⟨hdated, log, hlog⟩ := h.history y rfl
      have hiff : y.world.ecs.tick < t ↔
          Storage.WrittenBetween y.postExtract.world.ecs a.world.ecs e k :=
        Storage.changed_iff_written hdated hlog ht
      simpa using hiff

theorem mem_extractDeltas {P : Platform F} (h : Since prev cleared a) (hsound : Sound a)
    (hrs : Standard P a.replicators) {d : ReplicationEvent} :
    d ∈ (a.extractDeltas P).2 ↔ ∃ e k v, Carries P a d.networkId e k d.componentKind v ∧
      P.encode k v = some d.payload ∧ d.tick = a.world.currentServerTick ∧
      Due prev cleared a e k := by
  rw [mem_extractDeltas_iff hsound hrs]
  refine exists_congr fun e => exists_congr fun k => exists_congr fun v => ?_
  refine and_congr_right fun hcarries => and_congr_right fun _ => and_congr_right fun _ => ?_
  obtain ⟨t, ht⟩ := Storage.exists_changedAt hcarries.value
  constructor
  · rintro ⟨t', ht', hlast⟩
    exact (h.due_iff ht').mp hlast
  · exact fun hdue => ⟨t, ht, (h.due_iff ht).mpr hdue⟩

variable [F32 F] {P : Platform F}

/-- Every operation but an extraction continues the history. -/
theorem run (h : Since prev cleared a) (ha : Running P a) {op : Op F} (hop : op ≠ .extractDeltas) :
    Since prev (cleared || op.clears) (op.run P a) := by
  obtain ⟨log, hlog⟩ := ha.history op
  refine ⟨h.dated.run hlog, ?_, fun y hy => ?_⟩
  · by_cases hclear : op = .clearWorld
    · subst hclear
      rw [Op.clears, Bool.or_true, if_pos rfl]
      rfl
    · rw [Op.clears_eq_false hclear, Bool.or_false, ← h.last]
      exact ha.lastExtractionTick hclear hop
  · obtain ⟨hdated, log₀, hlog₀⟩ := h.history y hy
    exact ⟨hdated, log₀ ++ log, hlog₀.trans hlog⟩

theorem runOps (h : Since prev cleared a) (ha : Running P a) {ops : List (Op F)}
    (hops : ∀ op ∈ ops, op ≠ .extractDeltas) :
    Since prev (cleared || ops.any Op.clears) (a.runOps P ops) := by
  induction ops generalizing a cleared with
  | nil => rwa [List.any_nil, Bool.or_false]
  | cons op ops ih =>
    obtain ⟨hop, hops⟩ := List.forall_mem_cons.mp hops
    rw [List.any_cons, ← Bool.or_assoc]
    exact ih (h.run ha hop) (ha.run op) hops

omit [F32 F] in
/-- The rest of a tick starts a new history. -/
theorem extracted (P : Platform F) (h : Since prev cleared a) :
    Since (some a) false (a.extractDeltas P).1.extractReliableEvents.1.postExtract := by
  have hadvance : ∀ s : Storage (CompVal F), s.Dated → s.advance.Dated :=
    fun s hs => hs.performs (.advance s)
  refine ⟨hadvance _ h.dated, rfl, ?_⟩
  rintro _ ⟨⟩
  exact ⟨h.dated, [], .nil⟩

end Since

/-- What is not due is as it was at the last extraction. -/
theorem get_of_not_due {prev : Option (BevyWorldAdapter F)} {v : CompVal F k}
    (h : ¬ Due prev cleared a e k) (hv : a.world.get e k = some v) :
    ∃ y, prev = some y ∧ y.world.get e k = some v := by
  rw [Due, not_or] at h
  obtain ⟨-, hwritten⟩ := h
  push Not at hwritten
  obtain ⟨y, hy, hunwritten⟩ := hwritten
  rw [Storage.WrittenBetween] at hunwritten
  push Not at hunwritten
  obtain ⟨log, hlog, hno⟩ := hunwritten
  exact ⟨y, hy, Storage.get_of_untouched hlog hv hno⟩

/-! ## Announcements

A despawn is announced with the identifier, and after a clear identifiers are given out again. An
entity that was there at the last extraction and still is has not been announced, though: it would
have lost its place in the map. -/

/-- A hook that announces no despawn. -/
def AnnouncesNoDespawn (hook : World F → World F) : Prop :=
  ∀ w c n, (c, .entityDespawned n) ∈ (hook w).reliableQueue →
    (c, .entityDespawned n) ∈ w.reliableQueue

/-- No entity on the map that is older than `y` has been announced as despawned. -/
structure Unannounced (y a : BevyWorldAdapter F) : Prop where
  next : y.world.ecs.next ≤ a.world.ecs.next
  old : ∀ n e, a.bimap.Rel n e → e.id < y.world.ecs.next →
    ∀ c, (c, .entityDespawned n) ∉ a.world.reliableQueue

theorem extractReliableEvents_queue (a : BevyWorldAdapter F) :
    a.extractReliableEvents.1.world.reliableQueue = [] := by
  unfold extractReliableEvents World.reliableQueue
  cases a.world.reliableEvents <;> rfl

namespace Unannounced

variable {y a a' : BevyWorldAdapter F}

/-- A tick leaves an empty queue behind. -/
theorem extracted (P : Platform F) (a : BevyWorldAdapter F) :
    Unannounced a (a.extractDeltas P).1.extractReliableEvents.1.postExtract := by
  refine ⟨Nat.le_refl _, fun n e _ _ c hmem => ?_⟩
  have hmem : (c, .entityDespawned n) ∈
      (a.extractDeltas P).1.extractReliableEvents.1.world.reliableQueue := hmem
  rw [extractReliableEvents_queue] at hmem
  cases hmem

theorem despawnNetworked (h : Unannounced y a) (n : NetworkId) :
    Unannounced y (a.despawnNetworked n).1 := by
  obtain ⟨hnext, hold⟩ := h
  unfold BevyWorldAdapter.despawnNetworked
  split
  · have hunmapped : ∀ n' e', (a.bimap.removeByLeft n).Rel n' e' → a.bimap.Rel n' e' ∧ n' ≠ n :=
      fun n' e' hrel => BiMap.rel_removeByLeft.mp hrel
    dsimp only
    split
    · refine ⟨hnext, fun n' e' hrel hlt c hmem => ?_⟩
      obtain ⟨hrel, hne⟩ := hunmapped n' e' hrel
      rcases World.mem_reliableQueue_of_push hmem with hqueued | hadded
      · exact hold n' e' hrel hlt c hqueued
      · -- the announcement is of the pair that has just left the map
        cases List.mem_singleton.mp hadded
        exact hne rfl
    · exact ⟨hnext, fun n' e' hrel => hold n' e' (hunmapped n' e' hrel).1⟩
  · exact ⟨hnext, hold⟩

theorem touch {asks : Bool} (h : Unannounced y a) {w : World F} (hw : Touch asks a.world w) :
    Unannounced y { a with world := w } := by
  obtain ⟨hnext, hold⟩ := h
  obtain ⟨log, hlog⟩ := hw.history
  refine ⟨hnext.trans (Storage.next_le_of_run hlog), fun n e hrel hlt c hmem => ?_⟩
  refine hold n e hrel hlt c ?_
  cases hw with
  | announce events =>
    rcases World.mem_reliableQueue_of_push hmem with hqueued | hadded
    · exact hqueued
    · obtain ⟨event, -, hevent⟩ := List.mem_map.mp hadded
      cases hevent
  | _ => exact hmem

theorem changes {asks : Bool} (h : Unannounced y a) (ha : Changes asks a a') :
    Unannounced y a' := by
  induction ha with
  | refl => exact h
  | @tail b _ _ hstep ih =>
    cases hstep with
    | world w hw => exact ih.touch hw
    | map n l =>
      refine ⟨ih.next.trans (Nat.le_succ _), fun n' e' hrel hlt => ?_⟩
      rcases BiMap.rel_insert.mp hrel with ⟨-, rfl⟩ | ⟨hrel, -, -⟩
      · -- the new entity is younger than `y`
        exact absurd hlt (Nat.not_lt.mpr ih.next)
      · exact ih.old n' e' hrel hlt
    | unmap n => exact ih.despawnNetworked n
    | books allocator owners rng => exact ⟨ih.next, ih.old⟩

theorem runHook (h : Unannounced y a)
    (ha : ∀ hook, a.postSimulateHook = some hook → Lawful hook ∧ AnnouncesNoDespawn hook) :
    Unannounced y a.runHook := by
  unfold BevyWorldAdapter.runHook
  split
  · next hook hsome =>
    obtain ⟨hlawful, hquiet⟩ := ha hook hsome
    obtain ⟨log, hlog⟩ := hlawful.history a.world
    refine ⟨h.next.trans (Storage.next_le_of_run hlog), fun n e hrel hlt c hmem => ?_⟩
    exact h.old n e hrel hlt c (hquiet a.world c n hmem)
  · exact h

variable [F32 F] {P : Platform F}

theorem run (h : Unannounced y a) (ha : Running P a)
    (hhook : ∀ hook, a.postSimulateHook = some hook → AnnouncesNoDespawn hook) (op : Op F) :
    Unannounced y (op.run P a) := by
  cases op with
  | advanceTick => exact ⟨h.next, h.old⟩
  | postExtract => exact ⟨h.next, h.old⟩
  | extractDeltas => exact ⟨h.next, h.old⟩
  | extractReliableEvents =>
    refine ⟨h.next, fun n e hrel hlt c hmem => ?_⟩
    rw [Op.run, extractReliableEvents_queue] at hmem
    cases hmem
  | clearWorld =>
    obtain ⟨b, hchanges, hb⟩ := clearWorld_changes P a
    rw [Op.run, hb]
    exact ⟨(h.changes hchanges).next, (h.changes hchanges).old⟩
  | simulate =>
    have hsame := (beforeHook_moves P a).setup.hook
    have hbefore := h.changes (beforeHook_changes P a)
    rw [Op.run, simulate_eq]
    generalize a.beforeHook P = b at hsame hbefore ⊢
    refine hbefore.runHook fun hook hsome => ?_
    rw [hsame] at hsome
    exact ⟨ha.lawful hook hsome, hhook hook hsome⟩
  | _ =>
    refine h.changes (Op.changes P ha.plain ?_)
    trivial

theorem runOps (h : Unannounced y a) (ha : Running P a)
    (hhook : ∀ hook, a.postSimulateHook = some hook → AnnouncesNoDespawn hook)
    (ops : List (Op F)) : Unannounced y (a.runOps P ops) := by
  induction ops generalizing a with
  | nil => exact h
  | cons op ops ih =>
    refine ih (h.run ha hhook op) (ha.run op) ?_
    rw [(Op.setup P ha.discreet op).hook]
    exact hhook

end Unannounced

/-! ## Fresh adapters -/

namespace Fresh

variable {P : Platform F} {a : BevyWorldAdapter F}

theorem running (h : Fresh a) (hrs : Standard P a.replicators) {hook : Option (World F → World F)}
    (hhook : ∀ f, hook = some f → Lawful f) : Running P { a with postSimulateHook := hook } := by
  obtain ⟨-, hplain, -⟩ := h.spec
  exact ⟨h.sound_hook fun f hf => (hhook f hf).cards, hrs, hplain, hhook⟩

/-- There is nothing in the world yet, so nothing has a stamp. -/
theorem since (h : Fresh a) (hook : Option (World F → World F)) :
    Since none false { a with postSimulateHook := hook } := by
  obtain ⟨hblank, -, -, -, -, hlast⟩ := h.spec
  refine ⟨fun e k t ht => ?_, hlast, nofun⟩
  have hdead : a.world.ecs.alive e = false := hblank.alive e
  rw [Storage.changedAt_of_not_alive hdead] at ht
  cases ht

end Fresh

/-- Without an extraction it does not matter whether the world was cleared. -/
theorem Since.forget (h : Since none cleared a) : Since none false a := by
  refine ⟨h.dated, ?_, nofun⟩
  rw [h.last]
  cases cleared <;> rfl

end BevyWorldAdapter

end Aetheris
