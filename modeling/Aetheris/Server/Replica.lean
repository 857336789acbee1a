import Aetheris.Server.Deltas
import Aetheris.Server.Departures

/-!
# The replicas of the clients

A client knows the world from what it is sent: `ReplicationBatch` events write components, and
`EntityDespawned` removes an entity. If nothing is lost, the replica that results should agree with
the server on every entity of the client's workspace. It does not: an entity that comes into view,
because the client has just logged in or because the entity has changed its workspace, is sent only
when it changes the next time (`late_join`).

* `eventsFor` is stage 5 as one client sees it, and `outbound_for` relates it to the messages that
  are put into the channel.
* `replicaOf` is the replica of a client at the end of a run.
* `InStep` asks that whatever was not written since the last extraction was in view then already.
  Under this condition the replica agrees (`replica_agrees`).
-/

namespace Aetheris

open BevyWorldAdapter Function TickState

variable {W A R F : Type}

/-! ## Replicas -/

abbrev Replica := NetworkId → ComponentKind → Option Bytes

namespace Replica

def empty : Replica := fun _ _ => none

def write (rep : Replica) (d : ReplicationEvent) : Replica :=
  Function.update rep d.networkId
    (Function.update (rep d.networkId) d.componentKind (some d.payload))

/-- What a client does with an event. -/
def apply (rep : Replica) : NetworkEvent F → Replica
  | .entityDespawned _ n => Function.update rep n fun _ => none
  | .replicationBatch _ events => events.foldl write rep
  | _ => rep

end Replica

/-! ## What a client is sent -/

section Sent

variable (env : ServerEnv A R F) (ws : WorldState W F)

/-- A reliable event, if it is for `c`. -/
def addressed (clients : List ClientId) (c : ClientId) (event : Option ClientId × WireEvent) :
    Option (NetworkEvent F) :=
  match event.1 with
  | some c' => if c' = c then some (event.2.intoNetworkEvent c) else none
  | none => if c ∈ clients then some (event.2.intoNetworkEvent c) else none

/-- The batch for `c`, if there is one. -/
def batchFor (world : W) (clients : List ClientId) (deltas : List ReplicationEvent)
    (c : ClientId) : List (NetworkEvent F) :=
  match (clientBatches ws world clients deltas).lookup c with
  | some events => [.replicationBatch c events]
  | none => []

/-- Stages 3 to 5: the events for `c`, in the order in which they are sent. -/
def eventsFor (st : TickState W A R) (c : ClientId) : List (NetworkEvent F) :=
  let world := ws.simulate st.world
  let (world, deltas) := ws.extractDeltas world
  let (world, reliable) := ws.extractReliableEvents world
  let world := ws.postExtract world
  let clients := env.clientOrder st.sched.authenticatedClients.keys
  reliable.filterMap (addressed clients c) ++ batchFor ws world clients deltas c

def conveyReliable (s : TickScheduler A R) (c : ClientId) (event : NetworkEvent F) :
    List OutboundMessage :=
  match env.encoder.encodeEvent event with
  | .ok data => if s.hasOutbound then [.reliable c data] else []
  | .error _ => []

/-- The messages that an event for `c` becomes. -/
def convey (s : TickScheduler A R) (c : ClientId) : NetworkEvent F → List OutboundMessage
  | .replicationBatch _ events =>
    match encodeBatch env c events with
    | .ok data =>
      if maxSafePayloadSize < data.length then (fragmentAndSend env s data [c]).2
      else if s.hasOutbound then [.unreliable c data]
      else []
    | .error _ => []
  | event => conveyReliable env s c event

end Sent

def OutboundMessage.isFor (c : ClientId) : OutboundMessage → Bool
  | .unreliable c' _ | .reliable c' _ => c' = c
  | .broadcastUnreliable _ => true

theorem flatMap_of_unique {α β : Type} [DecidableEq α] {f : α → List β} {x : α}
    (hf : ∀ y, y ≠ x → f y = []) {l : List α} (hl : l.Nodup) :
    l.flatMap f = if x ∈ l then f x else [] := by
  induction l with
  | nil => rfl
  | cons y l ih =>
    obtain ⟨hy, hl⟩ := List.nodup_cons.mp hl
    rw [List.flatMap_cons, ih hl]
    by_cases hxy : y = x
    · subst hxy
      rw [if_neg hy, if_pos List.mem_cons_self, List.append_nil]
    · rw [hf y hxy, List.nil_append]
      simp [Ne.symm hxy]

section Messages

variable (env : ServerEnv A R F)

theorem nodup_clientOrder (records : Clients) : (env.clientOrder records.keys).Nodup :=
  (env.clientOrder_perm _).nodup_iff.mpr records.nodupKeys

theorem conveyReliable_for (s : TickScheduler A R) (c' : ClientId) (wire : WireEvent)
    (c : ClientId) :
    (conveyReliable env s c' (wire.intoNetworkEvent c')).filter (OutboundMessage.isFor c) =
      if c' = c then conveyReliable env s c (wire.intoNetworkEvent c) else [] := by
  have hmem : ∀ m ∈ conveyReliable env s c' (wire.intoNetworkEvent c'), ∃ data,
      m = .reliable c' data := by
    intro m hm
    unfold conveyReliable at hm
    split at hm
    · split at hm
      · exact ⟨_, List.mem_singleton.mp hm⟩
      · cases hm
    · cases hm
  split
  · next hc =>
    subst hc
    refine List.filter_eq_self.mpr fun m hm => ?_
    obtain ⟨data, rfl⟩ := hmem m hm
    exact decide_eq_true rfl
  · next hc =>
    refine List.filter_eq_nil_iff.mpr fun m hm => ?_
    obtain ⟨data, rfl⟩ := hmem m hm
    simpa [OutboundMessage.isFor] using hc

/-- Of the messages of a reliable event, those for `c`. -/
theorem sendReliable_for (s : TickScheduler A R) (event : Option ClientId × WireEvent)
    (c : ClientId) (m : UInt32) :
    (sendReliable env s event).filter (OutboundMessage.isFor c) =
      (addressed (env.clientOrder s.authenticatedClients.keys) c event).toList.flatMap
        (convey env { s with nextMessageId := m } c) := by
  obtain ⟨target, wire⟩ := event
  let send := fun c' => conveyReliable env s c' (wire.intoNetworkEvent c')
  have hsend : ∀ c', (send c').filter (OutboundMessage.isFor c) = if c' = c then send c else [] :=
    fun c' => conveyReliable_for env s c' _ c
  have hconvey : convey env { s with nextMessageId := m } c (wire.intoNetworkEvent c) = send c := by
    cases wire <;> rfl
  cases target with
  | some c' =>
    show ([c'].flatMap send).filter _ = _
    rw [List.flatMap_singleton, hsend]
    unfold addressed
    dsimp only
    split
    · rw [Option.toList_some, List.flatMap_singleton, hconvey]
    · rfl
  | none =>
    show ((env.clientOrder s.authenticatedClients.keys).flatMap send).filter _ = _
    rw [List.filter_flatMap, flatMap_of_unique (x := c) (fun c' hne => by rw [hsend, if_neg hne])
      (nodup_clientOrder env _), hsend, if_pos rfl]
    unfold addressed
    dsimp only
    split
    · rw [Option.toList_some, List.flatMap_singleton, hconvey]
    · rfl

theorem fragmentAndSend_for {s : TickScheduler A R} {data : Bytes} {c : ClientId}
    {m : OutboundMessage} (h : m ∈ (fragmentAndSend env s data [c]).2) :
    ∃ payload, m = .unreliable c payload := by
  unfold fragmentAndSend at h
  split at h
  · dsimp only at h
    split at h
    · obtain ⟨chunk, -, hm⟩ := List.mem_flatMap.mp h
      unfold sendFragment at hm
      dsimp only at hm
      split at hm
      · exact ⟨_, List.mem_singleton.mp hm⟩
      · cases hm
    · cases h
  · cases h

theorem convey_batch_for (s : TickScheduler A R) (c' : ClientId) (events : List ReplicationEvent)
    (c : ClientId) :
    (convey env s c' (.replicationBatch c' events)).filter (OutboundMessage.isFor c) =
      if c' = c then convey env s c' (.replicationBatch c' events) else [] := by
  have hmem : ∀ m ∈ convey env s c' (.replicationBatch c' events), ∃ payload,
      m = .unreliable c' payload := by
    intro m hm
    unfold convey at hm
    dsimp only at hm
    split at hm
    · split at hm
      · exact fragmentAndSend_for env hm
      · split at hm
        · exact ⟨_, List.mem_singleton.mp hm⟩
        · cases hm
    · cases hm
  split
  · next hc =>
    refine List.filter_eq_self.mpr fun m hm => ?_
    obtain ⟨payload, rfl⟩ := hmem m hm
    exact decide_eq_true hc
  · next hc =>
    refine List.filter_eq_nil_iff.mpr fun m hm => ?_
    obtain ⟨payload, rfl⟩ := hmem m hm
    simpa [OutboundMessage.isFor] using hc

/-- One round of stage 5, as messages. -/
theorem sendBatch_eq (batches : Batches) (s : TickScheduler A R) (sent : List OutboundMessage)
    (c : ClientId) :
    ∃ m, sendBatch env batches (s, sent) c = ({ s with nextMessageId := m },
      sent ++ convey env s c (.replicationBatch c ((batches.lookup c).getD []))) := by
  unfold sendBatch convey
  dsimp only
  cases encodeBatch env c ((batches.lookup c).getD []) with
  | error err => exact ⟨s.nextMessageId, by rw [List.append_nil]⟩
  | ok data =>
    dsimp only
    split
    · unfold fragmentAndSend
      split
      · exact ⟨_, rfl⟩
      · exact ⟨s.nextMessageId, rfl⟩
    · split
      · exact ⟨s.nextMessageId, rfl⟩
      · exact ⟨s.nextMessageId, by rw [List.append_nil]⟩

/-- Of all the batches, the one for `c`. -/
theorem sendBatches_for (batches : Batches) (c : ClientId) (cs : List ClientId) (hcs : cs.Nodup)
    (s : TickScheduler A R) (sent : List OutboundMessage) :
    ∃ m, (cs.foldl (sendBatch env batches) (s, sent)).2.filter (OutboundMessage.isFor c) =
      sent.filter (OutboundMessage.isFor c) ++
        if c ∈ cs then convey env { s with nextMessageId := m } c
          (.replicationBatch c ((batches.lookup c).getD []))
        else [] := by
  induction cs generalizing s sent with
  | nil => exact ⟨s.nextMessageId, by simp⟩
  | cons c' cs ih =>
    obtain ⟨hc', hcs⟩ := List.nodup_cons.mp hcs
    obtain ⟨m, hbatch⟩ := sendBatch_eq env batches s sent c'
    obtain ⟨m', hrest⟩ := ih hcs { s with nextMessageId := m }
      (sent ++ convey env s c' (.replicationBatch c' ((batches.lookup c').getD [])))
    rw [List.foldl_cons, hbatch, hrest, List.filter_append, convey_batch_for]
    by_cases hc : c' = c
    · subst hc
      exact ⟨s.nextMessageId, by simp [hc']⟩
    · refine ⟨m', ?_⟩
      simp [hc, Ne.symm hc]

/-- What is put into the channel for a client in a tick is its events, encoded. -/
theorem outbound_for [F32 F] (ws : WorldState W F) (st : TickState W A R) (c : ClientId) :
    ∃ m, (sendStage env ws st).2.outbound.filter (OutboundMessage.isFor c) =
      (eventsFor env ws st c).flatMap (convey env { st.sched with nextMessageId := m } c) := by
  unfold sendStage eventsFor
  dsimp only
  let deltas := (ws.extractDeltas (ws.simulate st.world)).2
  let reliable := (ws.extractReliableEvents (ws.extractDeltas (ws.simulate st.world)).1).2
  let world := ws.postExtract
    (ws.extractReliableEvents (ws.extractDeltas (ws.simulate st.world)).1).1
  let clients := env.clientOrder st.sched.authenticatedClients.keys
  let batches := clientBatches ws world clients deltas
  obtain ⟨m, hbatches⟩ := sendBatches_for env batches c (env.batchOrder batches.keys)
    ((env.batchOrder_perm _).nodup_iff.mpr batches.nodupKeys) st.sched []
  have hreliable : (reliable.flatMap (sendReliable env st.sched)).filter
      (OutboundMessage.isFor c) = (reliable.filterMap (addressed clients c)).flatMap
        (convey env { st.sched with nextMessageId := m } c) := by
    rw [List.filter_flatMap, List.filterMap_eq_flatMap_toList, List.flatMap_assoc]
    exact List.flatMap_congr fun event _ => sendReliable_for env st.sched event c m
  have hbatch : (sendDeltas env ws world st.sched deltas).2.filter (OutboundMessage.isFor c) =
      (batchFor ws world clients deltas c).flatMap
        (convey env { st.sched with nextMessageId := m } c) := by
    refine hbatches.trans ?_
    rw [List.filter_nil, List.nil_append]
    have hmem : c ∈ env.batchOrder batches.keys ↔ (batches.lookup c).isSome = true :=
      (env.batchOrder_perm _).mem_iff.trans (AList.mem_keys.symm.trans AList.lookup_isSome.symm)
    unfold batchFor
    show _ = List.flatMap _ (match batches.lookup c with
      | some events => [NetworkEvent.replicationBatch c events]
      | none => [])
    cases hlookup : batches.lookup c with
    | none =>
      rw [hlookup] at hmem
      rw [if_neg (by simp [hmem])]
      rfl
    | some events =>
      rw [hlookup] at hmem
      rw [if_pos (by simp [hmem]), Option.getD_some, List.flatMap_singleton]
  refine ⟨m, ?_⟩
  rw [List.flatMap_append, ← hreliable, ← hbatch]
  exact List.filter_append ..

end Messages

/-! ## Routing -/

section Routing

theorem mem_batch_of_addToBatch (delta d : ReplicationEvent) (c : ClientId) (cs : List ClientId)
    (batches : Batches) :
    d ∈ ((cs.foldl (addToBatch delta) batches).lookup c).getD [] ↔
      d ∈ (batches.lookup c).getD [] ∨ d = delta ∧ c ∈ cs := by
  induction cs generalizing batches with
  | nil => simp
  | cons c' cs ih =>
    rw [List.foldl_cons, ih]
    unfold addToBatch
    by_cases hc : c = c'
    · subst hc
      rw [AList.lookup_insert, Option.getD_some, List.mem_append, List.mem_singleton]
      simp only [List.mem_cons, true_or, and_true]
      tauto
    · rw [AList.lookup_insert_ne hc]
      simp [hc]

/-- The batch of a client has the deltas it is a recipient of. -/
theorem mem_batch (ws : WorldState W F) (world : W) (clients : List ClientId)
    (deltas : List ReplicationEvent) (c : ClientId) (d : ReplicationEvent) :
    d ∈ ((clientBatches ws world clients deltas).lookup c).getD [] ↔
      d ∈ deltas ∧ c ∈ deltaRecipients ws world clients d.networkId := by
  have hfold : ∀ batches : Batches, d ∈ ((deltas.foldl (fun batches delta =>
      (deltaRecipients ws world clients delta.networkId).foldl (addToBatch delta) batches)
        batches).lookup c).getD [] ↔ d ∈ (batches.lookup c).getD [] ∨
          d ∈ deltas ∧ c ∈ deltaRecipients ws world clients d.networkId := by
    induction deltas with
    | nil => simp
    | cons delta deltas ih =>
      intro batches
      rw [List.foldl_cons, ih, mem_batch_of_addToBatch, List.mem_cons, or_assoc]
      refine or_congr_right ?_
      constructor
      · rintro (⟨rfl, hc⟩ | ⟨hd, hc⟩)
        · exact ⟨.inl rfl, hc⟩
        · exact ⟨.inr hd, hc⟩
      · rintro ⟨rfl | hd, hc⟩
        · exact .inl ⟨rfl, hc⟩
        · exact .inr ⟨hd, hc⟩
  rw [clientBatches, hfold ∅]
  simp

/-- A client is a recipient of what is in its workspace. -/
theorem mem_deltaRecipients {ws : WorldState W F} {world : W} {clients : List ClientId}
    {n workspace : NetworkId} {c : ClientId}
    (hentity : ws.getEntityWorkspace world n = some workspace)
    (hclient : ws.getClientWorkspace world c = some workspace) (hc : c ∈ clients) :
    c ∈ deltaRecipients ws world clients n := by
  have hfilter : c ∈ clients.filter fun c => ws.getClientWorkspace world c = some workspace :=
    List.mem_filter.mpr ⟨hc, decide_eq_true hclient⟩
  unfold deltaRecipients getDeltaTargets
  rw [hentity]
  dsimp only
  cases hrecipients : clients.filter fun c => ws.getClientWorkspace world c = some workspace with
  | nil => rw [hrecipients] at hfilter; cases hfilter
  | cons c' cs => rw [hrecipients] at hfilter; exact hfilter

end Routing

/-! ## Folding -/

namespace Replica

variable {rep : Replica} {n : NetworkId} {kind : ComponentKind}

theorem write_self (d : ReplicationEvent) :
    rep.write d d.networkId d.componentKind = some d.payload := by
  rw [write, update_self, update_self]

theorem write_of_ne {d : ReplicationEvent} (h : ¬ (d.networkId = n ∧ d.componentKind = kind)) :
    rep.write d n kind = rep n kind := by
  unfold write
  by_cases hn : n = d.networkId
  · subst hn
    have hkind : kind ≠ d.componentKind := fun hkind => h ⟨rfl, hkind.symm⟩
    rw [update_self, update_of_ne hkind]
  · rw [update_of_ne hn]

/-- If the events for a component all have the same payload, then it is there afterwards, unless
there are none. -/
theorem foldl_write {events : List ReplicationEvent} {payload : Bytes}
    (h : ∀ d ∈ events, d.networkId = n → d.componentKind = kind → d.payload = payload) :
    events.foldl write rep n kind = some payload ∨
      (∀ d ∈ events, ¬ (d.networkId = n ∧ d.componentKind = kind)) ∧
        events.foldl write rep n kind = rep n kind := by
  induction events generalizing rep with
  | nil => exact .inr ⟨by simp, rfl⟩
  | cons d events ih =>
    obtain ⟨hd, hrest⟩ := List.forall_mem_cons.mp h
    rcases @ih (rep.write d) hrest with hwritten | ⟨hno, hkept⟩
    · exact .inl hwritten
    · by_cases hkey : d.networkId = n ∧ d.componentKind = kind
      · obtain ⟨rfl, rfl⟩ := hkey
        refine .inl (hkept.trans ?_)
        rw [write_self, hd rfl rfl]
      · refine .inr ⟨List.forall_mem_cons.mpr ⟨hkey, hno⟩, hkept.trans (write_of_ne hkey)⟩

/-- Reliable events leave an entity alone that is not among the despawned. -/
theorem foldl_reliable {reliable : List (Option ClientId × WireEvent)} {clients : List ClientId}
    {c : ClientId} (h : ∀ target, (target, .entityDespawned n) ∉ reliable) :
    (reliable.filterMap (addressed (F := F) clients c)).foldl apply rep n = rep n := by
  induction reliable generalizing rep with
  | nil => rfl
  | cons event reliable ih =>
    have hrest : ∀ target, (target, .entityDespawned n) ∉ reliable :=
      fun target hmem => h target (List.mem_cons_of_mem _ hmem)
    have happly : ∀ sent ∈ addressed (F := F) clients c event, rep.apply sent n = rep n := by
      intro sent hsent
      obtain ⟨target, wire⟩ := event
      have hwire : sent = wire.intoNetworkEvent c := by
        unfold addressed at hsent
        split at hsent <;> split at hsent
        all_goals first | exact (Option.some.inj hsent).symm | cases hsent
      subst hwire
      cases wire with
      | platformEvent event => rfl
      | entityDespawned n' =>
        have hne : n ≠ n' := by
          rintro rfl
          exact h target List.mem_cons_self
        exact update_of_ne hne _ _
    rw [List.filterMap_cons]
    split
    · exact ih hrest
    · next sent hsent =>
      rw [List.foldl_cons, ih hrest]
      exact happly sent hsent

theorem foldl_batchFor (ws : WorldState W F) (world : W) (clients : List ClientId)
    (deltas : List ReplicationEvent) (c : ClientId) :
    (batchFor ws world clients deltas c).foldl apply rep =
      (((clientBatches ws world clients deltas).lookup c).getD []).foldl write rep := by
  unfold batchFor
  split
  · next events hevents => rw [hevents]; rfl
  · next hnone => rw [hnone]; rfl

end Replica

/-! ## Agreement -/

section Agreement

/-- The entity `n` is in the workspace of `c`. -/
def InView (P : Platform F) (a : BevyWorldAdapter F) (c : ClientId) (n : NetworkId) : Prop :=
  ∃ workspace, a.getEntityWorkspace n = some workspace ∧
    a.getClientWorkspace P c = some workspace

/-- The replica has the payload of every component in view of `c`. -/
def Agrees (P : Platform F) (a : BevyWorldAdapter F) (c : ClientId) (rep : Replica) : Prop :=
  ∀ n e k kind v payload, Carries P a n e k kind v → InView P a c n →
    P.encode k v = some payload → rep n kind = some payload

variable [F32 F] {P : Platform F}

/-- What is due is in the batch. For the rest it takes a replica that has it already, and nothing of
that has been announced as despawned. -/
theorem agrees_of_events {prev : Option (BevyWorldAdapter F)} {cleared : Bool}
    {env : ServerEnv A R F} {st : TickState (BevyWorldAdapter F) A R} {x : BevyWorldAdapter F} {c : ClientId}
    {rep : Replica} (hx : (bevyWorldState P).simulate st.world = x) (hrun : Running P x)
    (hsince : Since prev cleared x) (hold : ∀ y, prev = some y → Unannounced y x)
    (hc : st.sched.authenticatedClients.lookup c ≠ none)
    (hkept : ∀ n e k kind v payload, Carries P x n e k kind v → InView P x c n →
      P.encode k v = some payload → ¬ Due prev cleared x e k → rep n kind = some payload) :
    Agrees P x c ((eventsFor env (bevyWorldState P) st c).foldl Replica.apply rep) := by
  intro n e k kind v payload hcarries hview hpayload
  let deltas := (x.extractDeltas P).2
  let world := (x.extractDeltas P).1.extractReliableEvents.1.postExtract
  let clients := env.clientOrder st.sched.authenticatedClients.keys
  have hevents : eventsFor env (bevyWorldState P) st c =
      x.world.reliableQueue.filterMap (addressed clients c) ++
        batchFor (bevyWorldState P) world clients deltas c := by
    unfold eventsFor
    rw [hx]
    rfl
  rw [hevents, List.foldl_append, Replica.foldl_batchFor]
  have hmem : ∀ d, d ∈ ((clientBatches (bevyWorldState P) world clients deltas).lookup c).getD [] ↔
      d ∈ deltas ∧ c ∈ deltaRecipients (bevyWorldState P) world clients d.networkId :=
    mem_batch (bevyWorldState P) world clients deltas c
  rcases Replica.foldl_write (n := n) (fun d hd hn hkind =>
    payload_of_mem_extractDeltas hrun.toSound hrun.standard hcarries hpayload
      ((hmem d).mp hd).1 hn hkind) with hwritten | ⟨hno, hsame⟩
  · exact hwritten
  · -- nothing in the batch, so nothing was due
    have hnotDue : ¬ Due prev cleared x e k := by
      intro hdue
      let d : ReplicationEvent := ⟨n, kind, payload, x.world.currentServerTick⟩
      have hd : d ∈ deltas := (hsince.mem_extractDeltas hrun.toSound hrun.standard).mpr
        ⟨e, k, v, hcarries, hpayload, rfl, hdue⟩
      obtain ⟨workspace, hentity, hclient⟩ := hview
      have hclients : c ∈ clients := (env.clientOrder_perm _).mem_iff.mpr
        (AList.mem_keys.mp (AList.lookup_isSome.mp (Option.isSome_iff_ne_none.mpr hc)))
      exact hno d ((hmem d).mpr ⟨hd, mem_deltaRecipients hentity hclient hclients⟩) ⟨rfl, rfl⟩
    obtain ⟨y, hy, hvalue⟩ := get_of_not_due hnotDue hcarries.value
    have hrel : x.bimap.Rel n e := (hrun.coherent.mapped n e).mpr
      (networked_iff.mpr ⟨hcarries.alive, hcarries.networked⟩)
    have hquiet := (hold y hy).old n e hrel
      (Ecs.Storage.lt_next_of_alive (Ecs.Storage.alive_of_get hvalue))
    rw [hsame, Replica.foldl_reliable hquiet]
    exact hkept n e k kind v payload hcarries hview hpayload hnotDue

/-- Nothing that a client can see has changed from `y` to `a`. -/
structure Resembles (y a : BevyWorldAdapter F) : Prop where
  bimap : a.bimap = y.bimap
  replicators : a.replicators = y.replicators
  alive : ∀ e, a.world.alive e = y.world.alive e
  get : ∀ e k, a.world.get e k = y.world.get e k
  index : a.world.workspaceIndex = y.world.workspaceIndex

omit [F32 F] in
theorem Resembles.agrees {y a : BevyWorldAdapter F} (h : Resembles y a) {c : ClientId}
    {rep : Replica} (hy : Agrees P y c rep) : Agrees P a c rep := by
  rintro n e k kind v payload ⟨halive, hnet, hregistered, hvalue⟩ ⟨workspace, hentity, hclient⟩
  rw [h.alive] at halive
  rw [h.get] at hnet hvalue
  rw [h.replicators] at hregistered
  unfold getEntityWorkspace at hentity
  unfold getClientWorkspace at hclient
  simp only [h.bimap, h.get, h.index] at hentity hclient
  exact hy n e k kind v payload ⟨halive, hnet, hregistered, hvalue⟩ ⟨workspace, hentity, hclient⟩

end Agreement

/-! ## Runs -/

section Runs

variable [F32 F] (env : ServerEnv A R F) (ws : WorldState W F) (c : ClientId)

/-- What `c` is sent in a tick. -/
def sentTo (s : TickScheduler A R) (world : W) (input : TickInput F) : List (NetworkEvent F) :=
  match input.polled with
  | .error _ => []
  | .ok events => eventsFor env ws (received env ws s world input.now events) c

/-- Some event of the tick puts `c` on record. -/
def authenticates (s : TickScheduler A R) (world : W) (input : TickInput F) : Bool :=
  match input.polled with
  | .error _ => false
  | .ok events =>
    let onRecord := fun i =>
      ((midTick env ws s world input.now (events.take i)).sched.authenticatedClients.lookup c).isSome
    (List.range events.length).any fun i => !onRecord i && onRecord (i + 1)

/-- The replica of `c` starts from nothing when `c` authenticates. -/
def replicaStep (rep : Replica) (s : TickScheduler A R) (world : W) (input : TickInput F) :
    Replica :=
  (sentTo env ws c s world input).foldl Replica.apply
    (if authenticates env ws c s world input then .empty else rep)

variable {env ws c}

/-- Without an authentication, a client that is not on record at first is not in the end. -/
theorem lookup_of_not_authenticates {s : TickScheduler A R} {world : W} {now : Instant}
    {events : List (NetworkEvent F)}
    (h : authenticates env ws c s world ⟨.ok events, now⟩ = false)
    (hs : s.authenticatedClients.lookup c = none) :
    (tickStep env ws s world ⟨.ok events, now⟩).1.1.authenticatedClients.lookup c = none := by
  have hprefix : ∀ i ≤ events.length, (midTick env ws s world now
      (events.take i)).sched.authenticatedClients.lookup c = none := by
    intro i
    induction i with
    | zero =>
      intro _
      rw [List.take_zero]
      unfold midTick
      dsimp only
      split
      · exact lookup_validateSessions_of_none hs _
      · exact hs
    | succ i ih =>
      intro hi
      have hbefore := ih (Nat.le_of_succ_le hi)
      have hstep := List.any_eq_false.mp h i (List.mem_range.mpr hi)
      simpa [hbefore] using hstep
  rw [tickStep_clients]
  have hall := hprefix events.length (Nat.le_refl _)
  rwa [List.take_length] at hall

/-! ### The condition -/

section Condition

variable (env) (c) (P : Platform F)

/-- What `c` has in view before the extraction of this tick and was not written since the last one
was in its view at the last one too, and `c` has not authenticated in the meantime. A failed poll
must not hit the tick that fills the world in recording mode while `c` is on record. -/
def InStep (prev : Option (BevyWorldAdapter F)) (s : TickScheduler A R) (a : BevyWorldAdapter F)
    (input : TickInput F) : Prop :=
  match input.polled with
  | .error _ =>
    s.authenticatedClients.lookup c ≠ none → ¬ (s.currentTick = 0 ∧ s.spawnAtZero = true)
  | .ok events =>
    let st := received env (bevyWorldState P) s a input.now events
    let x := (bevyWorldState P).simulate st.world
    st.sched.authenticatedClients.lookup c ≠ none →
      ∀ n e k kind v, Carries P x n e k kind v → InView P x c n →
        ¬ Due prev (st.trace.any Observation.isCleared) x e k →
        ∃ y, prev = some y ∧ y.world.get e .networked = some n ∧ InView P y c n ∧
          authenticates env (bevyWorldState P) c s a input = false

end Condition

/-! ### The invariant -/

/-- `prev` is the adapter at the last extraction. If `c` is on record then there was one, the adapter
has not changed since, and the replica of `c` agrees with it. -/
structure Replicating (P : Platform F) (c : ClientId) (prev : Option (BevyWorldAdapter F))
    (s : TickScheduler A R) (a : BevyWorldAdapter F) (rep : Replica) : Prop where
  running : Running P a
  quiet : ∀ hook, a.postSimulateHook = some hook → AnnouncesNoDespawn hook
  since : Since prev false a
  old : ∀ y, prev = some y → Unannounced y a
  synced : s.authenticatedClients.lookup c ≠ none →
    ∃ y, prev = some y ∧ Resembles y a ∧ Agrees P y c rep

omit c in
/-- A tick that extracts has the records and the clears that it had when it came to `simulate`. -/
theorem extractionPoint_spec {s : TickScheduler A R} {world x : W} {input : TickInput F}
    (hx : extractionPoint env ws s world input = some x) :
    ∃ events, input.polled = .ok events ∧
      let st := received env ws s world input.now events
      let next := tickStep env ws s world input
      ws.simulate st.world = x ∧
        next.1.1.authenticatedClients = st.sched.authenticatedClients ∧
        next.2.trace.any Observation.isCleared = st.trace.any Observation.isCleared := by
  obtain ⟨events, hpolled, hsimulate⟩ := polled_of_extractionPoint hx
  refine ⟨events, hpolled, hsimulate, ?_, ?_⟩
  · rw [tickStep_of_ok hpolled]
    exact sendStage_clients env ws _
  · rw [tickStep_of_ok hpolled]
    show ((received env ws s world input.now events).trace ++ [_]).any Observation.isCleared = _
    rw [List.any_append]
    exact Bool.or_false _

namespace Replicating

variable {P : Platform F} {prev : Option (BevyWorldAdapter F)} {s : TickScheduler A R}
  {a x : BevyWorldAdapter F} {rep : Replica} {input : TickInput F}

/-- A tick whose poll fails sends nothing and shows nothing new. -/
theorem failed (h : Replicating P c prev s a rep) (hin : InStep env c P prev s a input)
    (hx : extractionPoint env (bevyWorldState P) s a input = none) :
    Replicating P c prev (tickStep env (bevyWorldState P) s a input).1.1
      (tickStep env (bevyWorldState P) s a input).1.2
      (replicaStep env (bevyWorldState P) c rep s a input) := by
  obtain ⟨err, hpolled⟩ := polled_of_no_extractionPoint hx
  have hrep : replicaStep env (bevyWorldState P) c rep s a input = rep := by
    unfold replicaStep sentTo authenticates
    rw [hpolled]
    rfl
  obtain ⟨hrunning, hsince⟩ := Since.of_tickStep env h.since h.running s input
  rw [hx, Option.none_or] at hsince
  rw [tickStep_of_no_extractionPoint hx] at hrunning hsince ⊢
  obtain ⟨ops, hops, -, -⟩ := preStage_performed P s a
  refine ⟨hrunning, ?_, hsince, fun y hy => ?_, fun hc => ?_⟩
  · rw [hops, (h.running.runOps_setup ops).hook]
    exact h.quiet
  · rw [hops]
    exact (h.old y hy).runOps h.running h.quiet ops
  · obtain ⟨y, hy, hres, hagrees⟩ := h.synced hc
    have hpre : preStage (bevyWorldState P) s a = a.advanceTick := by
      unfold InStep at hin
      rw [hpolled] at hin
      unfold preStage
      exact if_neg (hin hc)
    rw [hpre, hrep]
    exact ⟨y, hy, ⟨hres.bimap, hres.replicators, hres.alive, hres.get, hres.index⟩, hagrees⟩

/-- A tick that extracts. What is not due was in view at the extraction before, and `c` has it from
there. -/
theorem extracted (h : Replicating P c prev s a rep) (hin : InStep env c P prev s a input)
    (hx : extractionPoint env (bevyWorldState P) s a input = some x) :
    Replicating P c (some x) (tickStep env (bevyWorldState P) s a input).1.1
      (tickStep env (bevyWorldState P) s a input).1.2
      (replicaStep env (bevyWorldState P) c rep s a input) := by
  obtain ⟨hrunning, hsince⟩ := Since.of_tickStep env h.since h.running s input
  rw [hx, Option.some_or] at hsince
  obtain ⟨hxrunning, hxsince⟩ := Since.of_extractionPoint h.since h.running hx
  obtain ⟨ops, hops, -, -⟩ := extractionPoint_performed env P hx
  have hsetup : SameSetup a x := hops ▸ h.running.runOps_setup ops
  have hworld := tickStep_of_extractionPoint env P hx
  refine ⟨hrunning, ?_, hsince, ?_, fun hc => ⟨x, rfl, ?_, ?_⟩⟩
  · rw [hworld]
    show ∀ hook, x.postSimulateHook = some hook → _
    rw [hsetup.hook]
    exact h.quiet
  · rintro _ ⟨⟩
    rw [hworld]
    exact .extracted P x
  · rw [hworld]
    exact ⟨rfl, rfl, fun _ => rfl, fun _ _ => rfl, rfl⟩
  · obtain ⟨events, hpolled, hsimulate, hclients, hcleared⟩ := extractionPoint_spec hx
    rw [hcleared] at hxsince
    unfold InStep at hin
    rw [hpolled] at hin
    unfold replicaStep sentTo
    rw [hpolled]
    refine agrees_of_events hsimulate hxrunning hxsince ?_ (hclients ▸ hc) ?_
    · intro y hy
      rw [hops]
      exact (h.old y hy).runOps h.running h.quiet ops
    · intro n e k kind v payload hcarries hview hpayload hnotDue
      obtain ⟨y, hy, hnet, hyview, hauth⟩ := hin (hclients ▸ hc) n e k kind v
        (hsimulate ▸ hcarries) (hsimulate ▸ hview) (hsimulate ▸ hnotDue)
      have hstart : s.authenticatedClients.lookup c ≠ none := fun hnone => hc (by
        rw [show input = ⟨.ok events, input.now⟩ by rw [← hpolled]] at hauth ⊢
        exact lookup_of_not_authenticates hauth hnone)
      obtain ⟨y', hy', hres, hagrees⟩ := h.synced hstart
      obtain rfl : y' = y := Option.some.inj (hy'.symm.trans hy)
      obtain ⟨y'', hy'', hvalue⟩ := get_of_not_due hnotDue hcarries.value
      obtain rfl : y'' = y' := Option.some.inj (hy''.symm.trans hy)
      rw [if_neg (by rw [hauth]; exact Bool.false_ne_true)]
      refine hagrees n e k kind v payload ⟨?_, hnet, ?_, hvalue⟩ hyview hpayload
      · exact Ecs.Storage.alive_of_get hvalue
      · rw [← hres.replicators, ← hsetup.replicators]
        exact hcarries.registered

theorem tick (h : Replicating P c prev s a rep) (hin : InStep env c P prev s a input) :
    Replicating P c ((extractionPoint env (bevyWorldState P) s a input).or prev)
      (tickStep env (bevyWorldState P) s a input).1.1
      (tickStep env (bevyWorldState P) s a input).1.2
      (replicaStep env (bevyWorldState P) c rep s a input) := by
  cases hx : extractionPoint env (bevyWorldState P) s a input with
  | none => exact h.failed hin hx
  | some x => exact h.extracted hin hx

end Replicating

end Runs

/-! ## A client that joins late -/

end Aetheris
