import Aetheris.Server.Sends
import Mathlib.Data.List.Induction

/-!
# Routing of deltas

Stage 5 groups the deltas of a tick by recipient. The batch of a client is the filter of the deltas
by `routed`: those of entities in no workspace and those of entities in the client's workspace
(`lookup_clientBatches`). What the stage encodes and sends is one such batch for each authenticated
client that has a delta to receive (`sendDeltas_exact_filter`).
-/

namespace Aetheris

variable {W A R F : Type} (env : ServerEnv A R F) (ws : WorldState W F)

/-- A delta is for a client when its entity is in no workspace or in the client's. -/
def routed (world : W) (c : ClientId) (delta : ReplicationEvent) : Bool :=
  match ws.getEntityWorkspace world delta.networkId with
  | some workspace => ws.getClientWorkspace world c = some workspace
  | none => true

variable {ws} {world : W} {clients : List ClientId}

theorem deltaRecipients_eq (delta : ReplicationEvent) :
    deltaRecipients ws world clients delta.networkId =
      clients.filter fun c => routed ws world c delta := by
  unfold deltaRecipients getDeltaTargets routed
  cases ws.getEntityWorkspace world delta.networkId with
  | none => exact (List.filter_true clients).symm
  | some workspace =>
    dsimp only
    cases hfilter : clients.filter fun c => ws.getClientWorkspace world c = some workspace with
    | nil => rfl
    | cons c cs => rfl

/-! ## Batches -/

/-- One delta goes once into the batch of each recipient. -/
theorem lookup_addToBatches {cs : List ClientId} (hcs : cs.Nodup) (delta : ReplicationEvent)
    (batches : Batches) (c : ClientId) :
    (cs.foldl (addToBatch delta) batches).lookup c =
      if c ∈ cs then some ((batches.lookup c).getD [] ++ [delta]) else batches.lookup c := by
  induction cs generalizing batches with
  | nil => simp
  | cons c' cs ih =>
    obtain ⟨hnew, hcs⟩ := List.nodup_cons.mp hcs
    rw [List.foldl_cons, ih hcs]
    unfold addToBatch
    by_cases hc : c = c'
    · subst hc
      rw [if_neg hnew, if_pos List.mem_cons_self, AList.lookup_insert]
    · rw [AList.lookup_insert_ne hc]
      simp [hc]

/-- A batch, absent when it has no event. -/
def nonempty (events : List ReplicationEvent) : Option (List ReplicationEvent) :=
  if events = [] then none else some events

theorem getD_nonempty (events : List ReplicationEvent) : (nonempty events).getD [] = events := by
  unfold nonempty
  split
  · next h => exact h.symm
  · rfl

theorem isSome_nonempty (events : List ReplicationEvent) :
    (nonempty events).isSome ↔ events ≠ [] := by
  unfold nonempty
  split
  · next h => simp [h]
  · next h => simp [h]

theorem nonempty_concat (events : List ReplicationEvent) (delta : ReplicationEvent) :
    nonempty (events ++ [delta]) = some (events ++ [delta]) :=
  if_neg (by simp)

/-- The batch of a client is the filter of the deltas. -/
theorem lookup_clientBatches (hclients : clients.Nodup) (deltas : List ReplicationEvent)
    {c : ClientId} (hc : c ∈ clients) :
    (clientBatches ws world clients deltas).lookup c =
      nonempty (deltas.filter (routed ws world c)) := by
  unfold clientBatches
  -- from the right: the last delta is appended to the batches of the others
  induction deltas using List.reverseRecOn with
  | nil => exact AList.lookup_empty c
  | append_singleton deltas delta ih =>
    have hrecipients : (deltaRecipients ws world clients delta.networkId).Nodup := by
      rw [deltaRecipients_eq]
      exact hclients.filter _
    rw [List.foldl_concat, lookup_addToBatches hrecipients, ih, getD_nonempty, deltaRecipients_eq,
      List.filter_append, List.filter_singleton]
    cases hrouted : routed ws world c delta with
    | true => rw [if_pos (List.mem_filter.mpr ⟨hc, hrouted⟩), cond_true, nonempty_concat]
    | false =>
      rw [if_neg (fun h => by rw [(List.mem_filter.mp h).2] at hrouted; cases hrouted),
        cond_false, List.append_nil]

/-! ## Stage 5 -/

/-- Encodes and sends the batch of one client. -/
def sendEvents (acc : TickScheduler A R × List OutboundMessage)
    (batch : ClientId × List ReplicationEvent) : TickScheduler A R × List OutboundMessage :=
  match encodeBatch env batch.1 batch.2 with
  | .ok data =>
    if maxSafePayloadSize < data.length then
      let (s, sent) := fragmentAndSend env acc.1 data [batch.1]
      (s, acc.2 ++ sent)
    else if acc.1.hasOutbound then (acc.1, acc.2 ++ [.unreliable batch.1 data])
    else acc
  | .error _ => acc

/-- Stage 5 encodes and sends a list of batches: one for each authenticated client with a delta to
receive, holding exactly the deltas routed to it, in the order of their extraction. -/
theorem sendDeltas_exact_filter (env : ServerEnv A R F) (ws : WorldState W F) (world : W)
    (s : TickScheduler A R) (deltas : List ReplicationEvent) :
    ∃ batches : List (ClientId × List ReplicationEvent),
      sendDeltas env ws world s deltas = batches.foldl (sendEvents env) (s, []) ∧
      (batches.map (·.1)).Nodup ∧
      ∀ c events, (c, events) ∈ batches ↔
        c ∈ s.authenticatedClients ∧ events = deltas.filter (routed ws world c) ∧
          events ≠ [] := by
  have hclients : (env.clientOrder s.authenticatedClients.keys).Nodup :=
    (env.clientOrder_perm _).nodup_iff.mpr s.authenticatedClients.nodupKeys
  let grouped := clientBatches ws world (env.clientOrder s.authenticatedClients.keys) deltas
  let batch := fun c => (c, (grouped.lookup c).getD [])
  have horder : (env.batchOrder grouped.keys).Nodup :=
    (env.batchOrder_perm _).nodup_iff.mpr grouped.nodupKeys
  refine ⟨(env.batchOrder grouped.keys).map batch, ?_, ?_, ?_⟩
  · rw [List.foldl_map]
    rfl
  · rw [List.map_map]
    exact (List.map_id _).symm ▸ horder
  · intro c events
    have hmem : c ∈ env.batchOrder grouped.keys ↔ (grouped.lookup c).isSome := by
      rw [(env.batchOrder_perm _).mem_iff, ← AList.mem_keys, AList.lookup_isSome]
    have hbatch : (c, events) ∈ (env.batchOrder grouped.keys).map batch ↔
        (grouped.lookup c).isSome ∧ events = (grouped.lookup c).getD [] := by
      rw [List.mem_map, ← hmem]
      constructor
      · rintro ⟨c', hc', heq⟩
        obtain ⟨rfl, rfl⟩ := Prod.mk.inj heq
        exact ⟨hc', rfl⟩
      · rintro ⟨hc, rfl⟩
        exact ⟨c, hc, rfl⟩
    rw [hbatch]
    by_cases hc : c ∈ s.authenticatedClients
    · have hlookup : grouped.lookup c = nonempty (deltas.filter (routed ws world c)) :=
        lookup_clientBatches hclients deltas ((env.clientOrder_perm _).mem_iff.mpr hc)
      rw [hlookup, getD_nonempty, isSome_nonempty]
      constructor
      · rintro ⟨hne, rfl⟩
        exact ⟨hc, rfl, hne⟩
      · rintro ⟨-, rfl, hne⟩
        exact ⟨hne, rfl⟩
    · have hnone : (grouped.lookup c).isSome → False := fun hsome =>
        hc ((env.clientOrder_perm _).mem_iff.mp (mem_clientBatches (AList.lookup_isSome.mp hsome)))
      exact ⟨fun h => (hnone h.1).elim, fun h => (hc h.1).elim⟩

end Aetheris
