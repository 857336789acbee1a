import Aetheris.Lib.Chunks
import Aetheris.Server.Noninterference
import Mathlib.Data.List.TakeWhile

/-!
# Fragmentation

A batch that does not fit into one datagram is cut into numbered fragments that share a message
identifier. `fragmentAndSendTo` is `fragment_and_send` with its targets and its result; the tick
calls it for one recipient at a time, which is `fragmentAndSend`.

* What a recipient decodes the datagrams of a call to is the list `fragments`, once for each time
  the recipient is listed (`receivedBy_sendFragments`), and its payloads joined by index are the
  message again, in whatever order they arrive (`joinByIndex_fragments`).
* The identifiers of the calls of a run count up from one call to the next (`numbered_runCalls`).
-/

namespace Aetheris

open TickState

variable {W A R F : Type}

/-! ## The function -/

section Sending

variable (env : ServerEnv A R F)

/-- Puts one fragment into the channel; a fragment that cannot be encoded is skipped. -/
def sendFragmentTo (targets : DeltaTargets) (fragment : FragmentedEvent) : List OutboundMessage :=
  match env.encoder.encodeEvent (.fragment ⟨0⟩ fragment) with
  | .ok data =>
    match targets with
    | .broadcast => [.broadcastUnreliable data]
    | .recipients clients => clients.map (.unreliable · data)
    | .noRecipients => []
  | .error _ => []

def fragmentAndSendTo (s : TickScheduler A R) (data : Bytes) (len : Nat) (targets : DeltaTargets) :
    TickScheduler A R × List OutboundMessage × Except EncodeError UInt64 :=
  if s.hasOutbound then
    let messageId := s.nextMessageId
    let s := { s with nextMessageId := s.nextMessageId + 1 }
    let chunks := (data.take len).toChunks env.maxFragmentPayloadSize
    -- `u16::try_from(chunks.len())`
    if chunks.length < 2 ^ 16 then
      -- the loop stops at the first index that is no `u16`
      let sent := (chunks.zipIdx.takeWhile fun chunk => chunk.2 < 2 ^ 16).flatMap fun chunk =>
        sendFragmentTo env targets
          ⟨messageId, UInt16.ofNat chunk.2, UInt16.ofNat chunks.length, chunk.1⟩
      (s, sent, .ok (UInt64.ofNat sent.length))
    else (s, [], .error .io)
  else (s, [], .ok 0)

/-- The fragments of a message: its chunks, numbered. -/
def fragments (messageId : UInt32) (data : Bytes) : List FragmentedEvent :=
  let chunks := data.toChunks env.maxFragmentPayloadSize
  chunks.zipIdx.map fun chunk =>
    ⟨messageId, UInt16.ofNat chunk.2, UInt16.ofNat chunks.length, chunk.1⟩

variable {env}

/-- The indices of a message that fits stay below the bound at which the loop would stop. -/
theorem takeWhile_zipIdx {chunks : List Bytes} (h : chunks.length < 2 ^ 16) :
    (chunks.zipIdx.takeWhile fun chunk => chunk.2 < 2 ^ 16) = chunks.zipIdx := by
  refine List.takeWhile_eq_self_iff.mpr fun chunk hchunk => decide_eq_true ?_
  have hlt := List.snd_lt_of_mem_zipIdx hchunk
  omega

variable {data : Bytes} {len : Nat} {s : TickScheduler A R} {targets : DeltaTargets}

theorem fragmentAndSendTo_fits (hout : s.hasOutbound = true)
    (hfits : (data.toChunks env.maxFragmentPayloadSize).length < 2 ^ 16) :
    (fragmentAndSendTo env s data data.length targets).2.1 =
      (fragments env s.nextMessageId data).flatMap (sendFragmentTo env targets) := by
  unfold fragmentAndSendTo fragments
  dsimp only
  rw [List.take_length, if_pos hout, if_pos hfits]
  show List.flatMap _ _ = _
  rw [takeWhile_zipIdx hfits, List.flatMap_map]

theorem fragmentAndSendTo_too_many (hout : s.hasOutbound = true)
    (hmany : ¬ (data.toChunks env.maxFragmentPayloadSize).length < 2 ^ 16) :
    (fragmentAndSendTo env s data data.length targets).2 = ([], .error .io) := by
  unfold fragmentAndSendTo
  dsimp only
  rw [List.take_length, if_pos hout, if_neg hmany]

theorem fragmentAndSendTo_closed (hout : s.hasOutbound = false) :
    fragmentAndSendTo env s data len targets = (s, [], .ok 0) :=
  if_neg (by rw [hout]; exact Bool.false_ne_true)

theorem fragmentAndSendTo_sched (hout : s.hasOutbound = true) :
    (fragmentAndSendTo env s data len targets).1 =
      { s with nextMessageId := s.nextMessageId + 1 } := by
  unfold fragmentAndSendTo
  rw [if_pos hout]
  dsimp only
  split <;> rfl

/-- The tick's own calls. -/
theorem fragmentAndSend_eq (s : TickScheduler A R) (data : Bytes) (clients : List ClientId) :
    fragmentAndSend env s data clients =
      ((fragmentAndSendTo env s data data.length (.recipients clients)).1,
        (fragmentAndSendTo env s data data.length (.recipients clients)).2.1) := by
  cases hout : s.hasOutbound with
  | false =>
    rw [fragmentAndSendTo_closed hout]
    exact if_neg (by rw [hout]; exact Bool.false_ne_true)
  | true =>
    unfold fragmentAndSend
    rw [if_pos hout, fragmentAndSendTo_sched hout]
    dsimp only
    split
    · next hfits =>
      rw [fragmentAndSendTo_fits hout hfits, fragments, List.flatMap_map]
      rfl
    · next hmany => rw [fragmentAndSendTo_too_many hout hmany]

end Sending

/-! ## What arrives -/

/-- The datagrams among the messages that reach `c`. -/
def datagramsFor (c : ClientId) (sent : List OutboundMessage) : List Bytes :=
  sent.filterMap fun
    | .unreliable c' data | .reliable c' data => if c' = c then some data else none
    | .broadcastUnreliable data => some data

/-- What `c` decodes them to. -/
def receivedBy (env : ServerEnv A R F) (c : ClientId) (sent : List OutboundMessage) :
    List (Except EncodeError (NetworkEvent F)) :=
  (datagramsFor c sent).map env.encoder.decodeEvent

/-- How often a client is among the targets. -/
def DeltaTargets.copies (c : ClientId) : DeltaTargets → Nat
  | .broadcast => 1
  | .recipients clients => clients.count c
  | .noRecipients => 0

/-- The payloads, concatenated in the order of the indices. -/
def joinByIndex (arrived : List FragmentedEvent) : Bytes :=
  (arrived.mergeSort fun a b => a.fragmentIndex ≤ b.fragmentIndex).flatMap (·.payload)

/-- `decode_event` undoes `encode_event` on fragments. -/
def Encoder.DecodesFragments (encoder : Encoder F) : Prop :=
  ∀ c fragment data, encoder.encodeEvent (.fragment c fragment) = .ok data →
    encoder.decodeEvent data = .ok (.fragment c fragment)

section Receiving

variable {env : ServerEnv A R F}

theorem receivedBy_append (c : ClientId) (sent sent' : List OutboundMessage) :
    receivedBy env c (sent ++ sent') = receivedBy env c sent ++ receivedBy env c sent' := by
  unfold receivedBy datagramsFor
  rw [List.filterMap_append, List.map_append]

theorem datagramsFor_map_unreliable (c : ClientId) (data : Bytes) (clients : List ClientId) :
    datagramsFor c (clients.map (.unreliable · data)) = List.replicate (clients.count c) data := by
  induction clients with
  | nil => rfl
  | cons c' clients ih =>
    have hcons : datagramsFor c ((c' :: clients).map (.unreliable · data)) =
        (if c' = c then [data] else []) ++ datagramsFor c (clients.map (.unreliable · data)) := by
      unfold datagramsFor
      rw [List.map_cons, List.filterMap_cons]
      by_cases hc : c' = c
      · simp [hc]
      · simp [hc]
    rw [hcons, ih, List.count_cons]
    by_cases hc : c' = c
    · simp [hc, List.replicate_succ]
    · simp [hc]

/-- One encoded fragment reaches every target, as often as it is listed. -/
theorem receivedBy_sendFragmentTo (hdecodes : env.encoder.DecodesFragments)
    {fragment : FragmentedEvent} {data : Bytes}
    (hencode : env.encoder.encodeEvent (.fragment ⟨0⟩ fragment) = .ok data)
    (targets : DeltaTargets) (c : ClientId) :
    receivedBy env c (sendFragmentTo env targets fragment) =
      List.replicate (targets.copies c) (.ok (.fragment ⟨0⟩ fragment)) := by
  have hdatagrams : datagramsFor c (sendFragmentTo env targets fragment) =
      List.replicate (targets.copies c) data := by
    unfold sendFragmentTo
    rw [hencode]
    cases targets with
    | broadcast => rfl
    | recipients clients => exact datagramsFor_map_unreliable c data clients
    | noRecipients => rfl
  unfold receivedBy
  rw [hdatagrams, List.map_replicate, hdecodes _ _ _ hencode]

theorem receivedBy_sendFragments (hdecodes : env.encoder.DecodesFragments)
    (targets : DeltaTargets) (c : ClientId) (fs : List FragmentedEvent)
    (hencode : ∀ fragment ∈ fs, ∃ data,
      env.encoder.encodeEvent (.fragment ⟨0⟩ fragment) = .ok data) :
    receivedBy env c (fs.flatMap (sendFragmentTo env targets)) =
      fs.flatMap fun fragment =>
        List.replicate (targets.copies c) (.ok (.fragment ⟨0⟩ fragment)) := by
  induction fs with
  | nil => rfl
  | cons fragment fs ih =>
    obtain ⟨data, hdata⟩ := hencode fragment List.mem_cons_self
    rw [List.flatMap_cons, List.flatMap_cons, receivedBy_append,
      receivedBy_sendFragmentTo hdecodes hdata,
      ih fun fragment h => hencode fragment (List.mem_cons_of_mem _ h)]

end Receiving

/-! ## The fragments of one message -/

section Fragments

variable {env : ServerEnv A R F} {messageId : UInt32} {data : Bytes}

theorem length_fragments (hsize : 0 < env.maxFragmentPayloadSize) :
    (fragments env messageId data).length = data.length ⌈/⌉ env.maxFragmentPayloadSize := by
  unfold fragments
  rw [List.length_map, List.length_zipIdx, List.length_toChunks hsize]

theorem mem_fragments {fragment : FragmentedEvent} (h : fragment ∈ fragments env messageId data) :
    fragment.messageId = messageId ∧ fragment.totalFragments =
      UInt16.ofNat (data.toChunks env.maxFragmentPayloadSize).length := by
  obtain ⟨chunk, -, rfl⟩ := List.mem_map.mp h
  exact ⟨rfl, rfl⟩

theorem payloads_fragments : (fragments env messageId data).flatMap (·.payload) = data := by
  unfold fragments
  rw [List.flatMap_map]
  show (List.zipIdx _).flatMap Prod.fst = data
  rw [List.flatMap_def, List.zipIdx_map_fst, List.flatten_toChunks]

/-- The indices run over `0..total-1`, in order. -/
theorem indices_fragments
    (hfits : (data.toChunks env.maxFragmentPayloadSize).length < 2 ^ 16) :
    (fragments env messageId data).map (·.fragmentIndex.toNat) =
      List.range (data.toChunks env.maxFragmentPayloadSize).length := by
  unfold fragments
  rw [List.map_map]
  have hindex : ∀ chunk ∈ (data.toChunks env.maxFragmentPayloadSize).zipIdx,
      (UInt16.ofNat chunk.2).toNat = chunk.2 := by
    intro chunk hchunk
    have hlt := List.snd_lt_of_mem_zipIdx hchunk
    rw [UInt16.toNat_ofNat']
    exact Nat.mod_eq_of_lt (by omega)
  show List.map (fun chunk : Bytes × Nat => (UInt16.ofNat chunk.2).toNat) _ = _
  rw [List.map_congr_left hindex, List.zipIdx_map_snd, List.range_eq_range']

theorem joinByIndex_fragments
    (hfits : (data.toChunks env.maxFragmentPayloadSize).length < 2 ^ 16)
    {arrived : List FragmentedEvent} (h : arrived.Perm (fragments env messageId data)) :
    joinByIndex arrived = data := by
  have hsorted : (fragments env messageId data).Pairwise
      fun a b => a.fragmentIndex.toNat < b.fragmentIndex.toNat := by
    rw [← List.pairwise_map, indices_fragments hfits]
    exact List.pairwise_lt_range
  have hle : ∀ a b : FragmentedEvent, decide (a.fragmentIndex ≤ b.fragmentIndex) = true ↔
      a.fragmentIndex.toNat ≤ b.fragmentIndex.toNat := by
    intro a b
    rw [decide_eq_true_iff, UInt16.le_iff_toNat_le]
  unfold joinByIndex
  rw [List.mergeSort_eq_of_perm hle hsorted h, payloads_fragments]

end Fragments

/-! ## The calls of a run -/

/-- A call of `fragment_and_send` for one client, with the scheduler that makes it. -/
structure FragmentCall (A R : Type) where
  sched : TickScheduler A R
  data : Bytes
  client : ClientId

section Calls

variable (env : ServerEnv A R F) (ws : WorldState W F)

/-- The call that the batch of a client leads to, if any. -/
def batchCall (batches : Batches) (s : TickScheduler A R) (c : ClientId) :
    Option (FragmentCall A R) :=
  match encodeBatch env c ((batches.lookup c).getD []) with
  | .ok data => if maxSafePayloadSize < data.length then some ⟨s, data, c⟩ else none
  | .error _ => none

def batchCalls (batches : Batches) (s : TickScheduler A R) : List ClientId → List (FragmentCall A R)
  | [] => []
  | c :: cs =>
    (batchCall env batches s c).toList ++ batchCalls batches (sendBatch env batches (s, []) c).1 cs

/-- The calls of stage 5. -/
def sendCalls (world : W) (s : TickScheduler A R) (deltas : List ReplicationEvent) :
    List (FragmentCall A R) :=
  let batches := clientBatches ws world (env.clientOrder s.authenticatedClients.keys) deltas
  batchCalls env batches s (env.batchOrder batches.keys)

variable [F32 F]

/-- The calls of a tick, in order. -/
def tickCalls (s : TickScheduler A R) (world : W) (input : TickInput F) :
    List (FragmentCall A R) :=
  match input.polled with
  | .error _ => []
  | .ok events =>
    let st := receiveStage env ws s.currentTick input.now
      { s with currentTick := s.currentTick + 1 } (preStage ws s world) events
    let (world, deltas) := ws.extractDeltas (ws.simulate st.world)
    let (world, _) := ws.extractReliableEvents world
    sendCalls env ws (ws.postExtract world) st.sched deltas

/-- The calls of a whole run. -/
def runCalls (s : TickScheduler A R) (world : W) : List (TickInput F) → List (FragmentCall A R)
  | [] => []
  | input :: inputs =>
    let next := (tickStep env ws s world input).1
    tickCalls env ws s world input ++ runCalls next.1 next.2 inputs

end Calls

/-! ## Message identifiers -/

/-- The outbound channel and the next identifier are left alone. -/
structure SameChannel (s s' : TickScheduler A R) : Prop where
  id : s'.nextMessageId = s.nextMessageId
  outbound : s'.hasOutbound = s.hasOutbound

namespace SameChannel

theorem refl (s : TickScheduler A R) : SameChannel s s := ⟨rfl, rfl⟩

theorem trans {s s' s'' : TickScheduler A R} (h : SameChannel s s') (h' : SameChannel s' s'') :
    SameChannel s s'' :=
  ⟨h'.id.trans h.id, h'.outbound.trans h.outbound⟩

theorem of_eq {s s' s'' : TickScheduler A R} (h : SameChannel s' s'')
    (hid : s'.nextMessageId = s.nextMessageId) (hout : s'.hasOutbound = s.hasOutbound) :
    SameChannel s s'' :=
  .trans ⟨hid, hout⟩ h

theorem foldl {α : Type} {f : TickState W A R → α → TickState W A R}
    (hf : ∀ st x, SameChannel st.sched (f st x).sched) (l : List α) (st : TickState W A R) :
    SameChannel st.sched (l.foldl f st).sched := by
  induction l generalizing st with
  | nil => exact .refl _
  | cons x l ih => exact (hf st x).trans (ih (f st x))

variable (env : ServerEnv A R F) (ws : WorldState W F)

theorem dropClient (st : TickState W A R) (c : ClientId) :
    SameChannel st.sched (st.dropClient ws c).sched := by
  unfold TickState.dropClient
  dsimp only
  split <;> exact ⟨rfl, rfl⟩

theorem kickClient (st : TickState W A R) (c : ClientId) :
    SameChannel st.sched (st.kickClient ws c).sched :=
  dropClient ws st c

variable (tick : UInt64)

theorem validateSessions (st : TickState W A R) :
    SameChannel st.sched (st.validateSessions env ws tick).sched := by
  unfold TickState.validateSessions
  dsimp only
  exact .of_eq (foldl (kickClient ws) _ _) rfl rfl

theorem login (now : Instant) (st : TickState W A R) (c : ClientId) (session : VerifiedSession) :
    SameChannel st.sched (st.login env ws now c session).sched := by
  have hkicked := foldl (kickClient ws)
    (TickState.oldClients env st.sched.authenticatedClients c session) st
  exact ⟨hkicked.id, hkicked.outbound⟩

theorem handleUnauthenticated (now : Instant) (st : TickState W A R) (c : ClientId) (raw : Bytes) :
    SameChannel st.sched (st.handleUnauthenticated env ws tick now c raw).sched := by
  unfold TickState.handleUnauthenticated
  split
  · dsimp only
    split
    · exact .of_eq (login env ws now _ c _) rfl rfl
    · exact ⟨rfl, rfl⟩
  · exact .refl _

variable [F32 F]

theorem startSession (st : TickState W A R) (c : ClientId) :
    SameChannel st.sched (st.startSession ws c).sched := by
  unfold TickState.startSession
  split <;> exact ⟨rfl, rfl⟩

theorem handleProtocol (st : TickState W A R) (c : ClientId) (jti : String) (raw : Bytes) :
    SameChannel st.sched (st.handleProtocol env ws c jti raw).sched := by
  unfold TickState.handleProtocol
  split
  case h_4 => exact startSession ws st c
  case h_5 =>
    split
    · exact ⟨rfl, rfl⟩
    · exact .refl _
  all_goals first | exact .refl _ | (split <;> exact .refl _)

theorem handleMessage (now : Instant) (st : TickState W A R) (c : ClientId)
    (raw : Bytes) : SameChannel st.sched (st.handleMessage env ws tick now c raw).sched := by
  unfold TickState.handleMessage
  split
  · dsimp only
    split
    · exact .of_eq (handleProtocol env ws _ c _ raw) rfl rfl
    · exact .of_eq (dropClient ws _ c) rfl rfl
  · exact handleUnauthenticated env ws tick now st c raw

theorem handleEvent (now : Instant) (st : TickState W A R) (event : NetworkEvent F) :
    SameChannel st.sched (st.handleEvent env ws tick now event).sched := by
  have heffect := handleEvent_effect env ws tick now st event
  generalize st.handleEvent env ws tick now event = st' at heffect ⊢
  cases heffect with
  | message c raw r hsender hraw => exact .of_eq (handleMessage env ws tick now _ c raw) rfl rfl
  | kept r => exact ⟨rfl, rfl⟩
  | drop c hsender => exact dropClient ws st c
  | pong pongs => exact .refl _

theorem receiveStage (now : Instant) (s : TickScheduler A R) (world : W)
    (events : List (NetworkEvent F)) :
    SameChannel s (Aetheris.receiveStage env ws tick now s world events).sched := by
  unfold Aetheris.receiveStage
  dsimp only
  generalize hst : (if tick % 60 = 0 then
    (⟨s, world, [], [], [], [], []⟩ : TickState W A R).validateSessions env ws tick
    else ⟨s, world, [], [], [], [], []⟩) = st
  have hchecked : SameChannel s st.sched := by
    rw [← hst]
    split
    · exact validateSessions env ws tick ⟨s, world, [], [], [], [], []⟩
    · exact .refl _
  refine hchecked.trans ?_
  unfold TickState.applyEvents
  split
  · exact .refl _
  · have hevents := foldl (handleEvent env ws tick now) events st
    exact ⟨hevents.id, hevents.outbound⟩

end SameChannel

/-- Calls with a channel, whose identifiers count up from `m` to `m'`. -/
inductive Numbered : UInt32 → List (FragmentCall A R) → UInt32 → Prop where
  | nil (m : UInt32) : Numbered m [] m
  | cons {m m' : UInt32} {call : FragmentCall A R} {calls : List (FragmentCall A R)}
      (hid : call.sched.nextMessageId = m) (hout : call.sched.hasOutbound = true)
      (h : Numbered (m + 1) calls m') : Numbered m (call :: calls) m'

namespace Numbered

variable {m m' m'' : UInt32} {calls calls' : List (FragmentCall A R)}

theorem append (h : Numbered m calls m') (h' : Numbered m' calls' m'') :
    Numbered m (calls ++ calls') m'' := by
  induction h with
  | nil m => exact h'
  | cons hid hout _ ih => exact .cons hid hout (ih h')

theorem getElem (h : Numbered m calls m') :
    ∀ (k : Nat) (hk : k < calls.length), calls[k].sched.nextMessageId = m + UInt32.ofNat k := by
  induction h with
  | nil m => exact fun k hk => absurd hk (Nat.not_lt_zero k)
  | @cons m m' call calls hid _ _ ih =>
    intro k hk
    cases k with
    | zero => exact hid.trans (UInt32.add_zero m).symm
    | succ k =>
      rw [List.getElem_cons_succ, ih k (Nat.lt_of_succ_lt_succ hk), UInt32.add_assoc,
        UInt32.add_comm 1, UInt32.ofNat_add]
      rfl

/-- Two of 2^32 consecutive identifiers differ. -/
theorem ne (h : Numbered m calls m') {i j : Nat} (hij : i < j) (hj : j < calls.length)
    (hspan : j - i < 2 ^ 32) :
    calls[i].sched.nextMessageId ≠ calls[j].sched.nextMessageId := by
  rw [h.getElem i (hij.trans hj), h.getElem j hj]
  intro heq
  have hmod : i % 2 ^ 32 = j % 2 ^ 32 := by
    have hcancel := congrArg UInt32.toNat ((UInt32.add_right_inj m).mp heq)
    rwa [UInt32.toNat_ofNat', UInt32.toNat_ofNat'] at hcancel
  omega

end Numbered

section Runs

variable (env : ServerEnv A R F) (ws : WorldState W F)

variable {batches : Batches} {c : ClientId} {s : TickScheduler A R}

variable {env} in
/-- The batch of a client is sent through the call it leads to. -/
theorem sendBatch_of_call {call : FragmentCall A R} (h : batchCall env batches s c = some call)
    (sent : List OutboundMessage) :
    call.sched = s ∧ (sendBatch env batches (s, sent) c).1 =
        (fragmentAndSendTo env s call.data call.data.length (.recipients [call.client])).1 ∧
      (sendBatch env batches (s, sent) c).2 = sent ++
        (fragmentAndSendTo env s call.data call.data.length (.recipients [call.client])).2.1 := by
  unfold batchCall at h
  unfold sendBatch
  cases hdata : encodeBatch env c ((batches.lookup c).getD []) with
  | ok data =>
    simp only [hdata] at h ⊢
    by_cases hlarge : maxSafePayloadSize < data.length
    · rw [if_pos hlarge] at h
      obtain rfl := Option.some.inj h
      rw [if_pos hlarge, fragmentAndSend_eq]
      exact ⟨rfl, rfl, rfl⟩
    · rw [if_neg hlarge] at h
      cases h
  | error err =>
    rw [hdata] at h
    cases h

variable {env} in
theorem sendBatch_of_no_call (h : batchCall env batches s c = none) (sent : List OutboundMessage) :
    (sendBatch env batches (s, sent) c).1 = s := by
  unfold batchCall at h
  unfold sendBatch
  cases hdata : encodeBatch env c ((batches.lookup c).getD []) with
  | ok data =>
    simp only [hdata] at h ⊢
    by_cases hlarge : maxSafePayloadSize < data.length
    · rw [if_pos hlarge] at h
      cases h
    · rw [if_neg hlarge]
      split <;> rfl
  | error err => rfl

/-- The batch of one client makes one call or none, and the scheduler moves on accordingly. -/
theorem numbered_batchCall (batches : Batches)
    (sent : List OutboundMessage) (hout : s.hasOutbound = true) (c : ClientId) :
    (sendBatch env batches (s, sent) c).1.hasOutbound = true ∧
      Numbered s.nextMessageId (batchCall env batches s c).toList
        (sendBatch env batches (s, sent) c).1.nextMessageId := by
  cases hcall : batchCall env batches s c with
  | none =>
    rw [sendBatch_of_no_call hcall]
    exact ⟨hout, .nil _⟩
  | some call =>
    obtain ⟨hsched, hnext, -⟩ := sendBatch_of_call hcall sent
    rw [hnext, fragmentAndSendTo_sched hout]
    exact ⟨hout, .cons (congrArg _ hsched) (hsched ▸ hout) (.nil _)⟩

theorem numbered_batchCalls (batches : Batches) (cs : List ClientId)
    (sent : List OutboundMessage) (hout : s.hasOutbound = true) :
    (cs.foldl (sendBatch env batches) (s, sent)).1.hasOutbound = true ∧
      Numbered s.nextMessageId (batchCalls env batches s cs)
        (cs.foldl (sendBatch env batches) (s, sent)).1.nextMessageId := by
  induction cs generalizing s sent with
  | nil => exact ⟨hout, .nil _⟩
  | cons c cs ih =>
    -- what was sent before does not matter to the scheduler
    have hsched : (sendBatch env batches (s, sent) c).1 = (sendBatch env batches (s, []) c).1 := by
      cases hcall : batchCall env batches s c with
      | none => rw [sendBatch_of_no_call hcall, sendBatch_of_no_call hcall]
      | some call =>
        rw [(sendBatch_of_call hcall sent).2.1, (sendBatch_of_call hcall []).2.1]
    obtain ⟨hout', hfirst⟩ := numbered_batchCall env batches sent hout c
    obtain ⟨hout'', hrest⟩ := ih (sendBatch env batches (s, sent) c).2 hout'
    refine ⟨hout'', ?_⟩
    unfold batchCalls
    rw [← hsched]
    exact hfirst.append hrest

theorem numbered_sendCalls (hout : s.hasOutbound = true) (world : W)
    (deltas : List ReplicationEvent) :
    (sendDeltas env ws world s deltas).1.hasOutbound = true ∧
      Numbered s.nextMessageId (sendCalls env ws world s deltas)
        (sendDeltas env ws world s deltas).1.nextMessageId :=
  numbered_batchCalls env _ _ [] hout

variable [F32 F]

theorem numbered_tickCalls (hout : s.hasOutbound = true) (world : W) (input : TickInput F) :
    (tickStep env ws s world input).1.1.hasOutbound = true ∧
      Numbered s.nextMessageId (tickCalls env ws s world input)
        (tickStep env ws s world input).1.1.nextMessageId := by
  unfold tickStep tickCalls
  cases input.polled with
  | error err => exact ⟨hout, .nil _⟩
  | ok events =>
    have hkept := SameChannel.receiveStage env ws s.currentTick input.now
      { s with currentTick := s.currentTick + 1 } (preStage ws s world) events
    dsimp only
    generalize receiveStage env ws s.currentTick input.now
      { s with currentTick := s.currentTick + 1 } (preStage ws s world) events = st at hkept ⊢
    have hcalls := numbered_sendCalls env ws (hkept.outbound.trans hout)
      (ws.postExtract (ws.extractReliableEvents (ws.extractDeltas (ws.simulate st.world)).1).1)
      (ws.extractDeltas (ws.simulate st.world)).2
    rw [hkept.id] at hcalls
    exact hcalls

/-- Over a whole run, the identifiers of the calls count up from the first to the last. -/
theorem numbered_runCalls (hout : s.hasOutbound = true) (world : W) (inputs : List (TickInput F)) :
    Numbered s.nextMessageId (runCalls env ws s world inputs)
      (runTicks env ws s world inputs).1.1.nextMessageId := by
  induction inputs generalizing s world with
  | nil => exact .nil _
  | cons input inputs ih =>
    obtain ⟨hout', hfirst⟩ := numbered_tickCalls env ws hout world input
    exact hfirst.append (ih hout' _)

end Runs

/-! ## Round trip -/

/-- With a channel, a message of at most 65535 fragments reaches every recipient as those fragments,
once for each time it is listed, and is the concatenation by index of any permutation of them; a
larger one is refused with nothing sent; and any two of 2^32 consecutive calls of a run differ in the
identifier of their fragments. -/
theorem fragmentation_round_trips [F32 F] (env : ServerEnv A R F) (ws : WorldState W F)
    (hsize : 0 < env.maxFragmentPayloadSize) (hdecodes : env.encoder.DecodesFragments) :
    (∀ (s : TickScheduler A R) (data : Bytes) (targets : DeltaTargets), s.hasOutbound = true →
      data ≠ [] → data.length ⌈/⌉ env.maxFragmentPayloadSize ≤ 65535 →
      (∀ fragment ∈ fragments env s.nextMessageId data, ∃ bytes,
        env.encoder.encodeEvent (.fragment ⟨0⟩ fragment) = .ok bytes) →
      ∃ fs : List FragmentedEvent,
        (∀ c, receivedBy env c (fragmentAndSendTo env s data data.length targets).2.1 =
          fs.flatMap fun fragment =>
            List.replicate (targets.copies c) (.ok (.fragment ⟨0⟩ fragment))) ∧
        fs.length = data.length ⌈/⌉ env.maxFragmentPayloadSize ∧
        (∀ fragment ∈ fs, fragment.messageId = s.nextMessageId ∧
          fragment.totalFragments.toNat = data.length ⌈/⌉ env.maxFragmentPayloadSize) ∧
        fs.map (·.fragmentIndex.toNat) =
          List.range (data.length ⌈/⌉ env.maxFragmentPayloadSize) ∧
        ∀ arrived : List FragmentedEvent, arrived.Perm fs → joinByIndex arrived = data) ∧
    (∀ (s : TickScheduler A R) (data : Bytes) (targets : DeltaTargets), s.hasOutbound = true →
      65535 < data.length ⌈/⌉ env.maxFragmentPayloadSize →
      (fragmentAndSendTo env s data data.length targets).2 = ([], .error .io)) ∧
    ∀ (s : TickScheduler A R) (world : W) (inputs : List (TickInput F)), s.hasOutbound = true →
      ∀ (i j : Nat) (_ : i < j) (hj : j < (runCalls env ws s world inputs).length),
        j - i < 2 ^ 32 → (runCalls env ws s world inputs)[i].sched.nextMessageId ≠
          (runCalls env ws s world inputs)[j].sched.nextMessageId := by
  refine ⟨fun s data targets hout _ hfew hencode => ?_, fun s data targets hout hmany => ?_,
    fun s world inputs hout i j hij hj hspan => (numbered_runCalls env ws hout world inputs).ne
      hij hj hspan⟩
  · have hcount := List.length_toChunks hsize data
    have hfits : (data.toChunks env.maxFragmentPayloadSize).length < 2 ^ 16 := by omega
    refine ⟨fragments env s.nextMessageId data, fun c => ?_, length_fragments hsize,
      fun fragment hfragment => ?_, ?_, fun arrived => joinByIndex_fragments hfits⟩
    · rw [fragmentAndSendTo_fits hout hfits]
      exact receivedBy_sendFragments hdecodes targets c _ hencode
    · obtain ⟨hid, htotal⟩ := mem_fragments hfragment
      rw [htotal, hcount, UInt16.toNat_ofNat']
      exact ⟨hid, Nat.mod_eq_of_lt (by omega)⟩
    · rw [indices_fragments hfits, hcount]
  · have hcount := List.length_toChunks hsize data
    exact fragmentAndSendTo_too_many hout (by omega)

/-- The fragments of message 1, with an index and a total of one byte each. -/
def fragmentCodec : Encoder ℚ :=
  { byteEnv.encoder with
    decodeEvent := fun
      | index :: total :: payload => .ok (.fragment ⟨0⟩ ⟨1, index.toUInt16, total.toUInt16, payload⟩)
      | _ => .error .other
    encodeEvent := fun
      | .fragment c fragment =>
        if c = ⟨0⟩ ∧ fragment = ⟨1, fragment.fragmentIndex.toUInt8.toUInt16,
            fragment.totalFragments.toUInt8.toUInt16, fragment.payload⟩ then
          .ok (fragment.fragmentIndex.toUInt8 :: fragment.totalFragments.toUInt8 :: fragment.payload)
        else .error .other
      | _ => .error .other }

theorem decodesFragments_fragmentCodec : fragmentCodec.DecodesFragments := by
  intro c fragment data hencode
  have hguard : c = ⟨0⟩ ∧ fragment = ⟨1, fragment.fragmentIndex.toUInt8.toUInt16,
      fragment.totalFragments.toUInt8.toUInt16, fragment.payload⟩ := by
    by_contra hno
    cases (if_neg hno).symm.trans hencode
  have hdata := (if_pos hguard).symm.trans hencode
  obtain ⟨rfl, hfragment⟩ := hguard
  cases hdata
  exact congrArg (fun fragment => Except.ok (NetworkEvent.fragment ⟨0⟩ fragment)) hfragment.symm

/-- Two bytes to a fragment. -/
def fragmentEnv : ServerEnv Unit Unit ℚ :=
  { byteEnv with encoder := fragmentCodec, maxFragmentPayloadSize := 2 }

def fragmentSched : TickScheduler Unit Unit := .initial 60 () () true false

/-- Three bytes to two clients, and a message of 65536 fragments. -/
theorem fragmentation_round_trips_small :
    (∃ fs : List FragmentedEvent,
      (∀ c, receivedBy fragmentEnv c
          (fragmentAndSendTo fragmentEnv fragmentSched [7, 8, 9] 3 (.recipients [⟨1⟩, ⟨2⟩])).2.1 =
        fs.flatMap fun fragment =>
          List.replicate ([⟨1⟩, ⟨2⟩].count c) (.ok (.fragment ⟨0⟩ fragment))) ∧
      fs.length = 2 ∧ ∀ arrived : List FragmentedEvent, arrived.Perm fs →
        joinByIndex arrived = [7, 8, 9]) ∧
    (fragmentAndSendTo fragmentEnv fragmentSched (List.replicate 131072 0)
      (List.replicate 131072 (0 : UInt8)).length .broadcast).2 = ([], .error .io) := by
  obtain ⟨hround, hmany, -⟩ := fragmentation_round_trips fragmentEnv
    (bevyWorldState rationalPlatform) (by decide) decodesFragments_fragmentCodec
  constructor
  · have hfragments : fragments fragmentEnv fragmentSched.nextMessageId [7, 8, 9] =
        [⟨1, 0, 2, [7, 8]⟩, ⟨1, 1, 2, [9]⟩] := by decide
    have hencode : ∀ fragment ∈ fragments fragmentEnv fragmentSched.nextMessageId [7, 8, 9],
        ∃ bytes, fragmentEnv.encoder.encodeEvent (.fragment ⟨0⟩ fragment) = .ok bytes := by
      rw [hfragments]
      exact List.forall_mem_cons.mpr ⟨⟨_, rfl⟩, List.forall_mem_singleton.mpr ⟨_, rfl⟩⟩
    obtain ⟨fs, hreceived, hlength, -, -, hjoin⟩ := hround fragmentSched [7, 8, 9]
      (.recipients [⟨1⟩, ⟨2⟩]) rfl (by decide) (by decide) hencode
    exact ⟨fs, hreceived, hlength, hjoin⟩
  · refine hmany fragmentSched (List.replicate 131072 0) .broadcast rfl ?_
    rw [List.length_replicate]
    decide

end Aetheris
