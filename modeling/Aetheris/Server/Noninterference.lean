import Aetheris.EcsBevy.Quiet
import Aetheris.Server.Sends
import Aetheris.Server.Sessions

/-!
# Clients without a session

What a client sends before it is authenticated has no effect on anybody else, and it is sent
nothing. The statement compares a run with the run from which all events of a client `u` are
deleted. An event of `u` itself keeps the two states alike (`Alike.ownEvent`) as the events of the
others do; the induction over the batch then handles each event by its sender.

Two things come from outside and have to be assumed: that the reassembler answers the other clients
as if `u` had sent no fragments (`Reassembler.Independent`), and that a refused token leaves no
trace in the verifier (`AuthSessionVerifier.RefusesSilently`).
-/

namespace Aetheris

open TickState

variable {W A R F : Type}

/-! ## Events of the client itself -/

/-- The message that an event brings to the session check: a fragment only if it is the last one of
its message. -/
def TickState.delivered (env : ServerEnv A R F) (st : TickState W A R) :
    NetworkEvent F → Option Bytes
  | .fragment c fragment => (env.reassembler.ingest st.sched.reassembler c fragment).2
  | .unreliableMessage c data | .reliableMessage c data =>
    match env.encoder.decodeEvent data with
    | .ok (.fragment _ fragment) => (env.reassembler.ingest st.sched.reassembler c fragment).2
    | _ => some data
  | _ => none

/-- The message is an `Auth` with a token that the verifier accepts. -/
def TickState.Accepts (env : ServerEnv A R F) (tick : UInt64) (st : TickState W A R)
    (raw : Bytes) : Prop :=
  ∃ token session, env.encoder.decodeEvent raw = .ok (.auth token) ∧
    (env.verifier.verifySession st.sched.authService token (some tick)).2 = .ok session

/-- What an event comes down to. -/
inductive EventEffect [F32 F] (env : ServerEnv A R F) (ws : WorldState W F) (tick : UInt64)
    (now : Instant) (st : TickState W A R) (event : NetworkEvent F) : TickState W A R → Prop where
  | message (c : ClientId) (raw : Bytes) (r : R) (hsender : event.sender = some c)
      (hraw : raw ∈ st.delivered env event) :
      EventEffect env ws tick now st event
        ({ st with sched := { st.sched with reassembler := r } }.handleMessage env ws tick now c raw)
  | kept (r : R) :
      EventEffect env ws tick now st event
        { st with sched := { st.sched with reassembler := r } }
  | drop (c : ClientId) (hsender : event.sender = some c) :
      EventEffect env ws tick now st event (st.dropClient ws c)
  | pong (pongs : List (ClientId × UInt64)) :
      EventEffect env ws tick now st event { st with pongResponses := pongs }

section Effects

variable [F32 F] {env : ServerEnv A R F} {ws : WorldState W F} {tick : UInt64} {now : Instant}
  {st : TickState W A R} {event : NetworkEvent F} {c : ClientId}

theorem handleFragment_effect {fragment : FragmentedEvent} (hsender : event.sender = some c)
    (hdelivered : st.delivered env event =
      (env.reassembler.ingest st.sched.reassembler c fragment).2) :
    EventEffect env ws tick now st event (st.handleFragment env ws tick now c fragment) := by
  unfold handleFragment
  dsimp only
  split
  · next raw hdata => exact .message c raw _ hsender (hdelivered.trans hdata)
  · exact .kept _

theorem handleRaw_effect {data : Bytes} (hsender : event.sender = some c)
    (hdelivered : st.delivered env event = st.delivered env (.reliableMessage c data)) :
    EventEffect env ws tick now st event (st.handleRaw env ws tick now c data) := by
  unfold delivered at hdelivered
  unfold handleRaw
  split
  · next c' fragment hdecode =>
    simp only [hdecode] at hdelivered
    exact handleFragment_effect hsender hdelivered
  · next hother =>
    refine .message c data st.sched.reassembler hsender (hdelivered.trans ?_)
    dsimp only
    split
    · next c' fragment hdecode => exact absurd hdecode (hother c' fragment)
    · rfl

theorem handleEvent_effect (env : ServerEnv A R F) (ws : WorldState W F) (tick : UInt64)
    (now : Instant) (st : TickState W A R) (event : NetworkEvent F) :
    EventEffect env ws tick now st event (st.handleEvent env ws tick now event) := by
  cases event with
  | fragment c fragment => exact handleFragment_effect rfl rfl
  | unreliableMessage c data => exact handleRaw_effect rfl rfl
  | reliableMessage c data => exact handleRaw_effect rfl rfl
  | clientDisconnected c | disconnected c | sessionClosed c | streamReset c => exact .drop c rfl
  | ping c t =>
    unfold handleEvent
    dsimp only
    split
    · exact .pong _
    · exact .kept st.sched.reassembler
  | _ => exact .kept st.sched.reassembler

end Effects

section Own

variable {env : ServerEnv A R F} {ws : WorldState W F} {u : ClientId} {t₀ : Option Instant}
  {J : W → Prop} {st st' : TickState W A R}

theorem handleUnauthenticated_refused (hverifier : env.verifier.RefusesSilently) {tick : UInt64}
    (now : Instant) {raw : Bytes} (hraw : ¬ st.Accepts env tick raw) :
    st.handleUnauthenticated env ws tick now u raw = st := by
  unfold handleUnauthenticated
  split
  · next token hdecode =>
    dsimp only
    split
    · next session hok => exact absurd ⟨token, session, hdecode, hok⟩ hraw
    · next err herr => rw [hverifier _ _ _ _ herr]
  · rfl

variable [F32 F]

theorem handleMessage_refused (hverifier : env.verifier.RefusesSilently) {tick : UInt64}
    (now : Instant) {raw : Bytes} (hunknown : st.sched.authenticatedClients.lookup u = none)
    (hraw : ¬ st.Accepts env tick raw) : st.handleMessage env ws tick now u raw = st := by
  unfold handleMessage
  rw [hunknown]
  exact handleUnauthenticated_refused hverifier now hraw

namespace Alike

theorem ownFragment (hra : env.reassembler.Independent u)
    (hverifier : env.verifier.RefusesSilently) (h : Alike env.reassembler u t₀ J st st')
    {tick : UInt64} (now : Instant) {fragment : FragmentedEvent}
    (hraw : ∀ raw ∈ (env.reassembler.ingest st.sched.reassembler u fragment).2,
      ¬ st.Accepts env tick raw) :
    Alike env.reassembler u t₀ J (st.handleFragment env ws tick now u fragment) st' := by
  have hi := (hra.ingest_own st.sched.reassembler fragment).trans h.indist
  have hnext : Alike env.reassembler u t₀ J
      { st with sched := { st.sched with
        reassembler := (env.reassembler.ingest st.sched.reassembler u fragment).1 } } st' := by
    obtain ⟨⟨hunknown, hacks, hpongs, hworld⟩, -, t, hmask, ht⟩ := h.twin
    exact ⟨⟨⟨hunknown, hacks, hpongs, hworld⟩, rfl, t, hmask, ht⟩, hi⟩
  unfold TickState.handleFragment
  dsimp only
  split
  · next raw hdata =>
    rw [handleMessage_refused hverifier now hnext.twin.unknown (hraw raw hdata)]
    exact hnext
  · exact hnext

theorem ownRaw (hra : env.reassembler.Independent u) (hverifier : env.verifier.RefusesSilently)
    (h : Alike env.reassembler u t₀ J st st') {tick : UInt64} (now : Instant) {data : Bytes}
    (hraw : ∀ raw ∈ st.delivered env (.reliableMessage u data), ¬ st.Accepts env tick raw) :
    Alike env.reassembler u t₀ J (st.handleRaw env ws tick now u data) st' := by
  unfold delivered at hraw
  dsimp only at hraw
  unfold TickState.handleRaw
  split
  · next fragment hdecode =>
    simp only [hdecode] at hraw
    exact h.ownFragment hra hverifier now hraw
  · next hother =>
    have hdata : ¬ st.Accepts env tick data := by
      refine hraw data ?_
      split
      · next c fragment hdecode => exact absurd hdecode (hother c fragment)
      · rfl
    rw [handleMessage_refused hverifier now h.twin.unknown hdata]
    exact h

omit [F32 F] in
theorem ownDisconnect (h : Alike env.reassembler u t₀ J st st') :
    Alike env.reassembler u t₀ J (st.dropClient ws u) st' := by
  obtain ⟨⟨hunknown, hacks, hpongs, hworld⟩, -, t, hmask, ht⟩ := h.twin
  unfold TickState.dropClient
  rw [hunknown, AList.erase_of_lookup_eq_none hunknown]
  exact ⟨⟨⟨hunknown, hacks, hpongs, hworld⟩, rfl, t, hmask, ht.forget_own⟩, h.indist⟩

/-- An event of `u` itself is as good as deleted. -/
theorem ownEvent (hra : env.reassembler.Independent u) (hverifier : env.verifier.RefusesSilently)
    (h : Alike env.reassembler u t₀ J st st') {tick : UInt64} (now : Instant)
    {event : NetworkEvent F} (hsender : event.sender = some u)
    (hraw : ∀ raw ∈ st.delivered env event, ¬ st.Accepts env tick raw) :
    Alike env.reassembler u t₀ J (st.handleEvent env ws tick now event) st' := by
  cases event with
  | fragment c fragment =>
    obtain rfl := Option.some.inj hsender
    exact h.ownFragment hra hverifier now hraw
  | unreliableMessage c data =>
    obtain rfl := Option.some.inj hsender
    exact h.ownRaw hra hverifier now hraw
  | reliableMessage c data =>
    obtain rfl := Option.some.inj hsender
    exact h.ownRaw hra hverifier now hraw
  | clientDisconnected c | disconnected c | sessionClosed c | streamReset c =>
    obtain rfl := Option.some.inj hsender
    exact h.ownDisconnect
  | ping c t =>
    -- a typed ping is answered to clients on record only
    obtain rfl := Option.some.inj hsender
    unfold TickState.handleEvent
    dsimp only
    rw [h.twin.unknown]
    exact h
  | _ => exact h

end Alike

end Own

/-! ## Batches -/

/-- The batch without the events of `u`. -/
def othersEvents (u : ClientId) (events : List (NetworkEvent F)) : List (NetworkEvent F) :=
  events.filter fun event => event.sender ≠ some u

/-- The tick in which nothing of `u` arrives. -/
def TickInput.without (u : ClientId) (input : TickInput F) : TickInput F :=
  { input with polled := input.polled.map (othersEvents u) }

/-- The batch consists of events of `u`, so that nothing is left of it. -/
def TickInput.Emptied (u : ClientId) (input : TickInput F) : Prop :=
  ∃ events, input.polled = .ok events ∧ events ≠ [] ∧ othersEvents u events = []

/-- The end of stage 2. -/
def TickState.settle (env : ServerEnv A R F) (ws : WorldState W F) (st : TickState W A R) :
    TickState W A R :=
  { st with
    world := ws.applyUpdates st.world st.updates
    sched := { st.sched with reassembler := env.reassembler.prune st.sched.reassembler } }

section Batches

variable {env : ServerEnv A R F} {ws : WorldState W F} {u : ClientId} {t₀ : Option Instant}
  {J : W → Prop} {st st' : TickState W A R}

theorem Alike.settle (hJ : Spares ws u J) (h : Alike env.reassembler u t₀ J st st') :
    Alike env.reassembler u t₀ J (st.settle env ws) (st'.settle env ws) := by
  have hworld : ws.applyUpdates st'.world st'.updates = ws.applyUpdates st.world st.updates := by
    rw [h.twin.world_eq, h.twin.updates_eq]
  unfold TickState.settle
  rw [hworld]
  exact ((h.twin.withReassembler _ _).withWorld (hJ.applyUpdates _ _ h.twin.world)).toAlike
    h.indist.prune

/-- If only events of `u` have arrived, the end of the stage can as well be left out. -/
theorem Alike.settle_own (hnil : ∀ w, ws.applyUpdates w [] = w)
    (hprune : env.reassembler.PrunesSilently u) (h : Alike env.reassembler u t₀ J st st')
    (hupdates : st'.updates = []) : Alike env.reassembler u t₀ J (st.settle env ws) st' := by
  obtain ⟨⟨hunknown, hacks, hpongs, hworld⟩, -, t, hmask, ht⟩ := h.twin
  have hsame : ws.applyUpdates st.world st.updates = st.world := by
    rw [← h.twin.updates_eq, hupdates, hnil]
  unfold TickState.settle
  rw [hsame]
  exact ⟨⟨⟨hunknown, hacks, hpongs, hworld⟩, rfl, t, hmask, ht⟩, (hprune _).trans h.indist⟩

variable [F32 F]

theorem Alike.handleEvents (hJ : Spares ws u J) (hra : env.reassembler.Independent u)
    (hverifier : env.verifier.RefusesSilently) (tick : UInt64) (now : Instant)
    (events : List (NetworkEvent F)) (h : Alike env.reassembler u t₀ J st st')
    (hraw : ∀ before event after, events = before ++ event :: after → event.sender = some u →
      ∀ raw ∈ (before.foldl (TickState.handleEvent env ws tick now) st).delivered env event,
        ¬ (before.foldl (TickState.handleEvent env ws tick now) st).Accepts env tick raw) :
    Alike env.reassembler u t₀ J (events.foldl (TickState.handleEvent env ws tick now) st)
      ((othersEvents u events).foldl (TickState.handleEvent env ws tick now) st') := by
  induction events generalizing st st' with
  | nil => exact h
  | cons event events ih =>
    have hrest : ∀ before event' after, events = before ++ event' :: after →
        event'.sender = some u →
        ∀ raw ∈ ((event :: before).foldl (TickState.handleEvent env ws tick now) st).delivered env
            event',
          ¬ ((event :: before).foldl (TickState.handleEvent env ws tick now) st).Accepts env tick
            raw := by
      intro before event' after hevents
      exact hraw (event :: before) event' after (by rw [hevents, List.cons_append])
    unfold othersEvents
    by_cases hsender : event.sender = some u
    · rw [List.filter_cons_of_neg (by simp [hsender])]
      exact ih (h.ownEvent hra hverifier now hsender (hraw [] event events rfl hsender)) hrest
    · rw [List.filter_cons_of_pos (by simp [hsender])]
      exact ih (h.handleEvent hJ tick now hsender) hrest

end Batches

/-! ## Stages -/

/-- In this tick `u` sends no token that is accepted. -/
def TickInput.Refused [F32 F] (env : ServerEnv A R F) (ws : WorldState W F) (u : ClientId)
    (s : TickScheduler A R) (world : W) (input : TickInput F) : Prop :=
  ∀ before event after, input.polled = .ok (before ++ event :: after) → event.sender = some u →
    ∀ raw ∈ (midTick env ws s world input.now before).delivered env event,
      ¬ (midTick env ws s world input.now before).Accepts env s.currentTick raw

section Stages

variable {env : ServerEnv A R F} {ws : WorldState W F} {u : ClientId} {t₀ : Option Instant}
  {J : W → Prop} {s s' : TickScheduler A R} {w w' : W} {st st' : TickState W A R}

theorem Silent.start (hunknown : s.authenticatedClients.lookup u = none) (hw : J w) :
    Silent u J (.start s w : TickState W A R) :=
  ⟨hunknown, List.not_mem_nil, nofun, hw⟩

theorem Alike.start_eq {ra : Reassembler R} (h : Alike ra u t₀ J (.start s w) (.start s' w')) :
    ∃ r t, s' = s.mask r t ∧ w' = w ∧ StampsAlike u t₀ s.authTimestamps t ∧
      ra.Indist u s.reassembler r := by
  obtain ⟨t, hmask, ht⟩ := h.twin.mask
  exact ⟨s'.reassembler, t, congrArg TickState.sched hmask, h.twin.world_eq, ht, h.indist⟩

theorem kickClients_updates (cs : List ClientId) (st : TickState W A R) :
    (cs.foldl (kickClient ws) st).updates = st.updates := by
  induction cs generalizing st with
  | nil => rfl
  | cons c cs ih =>
    rw [List.foldl_cons, ih]
    unfold kickClient dropClient
    dsimp only
    split <;> rfl

variable [F32 F]

theorem midTick_nil_updates (s : TickScheduler A R) (w : W) (now : Instant) :
    (midTick env ws s w now []).updates = [] := by
  unfold midTick
  dsimp only
  rw [List.foldl_nil]
  split
  · exact kickClients_updates _ _
  · rfl

theorem receiveStage_eq_midTick (s : TickScheduler A R) (w : W) (now : Instant)
    (events : List (NetworkEvent F)) :
    receiveStage env ws s.currentTick now { s with currentTick := s.currentTick + 1 }
        (preStage ws s w) events =
      if events.isEmpty then midTick env ws s w now []
      else (midTick env ws s w now events).settle env ws := rfl

omit [F32 F] in
theorem preStage_spares (hJ : Spares ws u J) (hw : J w) (s : TickScheduler A R) :
    J (preStage ws s w) := by
  unfold preStage
  dsimp only
  split
  · exact hJ.stressTest _ _ _ (hJ.advanceTick w hw)
  · exact hJ.advanceTick w hw

omit [F32 F] in
theorem Twin.periodicValidation {r r' : R} (hJ : Spares ws u J) (h : Twin u t₀ J r r' st st')
    (tick : UInt64) :
    Twin u t₀ J r r' (if tick % 60 = 0 then st.validateSessions env ws tick else st)
      (if tick % 60 = 0 then st'.validateSessions env ws tick else st') := by
  by_cases htick : tick % 60 = 0
  · rw [if_pos htick, if_pos htick]
    exact h.validateSessions env hJ tick
  · rw [if_neg htick, if_neg htick]
    exact h

omit [F32 F] in
theorem Alike.advance (hJ : Spares ws u J)
    (h : Alike env.reassembler u t₀ J (.start s w) (.start s' w')) :
    Alike env.reassembler u t₀ J
      (.start { s with currentTick := s.currentTick + 1 } (preStage ws s w))
      (.start { s' with currentTick := s'.currentTick + 1 } (preStage ws s' w')) := by
  have hunknown : s.authenticatedClients.lookup u = none := h.twin.unknown
  have hworld := preStage_spares hJ h.twin.world s
  obtain ⟨r, t, rfl, rfl, ht, hi⟩ := h.start_eq
  exact ⟨⟨.start hunknown hworld, rfl, t, rfl, ht⟩, hi⟩

theorem Alike.midTick_nil (hJ : Spares ws u J)
    (h : Alike env.reassembler u t₀ J (.start s w) (.start s' w')) (now : Instant) :
    Alike env.reassembler u t₀ J (midTick env ws s w now []) (midTick env ws s' w' now []) := by
  have hpre := h.advance hJ
  obtain ⟨r, t, rfl, rfl, -⟩ := h.start_eq
  exact (hpre.twin.periodicValidation hJ s.currentTick).toAlike hpre.indist

variable {events : List (NetworkEvent F)} {now : Instant}

theorem Alike.midTick (hJ : Spares ws u J) (hra : env.reassembler.Independent u)
    (hverifier : env.verifier.RefusesSilently)
    (h : Alike env.reassembler u t₀ J (.start s w) (.start s' w'))
    (hraw : TickInput.Refused env ws u s w ⟨.ok events, now⟩) :
    Alike env.reassembler u t₀ J (midTick env ws s w now events)
      (midTick env ws s' w' now (othersEvents u events)) := by
  have hnil := h.midTick_nil hJ now
  obtain ⟨r, t, rfl, rfl, -⟩ := h.start_eq
  refine hnil.handleEvents hJ hra hverifier s.currentTick now events ?_
  intro before event after hevents
  exact hraw before event after (congrArg Except.ok hevents)

theorem Alike.receiveStage (hJ : Spares ws u J) (hnil : ∀ w, ws.applyUpdates w [] = w)
    (hra : env.reassembler.Independent u) (hverifier : env.verifier.RefusesSilently)
    (h : Alike env.reassembler u t₀ J (.start s w) (.start s' w'))
    (hraw : TickInput.Refused env ws u s w ⟨.ok events, now⟩)
    (hprune : TickInput.Emptied u ⟨.ok events, now⟩ → env.reassembler.PrunesSilently u) :
    Alike env.reassembler u t₀ J
      (receiveStage env ws s.currentTick now { s with currentTick := s.currentTick + 1 }
        (preStage ws s w) events)
      (receiveStage env ws s'.currentTick now { s' with currentTick := s'.currentTick + 1 }
        (preStage ws s' w') (othersEvents u events)) := by
  have hmid := h.midTick hJ hra hverifier hraw
  rw [receiveStage_eq_midTick, receiveStage_eq_midTick]
  by_cases hevents : events = []
  · subst hevents
    exact hmid
  · rw [if_neg (by simpa using hevents)]
    by_cases hothers : othersEvents u events = []
    · -- without the events of `u` the batch is empty and stage 2 is skipped
      rw [hothers] at hmid ⊢
      exact hmid.settle_own hnil (hprune ⟨events, rfl, hevents, hothers⟩)
        (midTick_nil_updates s' w' now)
    · rw [if_neg (by simpa using hothers)]
      exact hmid.settle hJ

end Stages

/-! ## Sending -/

section Sending

variable (env : ServerEnv A R F) {ws : WorldState W F} {u : ClientId} {t₀ : Option Instant}
  {J : W → Prop} {st st' : TickState W A R}

theorem fragmentAndSend_mask (s : TickScheduler A R) (data : Bytes) (cs : List ClientId) (r : R)
    (t : ClientId → Option Instant) :
    fragmentAndSend env (s.mask r t) data cs =
      ((fragmentAndSend env s data cs).1.mask r t, (fragmentAndSend env s data cs).2) := by
  unfold fragmentAndSend
  cases hout : s.hasOutbound <;> simp [TickScheduler.mask, hout]

theorem sendBatch_mask (batches : Batches) (s : TickScheduler A R) (sent : List OutboundMessage)
    (c : ClientId) (r : R) (t : ClientId → Option Instant) :
    sendBatch env batches (s.mask r t, sent) c =
      ((sendBatch env batches (s, sent) c).1.mask r t, (sendBatch env batches (s, sent) c).2) := by
  unfold sendBatch
  cases encodeBatch env c ((batches.lookup c).getD []) with
  | error e => rfl
  | ok data =>
    dsimp only
    by_cases hsize : maxSafePayloadSize < data.length
    · rw [if_pos hsize, if_pos hsize, fragmentAndSend_mask]
    · rw [if_neg hsize, if_neg hsize]
      cases hout : s.hasOutbound <;> simp [TickScheduler.mask, hout]

theorem sendBatches_mask (batches : Batches) (cs : List ClientId)
    (acc : TickScheduler A R × List OutboundMessage) (r : R) (t : ClientId → Option Instant) :
    cs.foldl (sendBatch env batches) (acc.1.mask r t, acc.2) =
      ((cs.foldl (sendBatch env batches) acc).1.mask r t,
        (cs.foldl (sendBatch env batches) acc).2) := by
  induction cs generalizing acc with
  | nil => rfl
  | cons c cs ih => rw [List.foldl_cons, List.foldl_cons, sendBatch_mask, ih]

theorem sendStage_mask (st : TickState W A R) (r : R) (t : ClientId → Option Instant) :
    sendStage env ws (st.mask r t) =
      (((sendStage env ws st).1.1.mask r t, (sendStage env ws st).1.2),
        (sendStage env ws st).2) := by
  unfold sendStage sendDeltas
  dsimp only [TickState.mask]
  have hfold := fun (batches : Batches) cs => sendBatches_mask env batches cs (st.sched, []) r t
  dsimp only at hfold
  rw [show (st.sched.mask r t).authenticatedClients = st.sched.authenticatedClients from rfl, hfold]
  rfl

theorem sendStage_spares (hJ : Spares ws u J) (hw : J st.world) : J (sendStage env ws st).1.2 :=
  hJ.postExtract _ (hJ.extractReliableEvents _ (hJ.extractDeltas _ (hJ.simulate _ hw)))

theorem sendStage_sched (ws : WorldState W F) (st : TickState W A R) :
    ∃ m, (sendStage env ws st).1.1 = { st.sched with nextMessageId := m } :=
  sendBatches_sched env _ _ _

theorem Alike.sendStage (hJ : Spares ws u J) (h : Alike env.reassembler u t₀ J st st') :
    Alike env.reassembler u t₀ J
        (.start (sendStage env ws st).1.1 (sendStage env ws st).1.2)
        (.start (sendStage env ws st').1.1 (sendStage env ws st').1.2) ∧
      (sendStage env ws st').2 = (sendStage env ws st).2 := by
  obtain ⟨htwin, hi⟩ := h
  generalize st'.sched.reassembler = r at htwin hi
  obtain ⟨⟨hunknown, -, -, hworld⟩, -, t, rfl, ht⟩ := htwin
  have hworld := sendStage_spares env hJ hworld
  obtain ⟨m, hm⟩ := sendStage_sched env ws st
  have hclients : (sendStage env ws st).1.1.authenticatedClients.lookup u = none := by
    rw [hm]
    exact hunknown
  have hstamps : StampsAlike u t₀ (sendStage env ws st).1.1.authTimestamps t := by
    rw [hm]
    exact ht
  have htwin : Twin u t₀ J st.sched.reassembler r
      (.start (sendStage env ws st).1.1 (sendStage env ws st).1.2)
      (.start ((sendStage env ws st).1.1.mask r t) (sendStage env ws st).1.2) :=
    ⟨.start hclients hworld, by rw [hm]; rfl, t, rfl, hstamps⟩
  rw [sendStage_mask]
  exact ⟨htwin.toAlike hi, rfl⟩

end Sending

/-! ## Runs -/

/-- In the whole run `u` sends no token that is accepted. -/
def NeverAccepted [F32 F] (env : ServerEnv A R F) (ws : WorldState W F) (u : ClientId)
    (s : TickScheduler A R) (world : W) (inputs : List (TickInput F)) : Prop :=
  ∀ earlier input later, inputs = earlier ++ input :: later →
    input.Refused env ws u (runTicks env ws s world earlier).1.1
      (runTicks env ws s world earlier).1.2

section Runs

variable [F32 F] {env : ServerEnv A R F} {ws : WorldState W F} {u : ClientId}
  {t₀ : Option Instant} {J : W → Prop} {s s' : TickScheduler A R} {w w' : W}

variable {input : TickInput F}

theorem NeverAccepted.cons {inputs : List (TickInput F)}
    (h : NeverAccepted env ws u s w (input :: inputs)) :
    input.Refused env ws u s w ∧ NeverAccepted env ws u (tickStep env ws s w input).1.1
      (tickStep env ws s w input).1.2 inputs := by
  refine ⟨h [] input inputs rfl, fun earlier input' later hinputs => ?_⟩
  exact h (input :: earlier) input' later (by rw [hinputs, List.cons_append])

variable (hJ : Spares ws u J) (hnil : ∀ w, ws.applyUpdates w [] = w)
  (hra : env.reassembler.Independent u) (hverifier : env.verifier.RefusesSilently)
include hJ hnil hra hverifier

/-- One tick of the two runs. -/
theorem Alike.tick (h : Alike env.reassembler u t₀ J (.start s w) (.start s' w'))
    (hraw : input.Refused env ws u s w)
    (hprune : input.Emptied u → env.reassembler.PrunesSilently u) :
    Alike env.reassembler u t₀ J
        (.start (tickStep env ws s w input).1.1 (tickStep env ws s w input).1.2)
        (.start (tickStep env ws s' w' (input.without u)).1.1
          (tickStep env ws s' w' (input.without u)).1.2) ∧
      (tickStep env ws s' w' (input.without u)).2 = (tickStep env ws s w input).2 := by
  obtain ⟨polled, now⟩ := input
  cases polled with
  | error e => exact ⟨h.advance hJ, rfl⟩
  | ok events => exact (h.receiveStage hJ hnil hra hverifier hraw hprune).sendStage env hJ

theorem Alike.tick_spared (h : Alike env.reassembler u t₀ J (.start s w) (.start s' w'))
    (hevents : ∀ w, J w → ∀ ev ∈ (ws.extractReliableEvents w).2, ev.1 ≠ some u)
    (hraw : input.Refused env ws u s w)
    (hprune : input.Emptied u → env.reassembler.PrunesSilently u) :
    Spared u ((tickStep env ws s w input).2.direct ++ (tickStep env ws s w input).2.outbound) := by
  obtain ⟨polled, now⟩ := input
  cases polled with
  | error e => exact nofun
  | ok events =>
    exact sendStage_spared env hJ hevents
      (h.receiveStage hJ hnil hra hverifier hraw hprune).twin.toSilent

theorem Alike.ticks (inputs : List (TickInput F))
    (h : Alike env.reassembler u t₀ J (.start s w) (.start s' w'))
    (hraw : NeverAccepted env ws u s w inputs)
    (hprune : ∀ input ∈ inputs, input.Emptied u → env.reassembler.PrunesSilently u) :
    Alike env.reassembler u t₀ J
        (.start (runTicks env ws s w inputs).1.1 (runTicks env ws s w inputs).1.2)
        (.start (runTicks env ws s' w' (inputs.map (·.without u))).1.1
          (runTicks env ws s' w' (inputs.map (·.without u))).1.2) ∧
      (runTicks env ws s' w' (inputs.map (·.without u))).2 = (runTicks env ws s w inputs).2 := by
  induction inputs generalizing s s' w w' with
  | nil => exact ⟨h, rfl⟩
  | cons input inputs ih =>
    obtain ⟨hfirst, hrest⟩ := hraw.cons
    obtain ⟨hp, hps⟩ := List.forall_mem_cons.mp hprune
    obtain ⟨hnext, hout⟩ := h.tick hJ hnil hra hverifier hfirst hp
    obtain ⟨hfinal, houts⟩ := ih hnext hrest hps
    exact ⟨hfinal, congrArg₂ List.cons hout houts⟩

theorem Alike.ticks_spared
    (hevents : ∀ w, J w → ∀ ev ∈ (ws.extractReliableEvents w).2, ev.1 ≠ some u)
    (inputs : List (TickInput F)) (h : Alike env.reassembler u t₀ J (.start s w) (.start s' w'))
    (hraw : NeverAccepted env ws u s w inputs)
    (hprune : ∀ input ∈ inputs, input.Emptied u → env.reassembler.PrunesSilently u) :
    ∀ out ∈ (runTicks env ws s w inputs).2, Spared u (out.direct ++ out.outbound) := by
  induction inputs generalizing s s' w w' with
  | nil => exact nofun
  | cons input inputs ih =>
    obtain ⟨hfirst, hrest⟩ := hraw.cons
    obtain ⟨hp, hps⟩ := List.forall_mem_cons.mp hprune
    have hnext := (h.tick hJ hnil hra hverifier hfirst hp).1
    refine List.forall_mem_cons.mpr ⟨?_, ih hnext hrest hps⟩
    exact h.tick_spared hJ hnil hra hverifier hevents hfirst hp

end Runs

/-! ## The engine -/

theorem spares_true (ws : WorldState W F) (u : ClientId) : Spares ws u fun _ => True := by
  constructor <;> intros <;> trivial

open BevyWorldAdapter in
theorem spares_quiet [F32 F] (P : Platform F) (u : ClientId) :
    Spares (bevyWorldState P) u (Quiet u) where
  advanceTick a h := h.of_announces (advanceTick_moves a).setup (.of_eq rfl)
  stressTest a count rotate h :=
    h.of_announces (stressTest_grows P a count rotate).setup
      (.of_eq (stressTest_reliableEvents P a count rotate))
  despawnNetworked a n h :=
    h.of_announces (despawnNetworked_moves a n).setup (despawnNetworked_evolves [] a n).queue
  spawnKindFor a kind x y rot c h :=
    h.of_announces (spawnKindFor_moves a kind x y rot c).setup
      (.of_eq (spawnKindFor_reliableEvents a kind x y rot c))
  spawnSessionAgent a kind x y rot c h := by
    obtain ⟨-, b, -, -, hmoves, -, -, -, -, -, hsetup⟩ := spawnSessionAgent_spec a kind x y rot c
    exact h.of_announces (hmoves.setup.trans hsetup)
      (.of_eq (spawnSessionAgent_reliableEvents a kind x y rot c))
  queueReliableEvent a c event hc h := h.queueReliableEvent (by simpa using hc) event
  clearWorld a h := by
    obtain ⟨b, -, -, -, hsetup⟩ := clearWorld_spec P a
    exact h.of_announces hsetup (clearWorld_evolves P a).queue
  applyUpdates a updates h := h.applyUpdates updates
  simulate a h := by
    dsimp only [bevyWorldState]
    exact h.simulate P
  extractDeltas a h := h.of_announces (extractDeltas_moves P a).setup (.of_eq rfl)
  extractReliableEvents a h := h.extractReliableEvents
  postExtract a h := h.of_announces (postExtract_moves a).setup (.of_eq rfl)

/-- Take a run of the engine, from any state, in which `u` is not on record at the start and sends
no token that is accepted. Without the events of `u` the run ends in the same world with the same
client map and the same login times (up to a login time of `u` that was there at the start), and
every tick has the same output. If nothing was queued for `u` at the start, nothing is sent to it.

A batch that has only events of `u` still prunes the reassembler, and an empty batch does not;
`hprune` says that in this case a prune is not noticed. -/
theorem unauthenticated_noninterference [F32 F] (P : Platform F) (env : ServerEnv A R F)
    (u : ClientId) (hra : env.reassembler.Independent u)
    (hverifier : env.verifier.RefusesSilently) (s : TickScheduler A R) (a : BevyWorldAdapter F)
    (inputs : List (TickInput F)) (hunknown : s.authenticatedClients.lookup u = none)
    (hraw : NeverAccepted env (bevyWorldState P) u s a inputs)
    (hprune : ∀ input ∈ inputs, input.Emptied u → env.reassembler.PrunesSilently u) :
    let run := runTicks env (bevyWorldState P) s a inputs
    let run' := runTicks env (bevyWorldState P) s a (inputs.map (·.without u))
    run'.1.2 = run.1.2 ∧
      run'.1.1.authenticatedClients = run.1.1.authenticatedClients ∧
      (∀ c, c ≠ u ∨ s.authTimestamps u = none →
        run'.1.1.authTimestamps c = run.1.1.authTimestamps c) ∧
      run'.2 = run.2 ∧
      (a.Quiet u → ∀ out ∈ run.2, ∀ m ∈ out.direct ++ out.outbound, ¬ m.Reaches u) := by
  intro run run'
  have hnil : ∀ a, (bevyWorldState P).applyUpdates a [] = a := fun _ => rfl
  have hstart : ∀ {J : BevyWorldAdapter F → Prop}, J a →
      Alike env.reassembler u (s.authTimestamps u) J (.start s a) (.start s a) :=
    fun ha => .refl env.reassembler (Silent.start hunknown ha)
  obtain ⟨hfinal, houts⟩ := (hstart trivial).ticks (spares_true _ u) hnil hra hverifier inputs
    hraw hprune
  refine ⟨hfinal.twin.world_eq, hfinal.twin.clients_eq, fun c hc => ?_, houts, fun ha => ?_⟩
  · obtain ⟨r, t, hs, -, hstamps, -⟩ := hfinal.start_eq
    have ht : run'.1.1.authTimestamps = t := congrArg TickScheduler.authTimestamps hs
    rw [ht]
    rcases hc with hne | hnone
    · exact hstamps.others c hne
    · rw [hnone] at hstamps
      rw [hstamps.eq_of_none]
  · exact (hstart ha).ticks_spared (spares_quiet P u) hnil hra hverifier
      (fun b hb ev hev => hb.queue ev hev) inputs hraw hprune

/-! ## A stranger -/

theorem neverAccepted_of_events [F32 F] {env : ServerEnv A R F} {ws : WorldState W F} {u : ClientId}
    {s : TickScheduler A R} {w : W} {inputs : List (TickInput F)}
    (h : ∀ input ∈ inputs, ∀ events, input.polled = .ok events →
      ∀ event ∈ events, event.sender = some u → ∀ (st : TickState W A R) tick,
        ∀ raw ∈ st.delivered env event, ¬ st.Accepts env tick raw) :
    NeverAccepted env ws u s w inputs := by
  rintro earlier input later rfl before event after hpolled hsender raw hraw
  exact h input (by simp) _ hpolled event (by simp) hsender _ _ raw hraw

theorem emptyAdapter_quiet (u : ClientId) : BevyWorldAdapter.emptyAdapter.Quiet u where
  queue := nofun
  replicators := BevyWorldAdapter.platformReplicators_announces rationalPlatform
  hook := nofun

/-- Puts two fragments of a client together. The first one survives a single prune. -/
def halfReassembler : Reassembler (ClientId → Option (Bool × Bytes)) :=
  .perClient
    (fun
      | some (_, first), fragment => (none, some (first ++ fragment.payload))
      | none, fragment => (some (true, fragment.payload), none))
    (fun
      | some (true, first) => some (false, first)
      | _ => none)

def halfEnv : ServerEnv Unit (ClientId → Option (Bool × Bytes)) ℚ :=
  { byteEnv with reassembler := halfReassembler }

theorem halfEnv_independent (u : ClientId) : halfEnv.reassembler.Independent u := by
  show halfReassembler.Independent u
  exact Reassembler.perClient_independent _ _

theorem halfEnv_refusesSilently : halfEnv.verifier.RefusesSilently := fun _ _ _ _ _ => rfl

/-- A run of `halfEnv` from the empty world, with an outbound channel. -/
def halfRun (inputs : List (TickInput ℚ)) :
    (TickScheduler Unit (ClientId → Option (Bool × Bytes)) × BevyWorldAdapter ℚ) ×
      List (TickOutput (BevyWorldAdapter ℚ)) :=
  runTicks halfEnv (bevyWorldState rationalPlatform) (.initial 60 () (fun _ => none) true false)
    BevyWorldAdapter.emptyAdapter inputs

/-- Client 9 tries an empty token and asks for a session, while client 1 logs in and starts one. -/
def strangerInputs : List (TickInput ℚ) :=
  [⟨.ok [.reliableMessage ⟨9⟩ [4], .reliableMessage ⟨1⟩ [0], .ping ⟨9⟩ 0,
      .reliableMessage ⟨9⟩ [2], .reliableMessage ⟨1⟩ [2]], 0⟩,
    ⟨.ok [.clientDisconnected ⟨9⟩, .ping ⟨1⟩ 5], 1⟩]

theorem strangerInputs_neverAccepted {ws : WorldState W ℚ}
    {s : TickScheduler Unit (ClientId → Option (Bool × Bytes))} {w : W} :
    NeverAccepted halfEnv ws ⟨9⟩ s w strangerInputs := by
  refine neverAccepted_of_events fun input hinput events hevents event hevent hsender st tick => ?_
  rintro raw hraw ⟨token, session, hdecode, haccepted⟩
  have hcase : raw = [4] ∨ raw = [2] := by
    simp only [strangerInputs, List.mem_cons, List.not_mem_nil, or_false] at hinput
    rcases hinput with rfl | rfl
    · obtain rfl := Except.ok.inj hevents
      simp only [List.mem_cons, List.not_mem_nil, or_false] at hevent
      rcases hevent with rfl | rfl | rfl | rfl | rfl <;>
        simp_all [delivered, halfEnv, byteEnv, NetworkEvent.sender]
    · obtain rfl := Except.ok.inj hevents
      simp only [List.mem_cons, List.not_mem_nil, or_false] at hevent
      rcases hevent with rfl | rfl <;> simp_all [delivered, NetworkEvent.sender]
  rcases hcase with rfl | rfl
  · obtain rfl : "" = token := by simpa [halfEnv, byteEnv] using hdecode
    simp [halfEnv, byteEnv] at haccepted
  · simp [halfEnv, byteEnv] at hdecode

theorem strangerInputs_not_emptied : ∀ input ∈ strangerInputs, ¬ input.Emptied ⟨9⟩ := by
  rintro input hinput ⟨events, hevents, -, hothers⟩
  simp only [strangerInputs, List.mem_cons, List.not_mem_nil, or_false] at hinput
  rcases hinput with rfl | rfl <;>
  · obtain rfl := Except.ok.inj hevents
    simp [othersEvents, NetworkEvent.sender] at hothers

theorem noninterference_stranger :
    (halfRun (strangerInputs.map (·.without ⟨9⟩))).1.2 = (halfRun strangerInputs).1.2 ∧
      (halfRun (strangerInputs.map (·.without ⟨9⟩))).2 = (halfRun strangerInputs).2 ∧
      (halfRun strangerInputs).2.map (·.outbound) =
        [[.reliable ⟨1⟩ [], .unreliable ⟨1⟩ []], [.unreliable ⟨1⟩ []]] ∧
      ∀ out ∈ (halfRun strangerInputs).2, ∀ m ∈ out.direct ++ out.outbound, ¬ m.Reaches ⟨9⟩ := by
  have h := unauthenticated_noninterference rationalPlatform halfEnv ⟨9⟩ (halfEnv_independent _)
    halfEnv_refusesSilently (.initial 60 () (fun _ => none) true false)
    BevyWorldAdapter.emptyAdapter strangerInputs rfl strangerInputs_neverAccepted
    fun input hinput hemptied => absurd hemptied (strangerInputs_not_emptied input hinput)
  rw [show runTicks _ _ _ _ strangerInputs = halfRun strangerInputs from rfl,
    show runTicks _ _ _ _ (strangerInputs.map _) =
      halfRun (strangerInputs.map (·.without ⟨9⟩)) from rfl] at h
  obtain ⟨hworld, -, -, houts, hsent⟩ := h
  exact ⟨hworld, houts, by decide +kernel, hsent (emptyAdapter_quiet _)⟩

/-- Client 1 sends a token in two fragments; in between, client 9 sends a ping. -/
def pingInputs : List (TickInput ℚ) :=
  [⟨.ok [.fragment ⟨1⟩ ⟨0, 0, 2, []⟩], 0⟩, ⟨.ok [.ping ⟨9⟩ 0], 1⟩,
    ⟨.ok [.fragment ⟨1⟩ ⟨0, 1, 2, [0]⟩], 2⟩]

/-- Client 9 has a login time but no record. -/
def staleScheduler : TickScheduler Unit (ClientId → Option (Bool × Bytes)) :=
  { TickScheduler.initial 60 () (fun _ => none) true false with
    authTimestamps := Function.update (fun _ => none) ⟨9⟩ (some 0) }

/-- What is excluded, with client 9 as the stranger: an event that is already queued for it is sent
to it; its disconnect removes a login time it has from before; and a batch with nothing but its ping
prunes the first half of the token of client 1, which is then not logged in. -/
theorem noninterference_fails :
    (runTicks halfEnv (bevyWorldState rationalPlatform)
        (.initial 60 () (fun _ => none) true false)
        (BevyWorldAdapter.emptyAdapter.queueReliableEvent (some ⟨9⟩) (.possession ⟨1⟩))
        [⟨.ok [], 0⟩]).2.map (·.outbound) = [[.reliable ⟨9⟩ []]] ∧
      (let inputs : List (TickInput ℚ) := [⟨.ok [.clientDisconnected ⟨9⟩], 0⟩]
        let run := fun inputs => runTicks halfEnv (bevyWorldState rationalPlatform) staleScheduler
          BevyWorldAdapter.emptyAdapter inputs
        NeverAccepted halfEnv (bevyWorldState rationalPlatform) ⟨9⟩ staleScheduler
            BevyWorldAdapter.emptyAdapter inputs ∧
          (run inputs).1.1.authTimestamps ⟨9⟩ = none ∧
          (run (inputs.map (·.without ⟨9⟩))).1.1.authTimestamps ⟨9⟩ = some 0) ∧
      NeverAccepted halfEnv (bevyWorldState rationalPlatform) ⟨9⟩
          (.initial 60 () (fun _ => none) true false) BevyWorldAdapter.emptyAdapter pingInputs ∧
        (halfRun pingInputs).1.1.authenticatedClients.lookup ⟨1⟩ = none ∧
        (halfRun (pingInputs.map (·.without ⟨9⟩))).1.1.authenticatedClients.lookup ⟨1⟩ =
          some (⟨"alice", "alice"⟩, none) := by
  refine ⟨by decide +kernel, ⟨?_, by decide +kernel, by decide +kernel⟩, ?_, by decide +kernel,
    by decide +kernel⟩
  · refine neverAccepted_of_events fun input hinput events hevents event hevent _ st tick => ?_
    rw [List.mem_singleton.mp hinput] at hevents
    obtain rfl := Except.ok.inj hevents
    rw [List.mem_singleton.mp hevent]
    exact nofun
  · refine neverAccepted_of_events ?_
    intro input hinput events hevents event hevent hsender st tick
    simp only [pingInputs, List.mem_cons, List.not_mem_nil, or_false] at hinput
    rcases hinput with rfl | rfl | rfl <;>
    · obtain rfl := Except.ok.inj hevents
      rw [List.mem_singleton.mp hevent] at hsender ⊢
      simp_all [delivered, NetworkEvent.sender]

end Aetheris
