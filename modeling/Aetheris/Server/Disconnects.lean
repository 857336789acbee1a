import Aetheris.Server.Departures

/-!
# Who is disconnected

Stage 6 of a tick disconnects the clients that `toDisconnect` lists. The list grows during the tick,
by the periodic validation and by logins that replace older sessions, and it is only read at the
end. Two things go wrong with it.

* Nothing takes a client off the list. A client that was kicked and logs in again in the same batch
  is on record at the end of the tick and is disconnected all the same (`disconnected_survivor`).
* A session that fails the check before a message is dropped from the record without being put on
  the list, which the other two removals do (`revoked_stays_connected`).
-/

namespace Aetheris

open TickState

variable {W A R F : Type}

/-! ## The list -/

section Listed

variable {env : ServerEnv A R F} {ws : WorldState W F} {tick : UInt64} {now : Instant}
  {st : TickState W A R} {c : ClientId}

/-- Nobody on the list is on record. -/
def NoneListed (st : TickState W A R) : Prop :=
  ∀ c ∈ st.toDisconnect, st.sched.authenticatedClients.lookup c = none

theorem dropClient_toDisconnect (st : TickState W A R) (c : ClientId) :
    (st.dropClient ws c).toDisconnect = st.toDisconnect := by
  unfold dropClient
  dsimp only
  split <;> rfl

theorem handleProtocol_toDisconnect [F32 F] (st : TickState W A R) (c : ClientId) (jti : String)
    (raw : Bytes) : (st.handleProtocol env ws c jti raw).toDisconnect = st.toDisconnect := by
  unfold handleProtocol
  split
  · rfl
  · split <;> rfl
  · split <;> rfl
  · unfold startSession
    split <;> rfl
  · split <;> rfl
  · rfl
  · rfl
  · rfl
  · split <;> rfl

/-- Whoever is kicked is off the record. -/
theorem kickClients_listed {cs : List ClientId}
    (hc : c ∈ (cs.foldl (kickClient ws) st).toDisconnect) :
    c ∈ st.toDisconnect ∨
      (cs.foldl (kickClient ws) st).sched.authenticatedClients.lookup c = none := by
  rw [kickClients_toDisconnect] at hc
  rcases List.mem_append.mp hc with hold | hkicked
  · exact .inl hold
  · right
    rw [lookup_kickClients, if_pos hkicked]

/-- A login lists the other clients of the player, which it has just taken off the record. -/
theorem login_listed {session : VerifiedSession} {c' : ClientId}
    (hc : c ∈ (st.login env ws now c' session).toDisconnect) :
    c ∈ st.toDisconnect ∨
      (st.login env ws now c' session).sched.authenticatedClients.lookup c = none := by
  have hlist : (st.login env ws now c' session).toDisconnect =
      st.toDisconnect ++ oldClients env st.sched.authenticatedClients c' session :=
    kickClients_toDisconnect ws _ st
  rw [hlist] at hc
  rcases List.mem_append.mp hc with hold | hkicked
  · exact .inl hold
  · right
    have hne : c ≠ c' := by
      obtain ⟨r, -, -, hne⟩ := (mem_oldClients env).mp hkicked
      exact hne
    unfold login
    dsimp only
    rw [AList.lookup_insert_ne hne, lookup_kickClients, if_pos hkicked]

theorem handleMessage_listed [F32 F] {raw : Bytes} {c' : ClientId}
    (hc : c ∈ (st.handleMessage env ws tick now c' raw).toDisconnect) :
    c ∈ st.toDisconnect ∨
      (st.handleMessage env ws tick now c' raw).sched.authenticatedClients.lookup c = none := by
  unfold handleMessage at hc ⊢
  cases hrecord : st.sched.authenticatedClients.lookup c' with
  | some r =>
    -- neither a dispatched message nor a failed check touches the list
    left
    rw [hrecord] at hc
    dsimp only at hc
    split at hc
    · rwa [handleProtocol_toDisconnect] at hc
    · rwa [dropClient_toDisconnect] at hc
  | none =>
    rw [hrecord] at hc
    dsimp only at hc ⊢
    unfold handleUnauthenticated at hc ⊢
    split at hc
    · next token hdecode =>
      dsimp only at hc ⊢
      split at hc
      · next session hok => exact login_listed hc
      · exact .inl hc
    · exact .inl hc

/-- Who is put on the list by an event is off the record after it. -/
theorem handleEvent_listed [F32 F] {event : NetworkEvent F}
    (hc : c ∈ (st.handleEvent env ws tick now event).toDisconnect) :
    c ∈ st.toDisconnect ∨
      (st.handleEvent env ws tick now event).sched.authenticatedClients.lookup c = none := by
  have heffect := handleEvent_effect env ws tick now st event
  generalize st.handleEvent env ws tick now event = st' at heffect hc ⊢
  cases heffect with
  | message c' raw r hsender hraw => exact handleMessage_listed hc
  | kept r => exact .inl hc
  | drop c' hsender =>
    rw [dropClient_toDisconnect] at hc
    exact .inl hc
  | pong pongs => exact .inl hc

end Listed

/-! ## Survivors -/

section Survivors

variable [F32 F] {env : ServerEnv A R F} {ws : WorldState W F}

/-- An event keeps the list and the record apart, unless it logs in a client that is listed. -/
theorem NoneListed.handleEvent {st : TickState W A R} (h : NoneListed st) {tick : UInt64}
    {now : Instant} {event : NetworkEvent F}
    (hauth : ∀ c ∈ st.toDisconnect, event.sender = some c →
      ∀ raw ∈ st.delivered env event, ¬ st.Accepts env tick raw) :
    NoneListed (st.handleEvent env ws tick now event) := by
  intro c hc
  rcases handleEvent_listed hc with hold | hgone
  · exact lookup_handleEvent_of_none (h c hold) now (hauth c hold)
  · exact hgone

omit [F32 F] in
theorem NoneListed.validateSessions {st : TickState W A R} (h : NoneListed st) (tick : UInt64) :
    NoneListed (st.validateSessions env ws tick) := by
  intro c hc
  unfold TickState.validateSessions at hc ⊢
  dsimp only at hc ⊢
  rcases kickClients_listed hc with hold | hgone
  · rw [lookup_kickClients]
    split
    · rfl
    · exact h c hold
  · exact hgone

/-- A tick disconnects whoever is listed after the last event of the batch. -/
theorem tickStep_disconnects (s : TickScheduler A R) (world : W) (now : Instant)
    (events : List (NetworkEvent F)) :
    (tickStep env ws s world ⟨.ok events, now⟩).2.disconnects =
      (midTick env ws s world now events).toDisconnect := by
  show (receiveStage env ws s.currentTick now { s with currentTick := s.currentTick + 1 }
    (preStage ws s world) events).toDisconnect = _
  unfold receiveStage applyEvents midTick
  dsimp only
  split
  · next hempty => rw [List.isEmpty_iff.mp hempty]; rfl
  · rfl

variable {s : TickScheduler A R} {world : W} {now : Instant} {events : List (NetworkEvent F)}

end Survivors

/-- The transport reports that `c` is gone. -/
def NetworkEvent.Leaves (c : ClientId) : NetworkEvent F → Prop
  | .clientDisconnected id | .disconnected id | .sessionClosed id | .streamReset id => id = c
  | _ => False

section Removals

variable {env : ServerEnv A R F} {ws : WorldState W F} {tick : UInt64} {now : Instant}
  {st : TickState W A R} {c : ClientId} {session : VerifiedSession}

/-- The verifier still takes the session for authorized. -/
def TickState.Authorized (env : ServerEnv A R F) (tick : UInt64) (st : TickState W A R)
    (session : VerifiedSession) : Prop :=
  (env.verifier.isSessionAuthorized st.sched.authService session.jti (some tick)).2 = true

theorem isSome_setAgent {records : Clients} (h : (records.lookup c).isSome = true)
    (agent : Option NetworkId) : ((setAgent records c agent).lookup c).isSome = true := by
  rw [lookup_setAgent, Option.isSome_map]
  exact h

variable [F32 F]

/-- No request takes its sender off the record. -/
theorem isSome_handleProtocol (h : (st.sched.authenticatedClients.lookup c).isSome = true)
    (jti : String) (raw : Bytes) :
    ((st.handleProtocol env ws c jti raw).sched.authenticatedClients.lookup c).isSome = true := by
  unfold handleProtocol
  split
  · exact h
  · split <;> exact h
  · split <;> exact h
  · unfold startSession
    split
    · exact h
    · exact isSome_setAgent h _
    · exact h
  · split
    · exact isSome_setAgent h none
    · exact h
  · exact h
  · exact h
  · exact h
  · split <;> exact h

variable {r : ClientRecord}

/-- A message of a client on record leaves it there if the session passes the check. -/
theorem isSome_handleMessage (hrecord : st.sched.authenticatedClients.lookup c = some r)
    (hauth : st.Authorized env tick r.1) (raw : Bytes) :
    ((st.handleMessage env ws tick now c raw).sched.authenticatedClients.lookup c).isSome =
      true := by
  have hsome : (st.sched.authenticatedClients.lookup c).isSome = true := by rw [hrecord]; rfl
  unfold Authorized at hauth
  unfold handleMessage
  rw [hrecord]
  dsimp only
  rw [if_pos hauth]
  refine isSome_handleProtocol ?_ _ raw
  exact hsome

theorem isSome_handleFragment {fragment : FragmentedEvent}
    (hrecord : st.sched.authenticatedClients.lookup c = some r)
    (hauth : ∀ raw ∈ (env.reassembler.ingest st.sched.reassembler c fragment).2,
      st.Authorized env tick r.1) :
    ((st.handleFragment env ws tick now c fragment).sched.authenticatedClients.lookup c).isSome =
      true := by
  unfold handleFragment
  cases hdata : (env.reassembler.ingest st.sched.reassembler c fragment).2 with
  | some raw =>
    dsimp only
    rw [hdata]
    refine isSome_handleMessage (r := r) ?_ ?_ raw
    · exact hrecord
    · exact hauth raw hdata
  | none =>
    dsimp only
    rw [hdata]
    show (st.sched.authenticatedClients.lookup c).isSome = true
    rw [hrecord]
    rfl

theorem isSome_handleRaw {data : Bytes} (hrecord : st.sched.authenticatedClients.lookup c = some r)
    (hauth : ∀ raw ∈ st.delivered env (.reliableMessage c data), st.Authorized env tick r.1) :
    ((st.handleRaw env ws tick now c data).sched.authenticatedClients.lookup c).isSome = true := by
  unfold delivered at hauth
  unfold handleRaw
  split
  · next c' fragment hdecode =>
    simp only [hdecode] at hauth
    exact isSome_handleFragment hrecord hauth
  · next hother =>
    refine isSome_handleMessage hrecord (hauth data ?_) data
    dsimp only
    split
    · next c' fragment hdecode => exact absurd hdecode (hother c' fragment)
    · rfl

/-- An event of the client itself removes its record only as a disconnect, if the session passes
the check whenever a complete message comes. -/
theorem isSome_handleEvent {event : NetworkEvent F}
    (hrecord : st.sched.authenticatedClients.lookup c = some r) (hsender : event.sender = some c)
    (hstays : ¬ event.Leaves c)
    (hauth : ∀ raw ∈ st.delivered env event, st.Authorized env tick r.1) :
    ((st.handleEvent env ws tick now event).sched.authenticatedClients.lookup c).isSome = true := by
  have hsome : (st.sched.authenticatedClients.lookup c).isSome = true := by rw [hrecord]; rfl
  cases event with
  | fragment c' fragment =>
    obtain rfl : c' = c := Option.some.inj hsender
    exact isSome_handleFragment hrecord hauth
  | unreliableMessage c' data =>
    obtain rfl : c' = c := Option.some.inj hsender
    exact isSome_handleRaw hrecord hauth
  | reliableMessage c' data =>
    obtain rfl : c' = c := Option.some.inj hsender
    exact isSome_handleRaw hrecord hauth
  | clientDisconnected c' | disconnected c' | sessionClosed c' | streamReset c' =>
    exact absurd (Option.some.inj hsender) hstays
  | ping c' t =>
    unfold handleEvent
    dsimp only
    split <;> exact hsome
  | _ => exact hsome

end Removals

section Runs

variable [F32 F] (env : ServerEnv A R F) (ws : WorldState W F)

/-- Whenever a complete message of a client on record is processed, its session is authorized. -/
def ChecksPass (s : TickScheduler A R) (world : W) (inputs : List (TickInput F)) : Prop :=
  ∀ earlier input later before event after, inputs = earlier ++ input :: later →
    input.polled = .ok (before ++ event :: after) →
    let run := (runTicks env ws s world earlier).1
    let st := midTick env ws run.1 run.2 input.now before
    ∀ c r, event.sender = some c → st.sched.authenticatedClients.lookup c = some r →
      ∀ raw ∈ st.delivered env event, st.Authorized env run.1.currentTick r.1

variable {env ws} {s : TickScheduler A R} {world : W}

variable {before : List (NetworkEvent F)} {c : ClientId} {now : Instant}

/-- What is listed in the middle of a tick is disconnected at its end. -/
theorem mem_disconnects_of_midTick (after : List (NetworkEvent F))
    (hc : c ∈ (midTick env ws s world now before).toDisconnect) :
    c ∈ (tickStep env ws s world ⟨.ok (before ++ after), now⟩).2.disconnects := by
  rw [tickStep_disconnects]
  unfold midTick
  dsimp only
  rw [List.foldl_append]
  exact Actions.toDisconnect_subset ws (handleEvents_actions env ws s.currentTick now after _) hc

omit [F32 F] in
/-- The periodic validation lists whom it removes. -/
theorem validateSessions_lists {st : TickState W A R} {tick : UInt64}
    (hrecord : c ∈ st.sched.authenticatedClients)
    (hgone : c ∉ (st.validateSessions env ws tick).sched.authenticatedClients) :
    c ∈ (st.validateSessions env ws tick).toDisconnect := by
  unfold validateSessions at hgone ⊢
  dsimp only at hgone ⊢
  rw [← AList.lookup_eq_none, lookup_kickClients] at hgone
  rw [kickClients_toDisconnect]
  refine List.mem_append_right _ ?_
  by_contra hnot
  rw [if_neg hnot] at hgone
  exact AList.lookup_eq_none.mp hgone hrecord

theorem midTick_nil_lists (hrecord : c ∈ s.authenticatedClients)
    (hgone : c ∉ (midTick env ws s world now []).sched.authenticatedClients) :
    c ∈ (midTick env ws s world now []).toDisconnect := by
  have hmid : midTick env ws s world now [] =
      if s.currentTick % 60 = 0 then
        (start { s with currentTick := s.currentTick + 1 } (preStage ws s world)).validateSessions
          env ws s.currentTick
      else .start { s with currentTick := s.currentTick + 1 } (preStage ws s world) := rfl
  rw [hmid] at hgone ⊢
  by_cases htick : s.currentTick % 60 = 0
  · rw [if_pos htick] at hgone ⊢
    exact validateSessions_lists hrecord hgone
  · rw [if_neg htick] at hgone
    exact absurd hrecord hgone

/-- An event lists whom it removes, a client whose disconnect it is apart. -/
theorem midTick_concat_lists {event : NetworkEvent F} (hauth : ∀ r, event.sender = some c →
      (midTick env ws s world now before).sched.authenticatedClients.lookup c = some r →
      ∀ raw ∈ (midTick env ws s world now before).delivered env event,
        (midTick env ws s world now before).Authorized env s.currentTick r.1)
    (hrecord : c ∈ (midTick env ws s world now before).sched.authenticatedClients)
    (hgone : c ∉ (midTick env ws s world now (before ++ [event])).sched.authenticatedClients)
    (hstays : ¬ event.Leaves c) :
    c ∈ (midTick env ws s world now (before ++ [event])).toDisconnect := by
  obtain ⟨⟨session, agent⟩, hlookup⟩ :=
    Option.isSome_iff_exists.mp (AList.lookup_isSome.mpr hrecord)
  rw [midTick_concat, ← AList.lookup_eq_none] at hgone
  rw [midTick_concat]
  by_cases hsender : event.sender = some c
  · -- its own event would have to be a disconnect
    have hsome : ((handleEvent env ws s.currentTick now _ event).sched.authenticatedClients.lookup
        c).isSome = true :=
      isSome_handleEvent hlookup hsender hstays (hauth _ hsender hlookup)
    rw [hgone] at hsome
    cases hsome
  · exact (kicked_of_handleEvent env ws s.currentTick now _ event hsender hlookup hgone).1

/-- In every run in which the session of a client on record passes the check before each of its
messages: whoever is removed by the periodic validation, and whoever is removed by an event that is
not its own disconnect, is disconnected in the same tick. -/
theorem removed_are_disconnected {inputs : List (TickInput F)}
    (h : ChecksPass env ws s world inputs) (earlier later : List (TickInput F))
    (events : List (NetworkEvent F)) (now : Instant)
    (hinputs : inputs = earlier ++ ⟨.ok events, now⟩ :: later) :
    let run := (runTicks env ws s world earlier).1
    let disconnects := (tickStep env ws run.1 run.2 ⟨.ok events, now⟩).2.disconnects
    (∀ c ∈ run.1.authenticatedClients,
        c ∉ (midTick env ws run.1 run.2 now []).sched.authenticatedClients → c ∈ disconnects) ∧
      ∀ before event after, events = before ++ event :: after →
        ∀ c ∈ (midTick env ws run.1 run.2 now before).sched.authenticatedClients,
          c ∉ (midTick env ws run.1 run.2 now (before ++ [event])).sched.authenticatedClients →
          ¬ event.Leaves c → c ∈ disconnects := by
  intro run disconnects
  refine ⟨fun c hrecord hgone => ?_, ?_⟩
  · have hmem := mem_disconnects_of_midTick events (midTick_nil_lists hrecord hgone)
    rwa [List.nil_append] at hmem
  · rintro before event after rfl c hrecord hgone hstays
    have hlisted := midTick_concat_lists
      (h earlier _ later before event after hinputs rfl c) hrecord hgone hstays
    have hmem := mem_disconnects_of_midTick after hlisted
    rwa [List.append_assoc, List.singleton_append] at hmem

end Runs

/-- Client 2 takes over the player of client 1 in a later tick. -/
theorem removed_are_disconnected_relogin :
    (⟨1⟩ : ClientId) ∈ (tickStep byteEnv (bevyWorldState rationalPlatform)
      (byteRun aliceInputs).1.1 (byteRun aliceInputs).1.2
      ⟨.ok [.reliableMessage ⟨2⟩ [0]], 1⟩).2.disconnects := by
  have hpass : ChecksPass byteEnv (bevyWorldState rationalPlatform)
      (.initial 60 () () false false) BevyWorldAdapter.emptyAdapter
      (aliceInputs ++ [⟨.ok [.reliableMessage ⟨2⟩ [0]], 1⟩]) := by
    intro earlier input later before event after _ _ run st c r _ _ raw _
    rfl
  have hrecord : (⟨1⟩ : ClientId) ∈ (midTick byteEnv (bevyWorldState rationalPlatform)
      (byteRun aliceInputs).1.1 (byteRun aliceInputs).1.2 1 []).sched.authenticatedClients := by
    decide +kernel
  have hgone : (⟨1⟩ : ClientId) ∉ (midTick byteEnv (bevyWorldState rationalPlatform)
      (byteRun aliceInputs).1.1 (byteRun aliceInputs).1.2 1
      [.reliableMessage ⟨2⟩ [0]]).sched.authenticatedClients := by decide +kernel
  have h := removed_are_disconnected hpass aliceInputs [] [.reliableMessage ⟨2⟩ [0]] 1 rfl
  rw [← byteRun] at h
  have hkicked := h.2 [] (.reliableMessage ⟨2⟩ [0]) [] rfl ⟨1⟩
  rw [List.nil_append] at hkicked
  exact hkicked hrecord hgone id

/-- A verifier that withdraws every session after tick 0. -/
def revokingEnv : ServerEnv Unit Unit ℚ :=
  { byteEnv with
    verifier := { byteEnv.verifier with
      isSessionAuthorized := fun auth _ tick => (auth, tick = some 0) } }

/-- Client 1 is on record when its session is withdrawn; its next message is the first thing the
server hears after that. Client 1 is off the record, and stays connected. -/
theorem revoked_stays_connected :
    let run := (runTicks revokingEnv (bevyWorldState rationalPlatform)
      (.initial 60 () () false false) BevyWorldAdapter.emptyAdapter aliceInputs).1
    let result := tickStep revokingEnv (bevyWorldState rationalPlatform) run.1 run.2
      ⟨.ok [.reliableMessage ⟨1⟩ [2]], 1⟩
    ⟨1⟩ ∈ run.1.authenticatedClients ∧ ⟨1⟩ ∉ result.1.1.authenticatedClients ∧
      result.2.disconnects = [] := by
  decide +kernel

end Aetheris
