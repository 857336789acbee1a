import Aetheris.Server.Noninterference

/-!
# Clients that have left

The disconnect of a client takes it off the record. The scheduler keeps no account of connections,
though: `ClientConnected` has no effect on it, and a message is judged by the record alone. The
readers of a connection are tasks of their own, so a message can be queued behind the disconnect of
its sender. If it is an `Auth` with a good token, the client that left is authenticated again, and
no further disconnect will come (`late_auth`). Without such a message it stays off the record
(`departed_stay_away`).
-/

namespace Aetheris

open TickState

variable {W A R F : Type}

/-! ## Connections -/

/-- Whether `c` has left and not connected since, after one more event. -/
def goneAfter (c : ClientId) (gone : Bool) : NetworkEvent F → Bool
  | .clientDisconnected id | .disconnected id => gone || id = c
  | .clientConnected id => gone && id ≠ c
  | _ => gone

/-- Whether `c` has left and not connected since, after these events. -/
def gone (c : ClientId) (events : List (NetworkEvent F)) : Bool :=
  events.foldl (goneAfter c) false

/-- The events of a run, in the order in which they are processed. -/
def processedEvents (inputs : List (TickInput F)) : List (NetworkEvent F) :=
  inputs.flatMap fun input => match input.polled with
    | .ok events => events
    | .error _ => []

theorem gone_concat (c : ClientId) (events : List (NetworkEvent F)) (event : NetworkEvent F) :
    gone c (events ++ [event]) = goneAfter c (gone c events) event := by
  rw [gone, List.foldl_append]
  rfl

/-! ## Off the record -/

section Records

variable {env : ServerEnv A R F} {ws : WorldState W F} {c : ClientId} {st : TickState W A R}

theorem lookup_dropClient_of_none (h : st.sched.authenticatedClients.lookup c = none)
    (c' : ClientId) : (st.dropClient ws c').sched.authenticatedClients.lookup c = none := by
  rw [dropClient_clients]
  exact (AList.lookup_erase_of_eq_none h c')

variable [F32 F]

theorem lookup_startSession_of_none (h : st.sched.authenticatedClients.lookup c = none)
    (c' : ClientId) : (st.startSession ws c').sched.authenticatedClients.lookup c = none := by
  unfold startSession
  split
  · exact h
  · exact Twin.lookup_setAgent_of_none h c' _
  · exact h

/-- Nothing that a client on record asks for puts another client on record. -/
theorem lookup_handleProtocol_of_none (h : st.sched.authenticatedClients.lookup c = none)
    (c' : ClientId) (jti : String) (raw : Bytes) :
    (st.handleProtocol env ws c' jti raw).sched.authenticatedClients.lookup c = none := by
  unfold handleProtocol
  split
  · exact h
  · split <;> exact h
  · split <;> exact h
  · exact lookup_startSession_of_none h c'
  · split
    · exact Twin.lookup_setAgent_of_none h c' none
    · exact h
  · exact h
  · exact h
  · exact h
  · split <;> exact h

variable {c' : ClientId} {raw : Bytes} {tick : UInt64}

omit [F32 F] in
/-- A login puts the sender on record, and only with a token that is accepted. -/
theorem lookup_handleUnauthenticated_of_none
    (h : st.sched.authenticatedClients.lookup c = none) (now : Instant)
    (hraw : c' = c → ¬ st.Accepts env tick raw) :
    (st.handleUnauthenticated env ws tick now c' raw).sched.authenticatedClients.lookup c =
      none := by
  unfold handleUnauthenticated
  split
  · next token hdecode =>
    dsimp only
    split
    · next session hok =>
      have hne : c ≠ c' := fun heq => hraw heq.symm ⟨token, session, hdecode, hok⟩
      unfold login
      dsimp only
      rw [AList.lookup_insert_ne hne, lookup_kickClients]
      split
      · rfl
      · exact h
    · exact h
  · exact h

theorem lookup_handleMessage_of_none (h : st.sched.authenticatedClients.lookup c = none)
    (now : Instant)
    (hraw : c' = c → ¬ st.Accepts env tick raw) :
    (st.handleMessage env ws tick now c' raw).sched.authenticatedClients.lookup c = none := by
  unfold handleMessage
  split
  · dsimp only
    split
    · refine lookup_handleProtocol_of_none ?_ c' _ raw
      exact h
    · refine lookup_dropClient_of_none ?_ c'
      exact h
  · exact lookup_handleUnauthenticated_of_none h now hraw

/-- An event puts a client on record only if it brings an accepted token of that client. -/
theorem lookup_handleEvent_of_none (h : st.sched.authenticatedClients.lookup c = none)
    (now : Instant) {event : NetworkEvent F}
    (hraw : event.sender = some c → ∀ raw ∈ st.delivered env event, ¬ st.Accepts env tick raw) :
    (st.handleEvent env ws tick now event).sched.authenticatedClients.lookup c = none := by
  have heffect := handleEvent_effect env ws tick now st event
  generalize st.handleEvent env ws tick now event = st' at heffect
  cases heffect with
  | message c' raw r hsender hdelivered =>
    refine lookup_handleMessage_of_none ?_ now fun hc => ?_
    · exact h
    · exact hraw (hc ▸ hsender) raw hdelivered
  | kept r => exact h
  | drop c' hsender => exact lookup_dropClient_of_none h c'
  | pong pongs => exact h

omit [F32 F] in
theorem lookup_validateSessions_of_none (h : st.sched.authenticatedClients.lookup c = none)
    (tick : UInt64) :
    (st.validateSessions env ws tick).sched.authenticatedClients.lookup c = none := by
  unfold validateSessions
  dsimp only
  rw [lookup_kickClients]
  split
  · rfl
  · exact h

end Records

/-! ## Runs -/

section Runs

variable [F32 F] (env : ServerEnv A R F) (ws : WorldState W F)

/-- While `c` is gone, no message with an accepted token of `c` is processed. -/
def NoLateAuth (c : ClientId) (s : TickScheduler A R) (world : W) (inputs : List (TickInput F)) :
    Prop :=
  ∀ earlier input later before event after, inputs = earlier ++ input :: later →
    input.polled = .ok (before ++ event :: after) →
    gone c (processedEvents earlier ++ before) = true → event.sender = some c →
    let run := (runTicks env ws s world earlier).1
    let st := midTick env ws run.1 run.2 input.now before
    ∀ raw ∈ st.delivered env event, ¬ st.Accepts env run.1.currentTick raw

theorem runTicks_concat (s : TickScheduler A R) (world : W) (inputs : List (TickInput F))
    (input : TickInput F) :
    (runTicks env ws s world (inputs ++ [input])).1 =
      (tickStep env ws (runTicks env ws s world inputs).1.1 (runTicks env ws s world inputs).1.2
        input).1 := by
  induction inputs generalizing s world with
  | nil => rfl
  | cons input' inputs ih => exact ih _ _

omit [F32 F] in
/-- Sending changes no record. -/
theorem sendStage_clients (st : TickState W A R) :
    (sendStage env ws st).1.1.authenticatedClients = st.sched.authenticatedClients := by
  obtain ⟨m, hm⟩ := sendStage_sched env ws st
  rw [hm]

theorem tickStep_clients (s : TickScheduler A R) (world : W) (now : Instant)
    (events : List (NetworkEvent F)) :
    (tickStep env ws s world ⟨.ok events, now⟩).1.1.authenticatedClients =
      (midTick env ws s world now events).sched.authenticatedClients := by
  refine (sendStage_clients env ws _).trans ?_
  unfold receiveStage applyEvents midTick
  dsimp only
  split
  · next hempty => rw [List.isEmpty_iff.mp hempty]; rfl
  · rfl

variable {env ws} {c : ClientId} {s : TickScheduler A R} {world : W} {inputs : List (TickInput F)}

theorem NoLateAuth.init {input : TickInput F} (h : NoLateAuth env ws c s world (inputs ++ [input])) :
    NoLateAuth env ws c s world inputs := by
  intro earlier input' later before event after hinputs
  refine h earlier input' (later ++ [input]) before event after ?_
  rw [hinputs, List.append_assoc, List.cons_append]

omit [F32 F] in
/-- A client that is gone after an event was gone before, or the event is its disconnect. -/
theorem of_goneAfter {g : Bool} {event : NetworkEvent F} (h : goneAfter c g event = true) :
    g = true ∨ event = .clientDisconnected c ∨ event = .disconnected c := by
  cases event with
  | clientDisconnected id =>
    rcases (Bool.or_eq_true _ _).mp h with hg | hid
    · exact .inl hg
    · exact .inr (.inl (congrArg _ (of_decide_eq_true hid)))
  | disconnected id =>
    rcases (Bool.or_eq_true _ _).mp h with hg | hid
    · exact .inl hg
    · exact .inr (.inr (congrArg _ (of_decide_eq_true hid)))
  | clientConnected id => exact .inl ((Bool.and_eq_true _ _).mp h).1
  | _ => exact .inl h

/-- In the middle of the last tick, after some events of its batch. -/
theorem lookup_midTick_of_gone {input : TickInput F} {events : List (NetworkEvent F)}
    (hpolled : input.polled = .ok events)
    (hauth : NoLateAuth env ws c s world (inputs ++ [input]))
    (hstart : gone c (processedEvents inputs) = true →
      (runTicks env ws s world inputs).1.1.authenticatedClients.lookup c = none)
    (before after : List (NetworkEvent F)) (hevents : events = before ++ after)
    (hgone : gone c (processedEvents inputs ++ before) = true) :
    (midTick env ws (runTicks env ws s world inputs).1.1 (runTicks env ws s world inputs).1.2
      input.now before).sched.authenticatedClients.lookup c = none := by
  induction before using List.reverseRecOn generalizing after with
  | nil =>
    rw [List.append_nil] at hgone
    unfold midTick
    dsimp only
    split
    · exact lookup_validateSessions_of_none (hstart hgone) _
    · exact hstart hgone
  | append_singleton before event ih =>
    rw [← List.append_assoc, gone_concat] at hgone
    rw [midTick_concat]
    rw [List.append_assoc, List.singleton_append] at hevents
    rcases of_goneAfter hgone with hbefore | rfl | rfl
    · refine lookup_handleEvent_of_none (ih (event :: after) hevents hbefore) _ fun hsender => ?_
      exact hauth inputs input [] before event after rfl (by rw [hpolled, hevents]) hbefore hsender
    · show (dropClient ws _ c).sched.authenticatedClients.lookup c = none
      rw [dropClient_clients, AList.lookup_erase]
    · show (dropClient ws _ c).sched.authenticatedClients.lookup c = none
      rw [dropClient_clients, AList.lookup_erase]

/-- In every run in which no accepted token of a client is processed while it is gone, a client that
is gone is not on record at the end of any tick. -/
theorem departed_stay_away (hauth : NoLateAuth env ws c s world inputs)
    (hgone : gone c (processedEvents inputs) = true) :
    (runTicks env ws s world inputs).1.1.authenticatedClients.lookup c = none := by
  induction inputs using List.reverseRecOn with
  | nil => cases hgone
  | append_singleton inputs input ih =>
    rw [runTicks_concat]
    have hprocessed : processedEvents (inputs ++ [input]) =
        processedEvents inputs ++ processedEvents [input] := List.flatMap_append
    rw [hprocessed] at hgone
    cases hpolled : input.polled with
    | error err =>
      have hnone : processedEvents [input] = [] := by simp [processedEvents, hpolled]
      rw [hnone, List.append_nil] at hgone
      have hclients : (tickStep env ws (runTicks env ws s world inputs).1.1
          (runTicks env ws s world inputs).1.2 input).1.1.authenticatedClients =
          (runTicks env ws s world inputs).1.1.authenticatedClients := by
        simp only [tickStep, hpolled]
      rw [hclients]
      exact ih hauth.init hgone
    | ok events =>
      have hsome : processedEvents [input] = events := by simp [processedEvents, hpolled]
      rw [hsome] at hgone
      have hinput : input = ⟨.ok events, input.now⟩ := by rw [← hpolled]
      rw [hinput, tickStep_clients]
      exact lookup_midTick_of_gone hpolled hauth (ih hauth.init) events [] (by simp) hgone

end Runs

/-! ## A late message -/

/-- Client 7 logs in and leaves; the `StartSession` it had sent comes last. -/
def lateSessionInputs : List (TickInput ℚ) :=
  [⟨.ok [.clientConnected ⟨7⟩, .reliableMessage ⟨7⟩ [0]], 0⟩,
    ⟨.ok [.clientDisconnected ⟨7⟩, .reliableMessage ⟨7⟩ [2]], 1⟩]

theorem departed_stay_away_late_session :
    (byteRun (lateSessionInputs.take 1)).1.1.authenticatedClients.lookup ⟨7⟩ ≠ none ∧
      (byteRun lateSessionInputs).1.1.authenticatedClients.lookup ⟨7⟩ = none := by
  refine ⟨by decide +kernel, departed_stay_away ?_ (by decide +kernel)⟩
  intro earlier input later before event after hinputs hpolled hgone hsender
  rcases earlier with - | ⟨first, - | ⟨second, earlier⟩⟩
  · -- In the first tick client 7 is not gone yet.
    obtain ⟨rfl, -⟩ := List.cons.inj hinputs
    rcases before with - | ⟨e₁, - | ⟨e₂, before⟩⟩
    · cases hgone
    · obtain ⟨rfl, -⟩ := List.cons.inj (Except.ok.inj hpolled)
      cases hgone
    · simp at hpolled
  · obtain ⟨rfl, hrest⟩ := List.cons.inj hinputs
    obtain ⟨rfl, -⟩ := List.cons.inj hrest
    rcases before with - | ⟨e₁, - | ⟨e₂, before⟩⟩
    · obtain ⟨rfl, -⟩ := List.cons.inj (Except.ok.inj hpolled)
      rintro _ _ _ ⟨⟩
    · obtain ⟨-, hrest⟩ := List.cons.inj (Except.ok.inj hpolled)
      obtain ⟨rfl, -⟩ := List.cons.inj hrest
      rintro _ _ raw hraw ⟨token, session, hauth, -⟩
      obtain rfl : [2] = raw := Option.some.inj hraw
      cases hauth
    · simp at hpolled
  · simp [lateSessionInputs] at hinputs

/-- Client 7 leaves; the `Auth` it had sent comes last. It is on record, and stays there. -/
theorem late_auth :
    let inputs : List (TickInput ℚ) :=
      [⟨.ok [.clientConnected ⟨7⟩, .clientDisconnected ⟨7⟩], 0⟩,
        ⟨.ok [.reliableMessage ⟨7⟩ [0]], 1⟩, ⟨.ok [], 2⟩]
    gone ⟨7⟩ (processedEvents inputs) = true ∧
      (byteRun inputs).1.1.authenticatedClients.lookup ⟨7⟩ = some (⟨"alice", "alice"⟩, none) := by
  decide +kernel

end Aetheris
