import Aetheris.EcsBevy.Ownership
import Aetheris.Server.Agents
import Aetheris.Server.Departures

/-!
# Ownership and sessions

A client comes to own entities in two ways. `StartSession` spawns its agent, which is put on record
and despawned with the session. `Spawn`, a playground command, spawns an entity for the client that
nobody remembers: it is still there, and still owned, when the client is gone
(`ownership_outlives_session`). A client that never has a `Spawn` granted owns at most the agent on
record for it, so it owns nothing whenever it is off the record, and nothing that exists at such a
moment will ever be its own again (`ownership_ends_with_session`).
-/

namespace Aetheris

open BevyWorldAdapter Ecs Function TickState

variable {A R F : Type}

namespace TickState

/-- Whatever belongs to `c` is its agent on record, and not older than the handle `first`. -/
def Holds (c : ClientId) (first : Nat) (st : TickState (BevyWorldAdapter F) A R) : Prop :=
  StandsFor c first (recordedAgent st.sched.authenticatedClients c) st.world

/-- The message is a `Spawn` that the server grants to `c`. -/
def GrantsSpawn {W : Type} (env : ServerEnv A R F) (c : ClientId) (st : TickState W A R)
    (raw : Bytes) : Prop :=
  ∃ r, st.sched.authenticatedClients.lookup c = some r ∧
    canRunPlaygroundCommand env r.1.jti = true ∧
    ∃ client kind x y rot, env.encoder.decodeEvent raw = .ok (.spawn client kind x y rot)

end TickState

theorem sendStage_world {W : Type} (env : ServerEnv A R F) (ws : WorldState W F)
    (st : TickState W A R) :
    (sendStage env ws st).1.2 = ws.postExtract (ws.extractReliableEvents
      (ws.extractDeltas (ws.simulate st.world)).1).1 := rfl

/-! ## Handlers -/

namespace TickState.Holds

variable [F32 F] {P : Platform F} {env : ServerEnv A R F} {c : ClientId} {first : Nat}
  {st st' : TickState (BevyWorldAdapter F) A R}

omit [F32 F] in
theorem of_eq (h : st.Holds c first) (hworld : st'.world = st.world)
    (hclients : st'.sched.authenticatedClients = st.sched.authenticatedClients) :
    st'.Holds c first := by
  unfold Holds at h ⊢
  rw [hworld, hclients]
  exact h

omit [F32 F] in
/-- The world changes without a grant to `c`, and its record stays. -/
theorem of_grantsNothing (h : st.Holds c first) (hg : GrantsNothing c st.world st'.world)
    (hagent : recordedAgent st'.sched.authenticatedClients c =
      recordedAgent st.sched.authenticatedClients c) : st'.Holds c first := by
  unfold Holds
  rw [hagent]
  exact StandsFor.of_grantsNothing h hg

theorem dropClient (h : st.Holds c first) (c' : ClientId) :
    (st.dropClient (bevyWorldState P) c').Holds c first := by
  unfold Holds at h ⊢
  rw [dropClient_clients, dropClient_world, recordedAgent_erase]
  by_cases hc : c = c'
  · subst hc
    rw [update_self]
    exact StandsFor.despawn h
  · rw [update_of_ne hc]
    cases recordedAgent st.sched.authenticatedClients c' with
    | none => exact h
    | some n => exact StandsFor.of_grantsNothing h (.despawnNetworked c st.world n)

theorem kickClients (h : st.Holds c first) (cs : List ClientId) :
    (cs.foldl (kickClient (bevyWorldState P)) st).Holds c first := by
  induction cs generalizing st with
  | nil => exact h
  | cons c' cs ih => exact ih ((h.dropClient c').of_eq rfl rfl)

theorem validateSessions (h : st.Holds c first) (tick : UInt64) :
    (st.validateSessions env (bevyWorldState P) tick).Holds c first := by
  refine kickClients ?_ _
  exact h

variable {c' : ClientId} {now : Instant} {raw : Bytes} {tick : UInt64}

theorem login (h : st.Holds c first) {session : VerifiedSession}
    (hnone : st.sched.authenticatedClients.lookup c' = none) :
    (st.login env (bevyWorldState P) now c' session).Holds c first := by
  have hkicked := h.kickClients (P := P) (oldClients env st.sched.authenticatedClients c' session)
  unfold TickState.login Holds at *
  dsimp only
  rw [recordedAgent_insert_none session]
  · exact hkicked
  · rw [lookup_kickClients]
    split
    · rfl
    · exact hnone

theorem handleUnauthenticated (h : st.Holds c first) (raw : Bytes)
    (hnone : st.sched.authenticatedClients.lookup c' = none) :
    (st.handleUnauthenticated env (bevyWorldState P) tick now c' raw).Holds c first := by
  unfold TickState.handleUnauthenticated
  split
  · dsimp only
    split
    · refine login ?_ ?_
      · exact h
      · exact hnone
    · exact h
  · exact h

theorem queuePossession (h : st.Holds c first) (c' : ClientId) (n : NetworkId) :
    (st.queuePossession (bevyWorldState P) c' n).Holds c first :=
  h.of_grantsNothing (.queueReliableEvent c _ _ _) rfl

theorem startSession (h : st.Holds c first) (c' : ClientId) :
    (st.startSession (bevyWorldState P) c').Holds c first := by
  unfold TickState.startSession
  split
  · exact h.queuePossession c' _
  · next session hrecord =>
    refine queuePossession ?_ c' _
    unfold Holds at h ⊢
    dsimp only
    rw [recordedAgent_setAgent, hrecord]
    by_cases hc : c = c'
    · subst hc
      rw [update_self]
      rw [recordedAgent, hrecord] at h
      exact StandsFor.spawnOwnAgent 1 0.0 0.0 0.0 h
    · rw [update_of_ne hc]
      exact StandsFor.spawnOtherAgent 1 0.0 0.0 0.0 h hc
  · exact h

theorem clearWorld (h : st.Holds c first) (c' : ClientId) :
    (st.clearWorld (bevyWorldState P) c').Holds c first :=
  StandsFor.clearWorld P h _

/-- Only a `Spawn` of `c` itself can give it something that is not on record. -/
theorem handleProtocol (h : st.Holds c first) {r : ClientRecord}
    (hrecord : st.sched.authenticatedClients.lookup c' = some r)
    (hraw : c' = c → ¬ st.GrantsSpawn env c raw) :
    (st.handleProtocol env (bevyWorldState P) c' r.1.jti raw).Holds c first := by
  unfold TickState.handleProtocol
  split
  · exact h
  · split
    · exact h.of_grantsNothing (.stressTest P c _ _ _) rfl
    · exact h
  · next client kind x y rot hdecode =>
    split
    · next hcan =>
      have hne : c ≠ c' := by
        rintro rfl
        exact hraw rfl ⟨r, hrecord, hcan, client, kind, x, y, rot, hdecode⟩
      refine h.of_grantsNothing ?_ rfl
      exact .spawnKindFor st.world kind x y rot c' (StandsFor.toSound h).coherent hne
    · exact h
  · exact h.startSession c'
  · split
    · exact h.clearWorld c'
    · exact h
  · exact h.of_grantsNothing (.queueReliableEvent c _ _ _) rfl
  · exact h
  · exact h
  · split <;> exact h

theorem handleMessage (h : st.Holds c first) (hraw : c' = c → ¬ st.GrantsSpawn env c raw) :
    (st.handleMessage env (bevyWorldState P) tick now c' raw).Holds c first := by
  unfold TickState.handleMessage
  cases hrecord : st.sched.authenticatedClients.lookup c' with
  | none => exact h.handleUnauthenticated raw hrecord
  | some r =>
    dsimp only
    split
    · refine handleProtocol ?_ ?_ ?_
      · exact h
      · exact hrecord
      · exact hraw
    · refine dropClient ?_ c'
      exact h

theorem handleEvent (h : st.Holds c first) {event : NetworkEvent F}
    (hraw : event.sender = some c → ∀ raw ∈ st.delivered env event, ¬ st.GrantsSpawn env c raw) :
    (st.handleEvent env (bevyWorldState P) tick now event).Holds c first := by
  have heffect := handleEvent_effect env (bevyWorldState P) tick now st event
  generalize st.handleEvent env (bevyWorldState P) tick now event = st' at heffect ⊢
  cases heffect with
  | message c' raw r hsender hdelivered =>
    refine handleMessage ?_ fun hc => ?_
    · exact h
    · exact hraw (hc ▸ hsender) raw hdelivered
  | kept r => exact h
  | drop c' hsender => exact h.dropClient c'
  | pong pongs => exact h

theorem preStage {s : TickScheduler A R} {a : BevyWorldAdapter F}
    (h : (start s a).Holds c first) :
    (start { s with currentTick := s.currentTick + 1 }
      (preStage (bevyWorldState P) s a)).Holds c first := by
  have htick : GrantsNothing c a a.advanceTick := .advanceTick c a
  have hpre : GrantsNothing c a (Aetheris.preStage (bevyWorldState P) s a) := by
    unfold Aetheris.preStage bevyWorldState
    dsimp only
    generalize a.advanceTick = b at htick ⊢
    split
    · exact htick.trans (.stressTest P c b _ _)
    · exact htick
  exact h.of_grantsNothing hpre rfl

/-- The simulation and the extraction at the end of a tick. -/
theorem sendStage (h : st.Holds c first) :
    (start (sendStage env (bevyWorldState P) st).1.1
      (Aetheris.sendStage env (bevyWorldState P) st).1.2).Holds c first := by
  have hsim : GrantsNothing c st.world (st.world.simulate P) := .simulate P h.toSound.discreet c
  have hworld : GrantsNothing c st.world (Aetheris.sendStage env (bevyWorldState P) st).1.2 := by
    rw [sendStage_world, bevyWorldState_simulate]
    generalize st.world.simulate P = b at hsim ⊢
    refine hsim.trans ⟨?_, fun e he => he⟩
    exact ((extractDeltas_moves P b).trans (extractReliableEvents_moves _)).trans
      (postExtract_moves _)
  refine h.of_grantsNothing hworld ?_
  show recordedAgent (Aetheris.sendStage env (bevyWorldState P) st).1.1.authenticatedClients c = _
  rw [sendStage_clients]

theorem updatesApplied (h : st.Holds c first) :
    { st with
      world := (bevyWorldState P).applyUpdates st.world st.updates
      sched := { st.sched with
        reassembler := env.reassembler.prune st.sched.reassembler } }.Holds c first :=
  h.of_grantsNothing (.applyUpdates h.toSound.discreet c st.updates) rfl

end TickState.Holds

/-! ## Runs -/

section Runs

variable [F32 F] (P : Platform F) (env : ServerEnv A R F) (c : ClientId)

/-- No event of the batch brings a `Spawn` that is granted to `c`. -/
def NoSpawnGranted (s : TickScheduler A R) (a : BevyWorldAdapter F) (now : Instant)
    (events : List (NetworkEvent F)) : Prop :=
  ∀ before event after, events = before ++ event :: after → event.sender = some c →
    let st := midTick env (bevyWorldState P) s a now before
    ∀ raw ∈ st.delivered env event, ¬ st.GrantsSpawn env c raw

/-- In no tick of the run is a `Spawn` granted to `c`. -/
def NeverSpawns (s : TickScheduler A R) (a : BevyWorldAdapter F) (inputs : List (TickInput F)) :
    Prop :=
  ∀ earlier input later events, inputs = earlier ++ input :: later → input.polled = .ok events →
    let run := (runTicks env (bevyWorldState P) s a earlier).1
    NoSpawnGranted P env c run.1 run.2 input.now events

variable {P env c} {s : TickScheduler A R} {a : BevyWorldAdapter F} {first : Nat}

variable {before events : List (NetworkEvent F)} {earlier inputs : List (TickInput F)}
  {now time : Instant}

theorem NoSpawnGranted.take {rest : List (NetworkEvent F)}
    (h : NoSpawnGranted P env c s a now (events ++ rest)) : NoSpawnGranted P env c s a now events := by
  intro before event after hevents
  refine h before event (after ++ rest) ?_
  rw [hevents, List.append_assoc, List.cons_append]

/-- Further events of the same tick. -/
theorem holds_midTick_append (h : (midTick env (bevyWorldState P) s a now events).Holds c first)
    (more : List (NetworkEvent F)) (hspawn : NoSpawnGranted P env c s a now (events ++ more)) :
    (midTick env (bevyWorldState P) s a now (events ++ more)).Holds c first := by
  induction more using List.reverseRecOn with
  | nil =>
    rw [List.append_nil]
    exact h
  | append_singleton more event ih =>
    rw [← List.append_assoc] at hspawn ⊢
    rw [midTick_concat]
    exact (ih hspawn.take).handleEvent (hspawn (events ++ more) event [] rfl)

theorem holds_midTick (h : (start s a).Holds c first)
    (hspawn : NoSpawnGranted P env c s a now events) :
    (midTick env (bevyWorldState P) s a now events).Holds c first := by
  have hstart : (midTick env (bevyWorldState P) s a now []).Holds c first := by
    unfold midTick
    dsimp only
    split
    · exact h.preStage.validateSessions _
    · exact h.preStage
  exact holds_midTick_append hstart events hspawn

/-- The rest of the tick after its last event. -/
theorem holds_tickEnd (h : (midTick env (bevyWorldState P) s a now events).Holds c first) :
    (start (tickStep env (bevyWorldState P) s a ⟨.ok events, now⟩).1.1
      (tickStep env (bevyWorldState P) s a ⟨.ok events, now⟩).1.2).Holds c first := by
  unfold tickStep
  dsimp only
  refine Holds.sendStage ?_
  unfold receiveStage applyEvents
  unfold midTick at h
  dsimp only at h ⊢
  split
  · next hempty =>
    rw [List.isEmpty_iff.mp hempty] at h
    exact h
  · exact h.updatesApplied

theorem holds_tickStep (h : (start s a).Holds c first) {input : TickInput F}
    (hspawn : ∀ events, input.polled = .ok events →
      NoSpawnGranted P env c s a input.now events) :
    (start (tickStep env (bevyWorldState P) s a input).1.1
      (tickStep env (bevyWorldState P) s a input).1.2).Holds c first := by
  obtain ⟨polled, now⟩ := input
  cases polled with
  | error err => exact h.preStage
  | ok events => exact holds_tickEnd (holds_midTick h (hspawn events rfl))

theorem NeverSpawns.take {rest : List (TickInput F)}
    (h : NeverSpawns P env c s a (inputs ++ rest)) : NeverSpawns P env c s a inputs := by
  intro earlier input later events hinputs
  refine h earlier input (later ++ rest) events ?_
  rw [hinputs, List.append_assoc, List.cons_append]

theorem NeverSpawns.last (h : NeverSpawns P env c s a (inputs ++ [⟨.ok events, now⟩])) :
    NoSpawnGranted P env c (runTicks env (bevyWorldState P) s a inputs).1.1
      (runTicks env (bevyWorldState P) s a inputs).1.2 now events :=
  h inputs ⟨.ok events, now⟩ [] events rfl rfl

/-- Further ticks. -/
theorem holds_runTicks_append (h : (start (runTicks env (bevyWorldState P) s a inputs).1.1
      (runTicks env (bevyWorldState P) s a inputs).1.2).Holds c first)
    (more : List (TickInput F)) (hspawn : NeverSpawns P env c s a (inputs ++ more)) :
    (start (runTicks env (bevyWorldState P) s a (inputs ++ more)).1.1
      (runTicks env (bevyWorldState P) s a (inputs ++ more)).1.2).Holds c first := by
  induction more using List.reverseRecOn with
  | nil =>
    rw [List.append_nil]
    exact h
  | append_singleton more input ih =>
    rw [← List.append_assoc] at hspawn ⊢
    rw [runTicks_concat]
    exact holds_tickStep (ih hspawn.take) fun events hpolled =>
      hspawn (inputs ++ more) input [] events rfl hpolled

/-- The moment after the ticks `earlier` and the events `before` of the next one comes before the
moment after `inputs` and `events`. -/
def Precedes (earlier : List (TickInput F)) (before : List (NetworkEvent F)) (time : Instant)
    (inputs : List (TickInput F)) (events : List (NetworkEvent F)) (now : Instant) : Prop :=
  (earlier = inputs ∧ time = now ∧ ∃ more, events = before ++ more) ∨
    ∃ rest later, inputs = earlier ++ ⟨.ok (before ++ rest), time⟩ :: later

omit [F32 F] in
/-- Off the record, a client owns nothing. -/
theorem TickState.Holds.owns_nothing {st : TickState (BevyWorldAdapter F) A R}
    (h : st.Holds c first) (hoff : st.sched.authenticatedClients.lookup c = none) (e : Entity) :
    st.world.world.get e .networkOwner ≠ some c := by
  have hagent : recordedAgent st.sched.authenticatedClients c = none := by
    rw [recordedAgent, hoff]
    rfl
  unfold Holds at h
  rw [hagent] at h
  exact StandsFor.owns_nothing h e

omit [F32 F] in
theorem TickState.Holds.renew {st : TickState (BevyWorldAdapter F) A R} (h : st.Holds c first)
    (hoff : st.sched.authenticatedClients.lookup c = none) :
    st.Holds c st.world.world.ecs.next :=
  .of_owns_nothing h.toSound (h.owns_nothing hoff) _

/-- Up to an earlier moment no `Spawn` is granted either. -/
theorem Precedes.neverSpawns (hle : Precedes earlier before time inputs events now)
    (hspawn : NeverSpawns P env c s a (inputs ++ [⟨.ok events, now⟩])) :
    NeverSpawns P env c s a earlier ∧
      NoSpawnGranted P env c (runTicks env (bevyWorldState P) s a earlier).1.1
        (runTicks env (bevyWorldState P) s a earlier).1.2 time before := by
  rcases hle with ⟨rfl, rfl, more, rfl⟩ | ⟨rest, later, rfl⟩
  · exact ⟨hspawn.take, hspawn.last.take⟩
  · have hlater := hspawn.take
    rw [← List.singleton_append, ← List.append_assoc] at hlater
    exact ⟨hlater.take.take, hlater.take.last.take⟩

/-- What holds at a moment holds at every later one. -/
theorem holds_of_precedes (hspawn : NeverSpawns P env c s a (inputs ++ [⟨.ok events, now⟩]))
    (hle : Precedes earlier before time inputs events now)
    (h : (midTick env (bevyWorldState P) (runTicks env (bevyWorldState P) s a earlier).1.1
      (runTicks env (bevyWorldState P) s a earlier).1.2 time before).Holds c first) :
    (midTick env (bevyWorldState P) (runTicks env (bevyWorldState P) s a inputs).1.1
      (runTicks env (bevyWorldState P) s a inputs).1.2 now events).Holds c first := by
  rcases hle with ⟨rfl, rfl, more, rfl⟩ | ⟨rest, later, rfl⟩
  · exact holds_midTick_append h more hspawn.last
  · refine holds_midTick ?_ hspawn.last
    -- first the end of the tick in which the moment lies, then the later ticks
    have hlater := hspawn.take
    rw [← List.singleton_append, ← List.append_assoc] at hlater ⊢
    have hend := holds_tickEnd (holds_midTick_append h rest hlater.take.last)
    rw [← runTicks_concat] at hend
    exact holds_runTicks_append hend later hlater

/-- From any scheduler and any sound adapter in which nothing belongs to `c`, in every run in which
no `Spawn` is granted to `c`: whenever `c` is off the record, between ticks or between the events of
a batch, nothing belongs to it; and no update of `c` is ever let through for an entity that was there
at an earlier moment at which `c` was off the record. -/
theorem ownership_ends_with_session (hs : Sound a)
    (hfree : ∀ e, a.world.get e .networkOwner ≠ some c) {inputs : List (TickInput F)}
    {events : List (NetworkEvent F)} {now : Instant}
    (hspawn : NeverSpawns P env c s a (inputs ++ [⟨.ok events, now⟩])) :
    let run := (runTicks env (bevyWorldState P) s a inputs).1
    let st := midTick env (bevyWorldState P) run.1 run.2 now events
    (run.1.authenticatedClients.lookup c = none →
      ∀ e, run.2.world.get e .networkOwner ≠ some c) ∧
    (st.sched.authenticatedClients.lookup c = none →
      ∀ e, st.world.world.get e .networkOwner ≠ some c) ∧
    ∀ earlier before time, Precedes earlier before time inputs events now →
      let run₀ := (runTicks env (bevyWorldState P) s a earlier).1
      let st₀ := midTick env (bevyWorldState P) run₀.1 run₀.2 time before
      st₀.sched.authenticatedClients.lookup c = none →
      ∀ n e, e.id < st₀.world.world.ecs.next → st.world.bimap.Rel n e →
        (st.world.authorize c n e).2 = false := by
  intro run st
  have hstart : (start (runTicks env (bevyWorldState P) s a []).1.1
      (runTicks env (bevyWorldState P) s a []).1.2).Holds c a.world.ecs.next :=
    .of_owns_nothing hs hfree _
  have hruns : ∀ inputs, NeverSpawns P env c s a inputs →
      (start (runTicks env (bevyWorldState P) s a inputs).1.1
        (runTicks env (bevyWorldState P) s a inputs).1.2).Holds c a.world.ecs.next :=
    fun inputs h => holds_runTicks_append hstart inputs h
  have hrun := hruns inputs hspawn.take
  have hst : st.Holds c a.world.ecs.next := holds_midTick hrun hspawn.last
  refine ⟨fun hoff e => hrun.owns_nothing hoff e, fun hoff e => hst.owns_nothing hoff e, ?_⟩
  intro earlier before time hle run₀ st₀ hoff n e he hrel
  obtain ⟨hnever, hbatch⟩ := hle.neverSpawns hspawn
  have hst₀ : st₀.Holds c a.world.ecs.next := holds_midTick (hruns earlier hnever) hbatch
  have hlater := holds_of_precedes hspawn hle (hst₀.renew hoff)
  exact StandsFor.authorize_old hlater hrel he

end Runs

theorem byteEnv_never_spawns (raw : Bytes) (client : ClientId) (kind : UInt16) (x y rot : ℚ) :
    byteEnv.encoder.decodeEvent raw ≠ .ok (.spawn client kind x y rot) := by
  unfold byteEnv
  dsimp only
  split <;> nofun

/-- Client 1 gets its agent and disconnects. -/
theorem ownership_ends_with_session_leave :
    (byteRun aliceInputs).1.2.world.get ⟨2⟩ .networkOwner = some ⟨1⟩ ∧
      ∀ e, (byteRun leaveInputs).1.2.world.get e .networkOwner ≠ some ⟨1⟩ := by
  have hspawn : NeverSpawns rationalPlatform byteEnv ⟨1⟩ (.initial 60 () () false false)
      emptyAdapter (leaveInputs ++ [⟨.ok [], 2⟩]) := by
    intro earlier input later events _ _ run before event after _ _ st raw _
    rintro ⟨r, -, -, client, kind, x, y, rot, hdecode⟩
    exact byteEnv_never_spawns raw client kind x y rot hdecode
  have hfree : ∀ e, emptyAdapter.world.get e .networkOwner ≠ some ⟨1⟩ := by
    intro e
    rw [World.get_of_not_alive rfl]
    nofun
  have h := (ownership_ends_with_session emptyAdapter_ready.toSound hfree hspawn).1
  rw [← byteRun] at h
  exact ⟨by decide +kernel, h (by decide +kernel)⟩

/-- The codec of `byteEnv` with one more message, a `Spawn` of an agent. -/
def spawnEnv : ServerEnv Unit Unit ℚ :=
  { byteEnv with
    encoder := { byteEnv.encoder with
      decodeEvent := fun
        | [5] => .ok (.spawn ⟨0⟩ entityTypeAgent 0 0 0)
        | raw => byteEnv.encoder.decodeEvent raw } }

/-- Client 1 logs in, spawns an entity and disconnects. -/
def spawnInputs : List (TickInput ℚ) :=
  [⟨.ok [.reliableMessage ⟨1⟩ [0], .reliableMessage ⟨1⟩ [5]], 0⟩,
    ⟨.ok [.clientDisconnected ⟨1⟩], 1⟩]

/-- The entity is still owned by client 1 when it is off the record, and an update of a later
connection with the same identifier is let through for it. -/
theorem ownership_outlives_session :
    let run := (runTicks spawnEnv (bevyWorldState rationalPlatform) (.initial 60 () () false false)
      emptyAdapter spawnInputs).1
    run.1.authenticatedClients.lookup ⟨1⟩ = none ∧ run.2.world.alive ⟨2⟩ = true ∧
      run.2.world.get ⟨2⟩ .networkOwner = some ⟨1⟩ ∧
      let later := (tickStep spawnEnv (bevyWorldState rationalPlatform) run.1 run.2
        ⟨.ok [.clientConnected ⟨1⟩, .reliableMessage ⟨1⟩ [1]], 2⟩).1
      later.1.authenticatedClients.lookup ⟨1⟩ = some (⟨"bob", "bob"⟩, none) ∧
        later.2.bimap.getByLeft ⟨1⟩ = some ⟨2⟩ ∧ (later.2.authorize ⟨1⟩ ⟨1⟩ ⟨2⟩).2 = true := by
  decide +kernel

end Aetheris
