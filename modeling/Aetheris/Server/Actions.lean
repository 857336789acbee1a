import Aetheris.Lib.Lookup
import Aetheris.Lib.Upheld
import Aetheris.Server.Tick
import Mathlib.Logic.Relation

/-!
# What a tick can do

A tick is a sequence of actions on the client map, the login times, the world, the list of clients
to disconnect and the trace. `Action` lists them once. Every event handler is decomposed into actions
here, and so is the whole tick (`tickStep_actions`); an invariant of runs is then proved by looking
at each action (`Sustained.of_runTicks`).
-/

namespace Aetheris

open Function Relation

variable {W A R F : Type} (env : ServerEnv A R F) (ws : WorldState W F) [F32 F]

/-- A change of the world alone. -/
inductive WorldAction : W → W → Prop where
  | advanceTick (w : W) : WorldAction w (ws.advanceTick w)
  | stressTest (w : W) (count : UInt16) (rotate : Bool) :
      WorldAction w (ws.stressTest w count rotate)
  | spawnKindFor (w : W) (kind : UInt16) (x y rot : F) (c : ClientId) :
      WorldAction w (ws.spawnKindFor w kind x y rot c).1
  | queueReliableEvent (w : W) (c : Option ClientId) (event : PlatformEvent) :
      WorldAction w (ws.queueReliableEvent w c event)
  | applyUpdates (w : W) (updates : List (ClientId × ComponentUpdate)) :
      WorldAction w (ws.applyUpdates w updates)
  | extractDeltas (w : W) : WorldAction w (ws.extractDeltas w).1
  | extractReliableEvents (w : W) : WorldAction w (ws.extractReliableEvents w).1
  | postExtract (w : W) : WorldAction w (ws.postExtract w)

namespace TickState

/-- The login of a client without a record, when no record has its player. -/
def record (st : TickState W A R) (now : Instant) (c : ClientId) (session : VerifiedSession) :
    TickState W A R :=
  { st with
    sched := { st.sched with
      authenticatedClients := st.sched.authenticatedClients.insert c (session, none)
      authTimestamps := Function.update st.sched.authTimestamps c (some now) } }

/-- The spawn of a session agent, put on record. -/
def spawnAgent (st : TickState W A R) (c : ClientId) : TickState W A R :=
  { st with
    world := (ws.spawnSessionAgent st.world 1 0.0 0.0 0.0 c).1
    sched := { st.sched with
      authenticatedClients := setAgent st.sched.authenticatedClients c
        (some (ws.spawnSessionAgent st.world 1 0.0 0.0 0.0 c).2) } }

/-- The simulation, with its observation. -/
def simulateWorld (st : TickState W A R) : TickState W A R :=
  { st with
    world := ws.simulate st.world
    trace := st.trace ++
      [.simulated st.world (ws.simulate st.world) st.sched.authenticatedClients] }

end TickState

open TickState

inductive Action : TickState W A R → TickState W A R → Prop where
  /-- Counters, buffers, the verifier or the reassembler. -/
  | other (st st' : TickState W A R)
      (hclients : st'.sched.authenticatedClients = st.sched.authenticatedClients)
      (hstamps : st'.sched.authTimestamps = st.sched.authTimestamps)
      (hworld : st'.world = st.world) (hdisconnect : st'.toDisconnect = st.toDisconnect)
      (htrace : st'.trace = st.trace) : Action st st'
  | world (st : TickState W A R) (w : W) (h : WorldAction ws st.world w) :
      Action st { st with world := w }
  | drop (st : TickState W A R) (c : ClientId) : Action st (st.dropClient ws c)
  | disconnect (st : TickState W A R) (c : ClientId) :
      Action st { st with toDisconnect := st.toDisconnect ++ [c] }
  | record (st : TickState W A R) (now : Instant) (c : ClientId) (session : VerifiedSession)
      (hnone : st.sched.authenticatedClients.lookup c = none)
      (hplayer : ∀ c' r, st.sched.authenticatedClients.lookup c' = some r →
        r.1.playerId ≠ session.playerId) :
      Action st (st.record now c session)
  | possess (st : TickState W A R) (c : ClientId) (session : VerifiedSession) (n : NetworkId)
      (h : st.sched.authenticatedClients.lookup c = some (session, some n)) :
      Action st (st.queuePossession ws c n)
  | spawnAgent (st : TickState W A R) (c : ClientId) (session : VerifiedSession)
      (h : st.sched.authenticatedClients.lookup c = some (session, none)) :
      Action st (st.spawnAgent ws c)
  | clear (st : TickState W A R) (c : ClientId) : Action st (st.clearWorld ws c)
  | simulate (st : TickState W A R) : Action st (st.simulateWorld ws)

abbrev Actions : TickState W A R → TickState W A R → Prop := ReflTransGen (Action ws)

/-! ## Records -/

omit [F32 F] in
theorem lookup_setAgent (records : Clients) (c c' : ClientId) (agent : Option NetworkId) :
    (setAgent records c agent).lookup c' =
      (records.lookup c').map fun r => if c' = c then (r.1, agent) else r := by
  unfold setAgent
  by_cases hc : c' = c
  · subst hc
    cases h : records.lookup c' with
    | none => exact h
    | some r =>
      have hmem : c' ∈ records := AList.lookup_isSome.mp (by rw [h]; rfl)
      dsimp only
      rw [AList.lookup_replace_self _ hmem, Option.map_some, if_pos rfl]
  · simp only [if_neg hc, Option.map_id']
    split
    · exact AList.lookup_replace_of_ne _ _ hc
    · rfl

omit [F32 F] in
theorem dropClient_clients (st : TickState W A R) (c : ClientId) :
    (st.dropClient ws c).sched.authenticatedClients = st.sched.authenticatedClients.erase c := by
  unfold dropClient
  dsimp only
  split <;> rfl

omit [F32 F] in
theorem dropClient_stamps (st : TickState W A R) (c : ClientId) :
    (st.dropClient ws c).sched.authTimestamps =
      update st.sched.authTimestamps c none := by
  unfold dropClient
  dsimp only
  split <;> rfl

/-- The agent on record for a client. -/
def recordedAgent (records : Clients) (c : ClientId) : Option NetworkId :=
  (records.lookup c).bind (·.2)

omit [F32 F] in
theorem recordedAgent_erase (records : Clients) (c : ClientId) :
    recordedAgent (records.erase c) = update (recordedAgent records) c none := by
  funext c'
  unfold recordedAgent
  by_cases hc : c' = c
  · subst hc
    rw [AList.lookup_erase, update_self]
    rfl
  · rw [AList.lookup_erase_ne hc, update_of_ne hc]

variable {c : ClientId} {records : Clients} {s : TickScheduler A R} {st st' : TickState W A R}

omit [F32 F] in
theorem recordedAgent_insert_none (session : VerifiedSession) (h : records.lookup c = none) :
    recordedAgent (records.insert c (session, none)) = recordedAgent records := by
  funext c'
  unfold recordedAgent
  by_cases hc : c' = c
  · subst hc
    rw [AList.lookup_insert, h]
    rfl
  · rw [AList.lookup_insert_ne hc]

omit [F32 F] in
theorem recordedAgent_setAgent (records : Clients) (c : ClientId) (agent : Option NetworkId) :
    recordedAgent (setAgent records c agent) = update (recordedAgent records) c
      ((records.lookup c).bind fun _ => agent) := by
  funext c'
  unfold recordedAgent
  rw [lookup_setAgent]
  by_cases hc : c' = c
  · subst hc
    rw [update_self]
    cases records.lookup c' with
    | none => rfl
    | some r => simp
  · rw [update_of_ne hc]
    simp only [if_neg hc, Option.map_id']

omit [F32 F] in
theorem dropClient_world (st : TickState W A R) (c : ClientId) :
    (st.dropClient ws c).world = (recordedAgent st.sched.authenticatedClients c).elim st.world
      fun n => (ws.despawnNetworked st.world n).1 := by
  unfold dropClient recordedAgent
  dsimp only
  cases h : st.sched.authenticatedClients.lookup c with
  | none => rfl
  | some r =>
    obtain ⟨session, _ | n⟩ := r
    · rfl
    · rfl

omit [F32 F] in
/-- Kicking a list of clients removes exactly their records. -/
theorem lookup_kickClients (cs : List ClientId) (st : TickState W A R) (c : ClientId) :
    (cs.foldl (kickClient ws) st).sched.authenticatedClients.lookup c =
      if c ∈ cs then none else st.sched.authenticatedClients.lookup c := by
  induction cs generalizing st with
  | nil => simp
  | cons c' cs ih =>
    rw [List.foldl_cons, ih]
    have hclients : (st.kickClient ws c').sched.authenticatedClients =
        st.sched.authenticatedClients.erase c' := dropClient_clients ws st c'
    rw [hclients]
    by_cases hc : c = c'
    · subst hc
      simp
    · rw [AList.lookup_erase_ne hc]
      simp [hc]

omit [F32 F] in
theorem mem_oldClients {id : ClientId} {session : VerifiedSession} :
    id ∈ oldClients env records c session ↔
      ∃ r, records.lookup id = some r ∧ r.1.playerId = session.playerId ∧ id ≠ c := by
  unfold oldClients
  rw [List.mem_filter, (env.clientOrder_perm _).mem_iff, ← AList.mem_keys]
  constructor
  · rintro ⟨-, h⟩
    split at h
    · next s agent hlookup =>
      simp only [Bool.and_eq_true, decide_eq_true_eq] at h
      exact ⟨_, hlookup, h.1, h.2⟩
    · cases h
  · rintro ⟨⟨s, agent⟩, hlookup, hplayer, hne⟩
    rw [hlookup]
    have hplayer : s.playerId = session.playerId := hplayer
    refine ⟨AList.lookup_isSome.mp (by rw [hlookup]; rfl), ?_⟩
    simp [hplayer, hne]

/-! ## Handlers as actions -/

theorem kickClients_actions (cs : List ClientId) (st : TickState W A R) :
    Actions ws st (cs.foldl (kickClient ws) st) := by
  induction cs generalizing st with
  | nil => exact .refl
  | cons c cs ih => exact .head (.drop st c) (.head (.disconnect _ c) (ih _))

theorem Actions.withAuth (auth : A)
    (h : Actions ws { st with sched := { st.sched with authService := auth } } st') :
    Actions ws st st' := by
  refine ReflTransGen.head ?_ h
  exact .other _ _ rfl rfl rfl rfl rfl

theorem Actions.withReassembler (reassembler : R)
    (h : Actions ws { st with sched := { st.sched with reassembler := reassembler } } st') :
    Actions ws st st' := by
  refine ReflTransGen.head ?_ h
  exact .other _ _ rfl rfl rfl rfl rfl

variable (tick : UInt64)

theorem validateSessions_actions (st : TickState W A R) :
    Actions ws st (st.validateSessions env ws tick) := by
  exact .withAuth ws _ (kickClients_actions ws _ _)

/-- The kicks of a login make room for its record. -/
theorem login_actions (now : Instant) (st : TickState W A R) (c : ClientId)
    (session : VerifiedSession) (h : st.sched.authenticatedClients.lookup c = none) :
    Actions ws st (st.login env ws now c session) := by
  refine (kickClients_actions ws (oldClients env st.sched.authenticatedClients c session) st).tail
    (.record _ now c session ?_ ?_)
  · rw [lookup_kickClients, h, ite_self]
  · intro c' r hr hplayer
    rw [lookup_kickClients] at hr
    split at hr
    · cases hr
    · next hold =>
      have hne : c' ≠ c := fun heq => by rw [heq, h] at hr; cases hr
      exact hold ((mem_oldClients env).mpr ⟨r, hr, hplayer, hne⟩)

theorem handleUnauthenticated_actions (now : Instant) (st : TickState W A R)
    (c : ClientId) (raw : Bytes) (h : st.sched.authenticatedClients.lookup c = none) :
    Actions ws st (st.handleUnauthenticated env ws tick now c raw) := by
  unfold handleUnauthenticated
  split
  · dsimp only
    split
    · exact .withAuth ws _ (login_actions env ws now _ c _ h)
    · exact .single (.other _ _ rfl rfl rfl rfl rfl)
  · exact .refl

theorem startSession_actions (st : TickState W A R) (c : ClientId) :
    Actions ws st (st.startSession ws c) := by
  unfold startSession
  split
  · next session n h => exact .single (.possess st c session n h)
  · next session h =>
    refine .head (.spawnAgent st c session h) (.single (.possess _ c session _ ?_))
    show (setAgent st.sched.authenticatedClients c _).lookup c = _
    rw [lookup_setAgent, h, Option.map_some, if_pos rfl]
  · exact .refl

theorem handleProtocol_actions (st : TickState W A R) (c : ClientId) (jti : String)
    (raw : Bytes) : Actions ws st (st.handleProtocol env ws c jti raw) := by
  unfold handleProtocol
  split
  · exact .single (.other _ _ rfl rfl rfl rfl rfl)
  · split
    · exact .single (.world st _ (.stressTest _ _ _))
    · exact .refl
  · split
    · exact .single (.world st _ (.spawnKindFor _ _ _ _ _ _))
    · exact .refl
  · exact startSession_actions ws st c
  · split
    · exact .single (.clear st c)
    · exact .refl
  · exact .single (.world st _ (.queueReliableEvent _ _ _))
  · exact .single (.other _ _ rfl rfl rfl rfl rfl)
  · exact .refl
  · split
    · exact .single (.other _ _ rfl rfl rfl rfl rfl)
    · exact .refl

theorem handleMessage_actions (now : Instant) (st : TickState W A R)
    (c : ClientId) (raw : Bytes) : Actions ws st (st.handleMessage env ws tick now c raw) := by
  unfold handleMessage
  split
  · next session agent h =>
    dsimp only
    split
    · exact .withAuth ws _ (handleProtocol_actions env ws _ c _ raw)
    · exact .withAuth ws _ (.single (.drop _ c))
  · next h => exact handleUnauthenticated_actions env ws tick now st c raw h

theorem handleFragment_actions (now : Instant) (st : TickState W A R)
    (c : ClientId) (fragment : FragmentedEvent) :
    Actions ws st (st.handleFragment env ws tick now c fragment) := by
  unfold handleFragment
  dsimp only
  split
  · exact .withReassembler ws _ (handleMessage_actions env ws tick now _ c _)
  · exact .withReassembler ws _ .refl

theorem handleRaw_actions (now : Instant) (st : TickState W A R) (c : ClientId)
    (data : Bytes) : Actions ws st (st.handleRaw env ws tick now c data) := by
  unfold handleRaw
  split
  · exact handleFragment_actions env ws tick now st c _
  · exact handleMessage_actions env ws tick now st c data

theorem handleEvent_actions (now : Instant) (st : TickState W A R)
    (event : NetworkEvent F) : Actions ws st (st.handleEvent env ws tick now event) := by
  unfold handleEvent
  split
  · exact handleFragment_actions env ws tick now st _ _
  · exact handleRaw_actions env ws tick now st _ _
  · exact handleRaw_actions env ws tick now st _ _
  · exact .single (.drop st _)
  · exact .single (.drop st _)
  · exact .single (.drop st _)
  · exact .single (.drop st _)
  · split
    · exact .single (.other _ _ rfl rfl rfl rfl rfl)
    · exact .refl
  · exact .refl

theorem handleEvents_actions (now : Instant) (events : List (NetworkEvent F))
    (st : TickState W A R) :
    Actions ws st (events.foldl (handleEvent env ws tick now) st) := by
  induction events generalizing st with
  | nil => exact .refl
  | cons event events ih => exact (handleEvent_actions env ws tick now st event).trans (ih _)

/-! ## The tick as actions -/

/-- The state a tick starts from. -/
def TickState.start (s : TickScheduler A R) (world : W) : TickState W A R :=
  ⟨s, world, [], [], [], [], []⟩

omit [F32 F] in
theorem sendBatch_sched (batches : Batches) (acc : TickScheduler A R × List OutboundMessage)
    (c : ClientId) : ∃ m, (sendBatch env batches acc c).1 = { acc.1 with nextMessageId := m } := by
  unfold sendBatch
  split
  · split
    · unfold fragmentAndSend
      dsimp only
      split
      · exact ⟨_, rfl⟩
      · exact ⟨acc.1.nextMessageId, rfl⟩
    · split <;> exact ⟨acc.1.nextMessageId, rfl⟩
  · exact ⟨acc.1.nextMessageId, rfl⟩

omit [F32 F] in
theorem sendBatches_sched (batches : Batches) (cs : List ClientId)
    (acc : TickScheduler A R × List OutboundMessage) :
    ∃ m, (cs.foldl (sendBatch env batches) acc).1 = { acc.1 with nextMessageId := m } := by
  induction cs generalizing acc with
  | nil => exact ⟨acc.1.nextMessageId, rfl⟩
  | cons c cs ih =>
    obtain ⟨m, hm⟩ := ih (sendBatch env batches acc c)
    obtain ⟨m', hm'⟩ := sendBatch_sched env batches acc c
    exact ⟨m, by rw [List.foldl_cons, hm, hm']⟩

/-- The end of stage 2. -/
theorem updatesApplied_actions (st : TickState W A R) :
    Actions ws st
      { st with
        world := ws.applyUpdates st.world st.updates
        sched := { st.sched with reassembler := env.reassembler.prune st.sched.reassembler } } :=
  .head (.world st _ (.applyUpdates _ st.updates)) (Actions.withReassembler ws _ .refl)

theorem applyEvents_actions (now : Instant) (st : TickState W A R)
    (events : List (NetworkEvent F)) : Actions ws st (st.applyEvents env ws tick now events) := by
  unfold applyEvents
  split
  · exact .refl
  · exact (handleEvents_actions env ws tick now events st).trans (updatesApplied_actions env ws _)

theorem receiveStage_actions (now : Instant) (s : TickScheduler A R) (world : W)
    (events : List (NetworkEvent F)) :
    Actions ws (.start s world) (receiveStage env ws tick now s world events) := by
  unfold receiveStage
  refine ReflTransGen.trans ?_ (applyEvents_actions env ws tick now _ events)
  split
  · exact validateSessions_actions env ws tick _
  · exact .refl

/-- The result of a tick, read off the state its actions end in. -/
structure TickState.Ends (st : TickState W A R)
    (result : (TickScheduler A R × W) × TickOutput W) : Prop where
  state : result.1 = (st.sched, st.world)
  disconnects : result.2.disconnects = st.toDisconnect
  trace : result.2.trace = st.trace

theorem sendStage_actions (st : TickState W A R) :
    ∃ st', Actions ws st st' ∧ st'.Ends (sendStage env ws st) := by
  let st₁ := st.simulateWorld ws
  let st₂ := { st₁ with world := (ws.extractDeltas st₁.world).1 }
  let st₃ := { st₂ with world := (ws.extractReliableEvents st₂.world).1 }
  let st₄ := { st₃ with world := ws.postExtract st₃.world }
  let s := (sendDeltas env ws st₄.world st.sched (ws.extractDeltas st₁.world).2).1
  have hs : ∃ m, s = { st.sched with nextMessageId := m } := sendBatches_sched env _ _ _
  have hactions : Actions ws st st₄ :=
    .head (.simulate st) <| .head (.world st₁ _ (.extractDeltas _)) <|
      .head (.world st₂ _ (.extractReliableEvents _)) <| .single (.world st₃ _ (.postExtract _))
  refine ⟨{ st₄ with sched := s }, hactions.tail ?_, rfl, rfl, rfl⟩
  obtain ⟨m, hm⟩ := hs
  exact .other _ _ (by rw [hm]; rfl) (by rw [hm]; rfl) rfl rfl rfl

theorem preStage_actions (s : TickScheduler A R) (world : W) :
    Actions ws (.start s world) (.start s (preStage ws s world)) := by
  refine .head (.world _ _ (.advanceTick world)) ?_
  unfold preStage
  dsimp only
  split
  · exact .single (.world _ _ (.stressTest (ws.advanceTick world) 100 true))
  · exact .refl

theorem tickStep_actions (s : TickScheduler A R) (world : W) (input : TickInput F) :
    ∃ st, Actions ws (.start s world) st ∧ st.Ends (tickStep env ws s world input) := by
  have hpre := (preStage_actions ws s world).tail
    (.other _ (.start { s with currentTick := s.currentTick + 1 } _) rfl rfl rfl rfl rfl)
  unfold tickStep
  dsimp only
  split
  · exact ⟨_, hpre, rfl, rfl, rfl⟩
  · next events _ =>
    obtain ⟨st, hsend, hends⟩ := sendStage_actions env ws
      (receiveStage env ws s.currentTick input.now { s with currentTick := s.currentTick + 1 }
        (preStage ws s world) events)
    exact ⟨st, (hpre.trans (receiveStage_actions env ws _ _ _ _ events)).trans hsend, hends⟩

/-! ## Runs -/

/-- An action adds at most one moment. -/
theorem Action.trace_cases (h : Action ws st st') :
    st'.trace = st.trace ∨ ∃ o, st'.trace = st.trace ++ [o] := by
  cases h with
  | other _ _ _ _ _ htrace => exact .inl htrace
  | drop c =>
    unfold dropClient
    dsimp only
    split
    · exact .inr ⟨_, rfl⟩
    · exact .inl rfl
  | possess _ _ _ _ => exact .inr ⟨_, rfl⟩
  | clear _ => exact .inr ⟨_, rfl⟩
  | simulate => exact .inr ⟨_, rfl⟩
  | _ => exact .inl rfl

/-- What the moment of an action says. -/
theorem Action.observed {o : Observation W} (h : Action ws st st')
    (ho : st'.trace = st.trace ++ [o]) :
    (∃ c n, recordedAgent st.sched.authenticatedClients c = some n ∧
        o = .departed c n st.world) ∨
      (∃ c n, recordedAgent st.sched.authenticatedClients c = some n ∧
        o = .possessed c n (ws.queueReliableEvent st.world (some c) (.possession n))) ∨
      (∃ c, o = .cleared c st.sched.authenticatedClients) ∨
      o = .simulated st.world (ws.simulate st.world) st.sched.authenticatedClients := by
  have hsame : st'.trace ≠ st.trace := fun h => by simp [h] at ho
  have hlast : ∀ o', st'.trace = st.trace ++ [o'] → o = o' := fun o' h => by simpa [h] using ho.symm
  cases h with
  | other _ _ _ _ _ htrace => exact absurd htrace hsame
  | drop c =>
    cases h : st.sched.authenticatedClients.lookup c with
    | none => exact absurd (by rw [dropClient, h]) hsame
    | some r =>
      obtain ⟨session, _ | n⟩ := r
      · exact absurd (by rw [dropClient, h]) hsame
      · refine .inl ⟨c, n, ?_, hlast _ ?_⟩
        · rw [recordedAgent, h]
          rfl
        · rw [dropClient, h]
  | possess c session n hrecord =>
    refine .inr (.inl ⟨c, n, ?_, hlast _ rfl⟩)
    rw [recordedAgent, hrecord]
    rfl
  | clear c => exact .inr (.inr (.inl ⟨c, hlast _ rfl⟩))
  | simulate => exact .inr (.inr (.inr (hlast _ rfl)))
  | _ => exact absurd rfl hsame

theorem Action.toDisconnect_subset (h : Action ws st st') : st.toDisconnect ⊆ st'.toDisconnect := by
  cases h with
  | other _ _ _ _ hdisconnect _ => rw [hdisconnect]; exact List.Subset.refl _
  | disconnect c => exact List.subset_append_left _ _
  | drop c =>
    unfold dropClient
    dsimp only
    split <;> exact List.Subset.refl _
  | _ => exact List.Subset.refl _

theorem Actions.toDisconnect_subset (h : Actions ws st st') :
    st.toDisconnect ⊆ st'.toDisconnect := by
  induction h with
  | refl => exact List.Subset.refl _
  | tail _ hstep ih => exact List.Subset.trans ih hstep.toDisconnect_subset

/-- `I` is kept by every action whose moment meets `Good`, and gives `Q` of each moment. -/
structure Sustained (Good Q : Observation W → Prop) (I : TickScheduler A R → W → Prop) :
    Prop where
  keeps : ∀ st st', Action ws st st' → (∀ o, st'.trace = st.trace ++ [o] → Good o) →
    I st.sched st.world → I st'.sched st'.world
  gives : ∀ st st' o, Action ws st st' → st'.trace = st.trace ++ [o] → I st.sched st.world → Q o

variable {ws} {Good Q : Observation W → Prop} {I : TickScheduler A R → W → Prop}

theorem Sustained.of_action (hI : Sustained ws Good Q I) (h : Action ws st st')
    (hst : Upheld Good Q st.trace ∧ ((∀ o ∈ st.trace, Good o) → I st.sched st.world)) :
    Upheld Good Q st'.trace ∧ ((∀ o ∈ st'.trace, Good o) → I st'.sched st'.world) := by
  rcases h.trace_cases with htrace | ⟨o, htrace⟩
  · rw [htrace]
    refine ⟨hst.1, fun hgood => hI.keeps st st' h ?_ (hst.2 hgood)⟩
    intro o ho
    rw [htrace] at ho
    simp at ho
  · rw [htrace]
    refine ⟨upheld_append hst.1 fun hgood => ?_, fun hgood => ?_⟩
    · exact upheld_singleton (hI.gives st st' o h htrace (hst.2 hgood))
    · refine hI.keeps st st' h ?_ (hst.2 fun o' ho => hgood o' (List.mem_append_left _ ho))
      intro o' ho'
      rw [htrace, List.append_cancel_left_eq, List.cons.injEq] at ho'
      exact hgood o' (by rw [← ho'.1]; simp)

theorem Sustained.of_actions (hI : Sustained ws Good Q I) (h : Actions ws st st')
    (hst : Upheld Good Q st.trace ∧ ((∀ o ∈ st.trace, Good o) → I st.sched st.world)) :
    Upheld Good Q st'.trace ∧ ((∀ o ∈ st'.trace, Good o) → I st'.sched st'.world) := by
  induction h with
  | refl => exact hst
  | tail _ hstep ih => exact hI.of_action hstep ih

theorem Sustained.of_tickStep (hI : Sustained ws Good Q I) {world : W}
    (h : I s world) (input : TickInput F) :
    Upheld Good Q (tickStep env ws s world input).2.trace ∧
      ((∀ o ∈ (tickStep env ws s world input).2.trace, Good o) →
        I (tickStep env ws s world input).1.1 (tickStep env ws s world input).1.2) := by
  obtain ⟨st, hactions, hends⟩ := tickStep_actions env ws s world input
  rw [hends.trace, hends.state]
  exact hI.of_actions hactions ⟨upheld_nil Good Q, fun _ => h⟩

/-- The moments of a run. -/
def runTrace (env : ServerEnv A R F) (ws : WorldState W F) (s : TickScheduler A R) (world : W)
    (inputs : List (TickInput F)) : List (Observation W) :=
  (runTicks env ws s world inputs).2.flatMap (·.trace)

/-- The rule for runs: what every action sustains holds along the whole run. -/
theorem Sustained.of_runTicks (hI : Sustained ws Good Q I) {world : W}
    (h : I s world) (inputs : List (TickInput F)) :
    Upheld Good Q (runTrace env ws s world inputs) ∧
      ((∀ o ∈ runTrace env ws s world inputs, Good o) →
        I (runTicks env ws s world inputs).1.1 (runTicks env ws s world inputs).1.2) := by
  induction inputs generalizing s world with
  | nil => exact ⟨upheld_nil Good Q, fun _ => h⟩
  | cons input inputs ih =>
    obtain ⟨hupheld, hkept⟩ := hI.of_tickStep env h input
    have htrace : runTrace env ws s world (input :: inputs) =
        (tickStep env ws s world input).2.trace ++
          runTrace env ws (tickStep env ws s world input).1.1
            (tickStep env ws s world input).1.2 inputs := by
      simp only [runTrace, runTicks, List.flatMap_cons]
    rw [htrace]
    refine ⟨upheld_append hupheld fun hgood => (ih (hkept hgood)).1, fun hgood => ?_⟩
    exact (ih (hkept fun o ho => hgood o (List.mem_append_left _ ho))).2
      fun o ho => hgood o (List.mem_append_right _ ho)

end Aetheris
