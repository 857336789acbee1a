import Aetheris.EcsBevy.Authority
import Aetheris.Server.Actions

/-!
# One session for each player

A login kicks the other clients of the same player before it is recorded, and whoever leaves the
client map leaves the map of login times too. `Sessions` says what this keeps true in every state,
between ticks and in the middle of a batch.

`kicked_of_handleEvent` says what becomes of a client that an event of somebody else removes: it is
one of those the login kicks, so its agent is despawned and it is scheduled for disconnection.
-/

namespace Aetheris

open Function Relation TickState

/-- One client for each player, and a login time only for clients on record. -/
structure Sessions {A R : Type} (s : TickScheduler A R) : Prop where
  onePerPlayer : ∀ c c' r r', s.authenticatedClients.lookup c = some r →
    s.authenticatedClients.lookup c' = some r' → r.1.playerId = r'.1.playerId → c = c'
  recorded : ∀ c t, s.authTimestamps c = some t → ∃ r, s.authenticatedClients.lookup c = some r

variable {W A R F : Type} (env : ServerEnv A R F) (ws : WorldState W F) [F32 F]

/-! ## Every action keeps the sessions -/

section Keeps

variable {s s' : TickScheduler A R}

/-- No new session, and no login time that outlives its record. -/
theorem Sessions.of_le (h : Sessions s)
    (hclients : ∀ c r', s'.authenticatedClients.lookup c = some r' →
      ∃ r, s.authenticatedClients.lookup c = some r ∧ r.1 = r'.1)
    (hstamps : ∀ c t, s'.authTimestamps c = some t → s.authTimestamps c = some t ∧
      ((∃ r, s.authenticatedClients.lookup c = some r) →
        ∃ r', s'.authenticatedClients.lookup c = some r')) : Sessions s' where
  onePerPlayer := by
    intro c₁ c₂ r₁ r₂ h₁ h₂ hplayer
    obtain ⟨r₁', h₁', heq₁⟩ := hclients c₁ r₁ h₁
    obtain ⟨r₂', h₂', heq₂⟩ := hclients c₂ r₂ h₂
    exact h.onePerPlayer c₁ c₂ r₁' r₂' h₁' h₂' (by rw [heq₁, heq₂, hplayer])
  recorded := by
    intro c t ht
    obtain ⟨ht', hstays⟩ := hstamps c t ht
    exact hstays (h.recorded c t ht')

omit [F32 F] in
theorem Sessions.drop {st : TickState W A R} (h : Sessions st.sched) (c : ClientId) :
    Sessions (st.dropClient ws c).sched := by
  refine h.of_le ?_ ?_
  · intro c' r' hr'
    rw [dropClient_clients] at hr'
    by_cases hc : c' = c
    · subst hc
      rw [AList.lookup_erase] at hr'
      cases hr'
    · rw [AList.lookup_erase_ne hc] at hr'
      exact ⟨r', hr', rfl⟩
  · intro c' t ht
    rw [dropClient_stamps] at ht
    have hc := Function.ne_of_update_none ht
    refine ⟨Function.of_update_none ht, fun ⟨r, hr⟩ => ⟨r, ?_⟩⟩
    rw [dropClient_clients, AList.lookup_erase_ne hc]
    exact hr

theorem Sessions.setAgent (h : Sessions s) (c : ClientId) (agent : Option NetworkId) :
    Sessions { s with authenticatedClients := TickState.setAgent s.authenticatedClients c agent } := by
  refine h.of_le ?_ ?_
  · intro c' r' hr'
    rw [lookup_setAgent, Option.map_eq_some_iff] at hr'
    obtain ⟨r, hr, rfl⟩ := hr'
    exact ⟨r, hr, by split <;> rfl⟩
  · intro c' t ht
    refine ⟨ht, fun ⟨r, hr⟩ => ⟨if c' = c then (r.1, agent) else r, ?_⟩⟩
    rw [lookup_setAgent, hr, Option.map_some]

theorem Sessions.forgetTime (h : Sessions s) (c : ClientId) :
    Sessions { s with authTimestamps := update s.authTimestamps c none } := by
  refine h.of_le (fun _ r hr => ⟨r, hr, rfl⟩) ?_
  intro c' t ht
  exact ⟨Function.of_update_none ht, id⟩

theorem Sessions.record {st : TickState W A R} (h : Sessions st.sched) (now : Instant)
    (c : ClientId) (session : VerifiedSession)
    (hplayer : ∀ c' r, st.sched.authenticatedClients.lookup c' = some r →
      r.1.playerId ≠ session.playerId) : Sessions (st.record now c session).sched where
  onePerPlayer := by
    intro c₁ c₂ r₁ r₂ h₁ h₂ heq
    have hlookup : ∀ c' r, (st.record now c session).sched.authenticatedClients.lookup c' = some r →
        (c' = c ∧ r.1 = session) ∨ st.sched.authenticatedClients.lookup c' = some r := by
      intro c' r hr
      by_cases hc : c' = c
      · subst hc
        have hr' : some (session, none) = some r :=
          (AList.lookup_insert st.sched.authenticatedClients).symm.trans hr
        cases hr'
        exact .inl ⟨rfl, rfl⟩
      · exact .inr ((AList.lookup_insert_ne hc).symm.trans hr)
    -- a player who was on record before is not the one who logs in
    rcases hlookup c₁ r₁ h₁ with ⟨hc₁, hr₁⟩ | hold₁ <;>
      rcases hlookup c₂ r₂ h₂ with ⟨hc₂, hr₂⟩ | hold₂
    · rw [hc₁, hc₂]
    · exact absurd (by rw [← heq, hr₁]) (hplayer c₂ r₂ hold₂)
    · exact absurd (by rw [heq, hr₂]) (hplayer c₁ r₁ hold₁)
    · exact h.onePerPlayer c₁ c₂ r₁ r₂ hold₁ hold₂ heq
  recorded := by
    intro c' t ht
    by_cases hc : c' = c
    · subst hc
      exact ⟨_, AList.lookup_insert _⟩
    · obtain ⟨r, hr⟩ := h.recorded c' t ((update_of_ne hc _ _).symm.trans ht)
      exact ⟨r, (AList.lookup_insert_ne hc).trans hr⟩

theorem sessions_sustained :
    Sustained ws (fun _ => True) (fun _ => True) fun (s : TickScheduler A R) _ => Sessions s where
  keeps := by
    intro st st' haction _ h
    cases haction with
    | other _ hclients hstamps _ _ _ =>
      refine h.of_le (fun c r hr => ⟨r, by rw [← hclients]; exact hr, rfl⟩) fun c t ht => ?_
      rw [hstamps] at ht
      rw [hclients]
      exact ⟨ht, id⟩
    | world | disconnect | simulate => exact h
    | drop c => exact h.drop ws c
    | record now c session _ hplayer => exact h.record now c session hplayer
    | possess c _ n _ => exact h.forgetTime c
    | spawnAgent c _ _ => exact h.setAgent c _
    | clear c => exact h.setAgent c none
  gives := fun _ _ _ _ _ _ => trivial

end Keeps

/-! ## Who is kicked -/

/-- Despawns a list of agents. -/
def despawnAgents (world : W) (agents : List NetworkId) : W :=
  agents.foldl (fun w n => (ws.despawnNetworked w n).1) world

/-- The agents on record of a list of clients. -/
def agentsOf (records : Clients) (cs : List ClientId) : List NetworkId :=
  cs.filterMap (recordedAgent records)

/-- Whoever but `c` is missing from the records of `st'` was kicked: its agent is despawned and it
is scheduled for disconnection. -/
def KicksOthers (c : ClientId) (st st' : TickState W A R) : Prop :=
  ∀ id session agent, id ≠ c →
    st.sched.authenticatedClients.lookup id = some (session, agent) →
    st'.sched.authenticatedClients.lookup id = none →
    id ∈ st'.toDisconnect ∧
      ∀ n, agent = some n → ∃ agents, n ∈ agents ∧ st'.world = despawnAgents ws st.world agents

omit [F32 F] in
theorem agentsOf_erase {records : Clients} {c : ClientId} {cs : List ClientId} (h : c ∉ cs) :
    agentsOf (records.erase c) cs = agentsOf records cs := by
  unfold agentsOf
  refine List.filterMap_congr fun c' hc' => ?_
  have hne : c' ≠ c := fun heq => h (heq ▸ hc')
  rw [recordedAgent_erase, update_of_ne hne]

omit [F32 F] in
theorem kickClient_world (st : TickState W A R) (c : ClientId) :
    (st.kickClient ws c).world =
      despawnAgents ws st.world (agentsOf st.sched.authenticatedClients [c]) := by
  show (st.dropClient ws c).world = _
  rw [dropClient_world]
  unfold agentsOf despawnAgents
  cases h : recordedAgent st.sched.authenticatedClients c with
  | none => simp [h]
  | some n => simp [h]

omit [F32 F] in
theorem kickClients_world (cs : List ClientId) (hcs : cs.Nodup) (st : TickState W A R) :
    (cs.foldl (kickClient ws) st).world =
      despawnAgents ws st.world (agentsOf st.sched.authenticatedClients cs) := by
  induction cs generalizing st with
  | nil => rfl
  | cons c cs ih =>
    obtain ⟨hc, hcs⟩ := List.nodup_cons.mp hcs
    have hrecords : (st.kickClient ws c).sched.authenticatedClients =
        st.sched.authenticatedClients.erase c := dropClient_clients ws st c
    have hsplit : agentsOf st.sched.authenticatedClients (c :: cs) =
        agentsOf st.sched.authenticatedClients [c] ++ agentsOf st.sched.authenticatedClients cs := by
      rw [← List.singleton_append]
      exact List.filterMap_append
    -- the records of the later clients are still there when the first is kicked
    rw [List.foldl_cons, ih hcs, hrecords, agentsOf_erase hc, kickClient_world, hsplit]
    exact (List.foldl_append ..).symm

omit [F32 F] in
theorem kickClients_toDisconnect (cs : List ClientId) (st : TickState W A R) :
    (cs.foldl (kickClient ws) st).toDisconnect = st.toDisconnect ++ cs := by
  induction cs generalizing st with
  | nil => simp
  | cons c cs ih =>
    have hkick : (st.kickClient ws c).toDisconnect = st.toDisconnect ++ [c] := by
      unfold kickClient dropClient
      dsimp only
      split <;> rfl
    rw [List.foldl_cons, ih, hkick, List.append_assoc, List.singleton_append]

omit [F32 F] in
theorem KicksOthers.of_lookup {c : ClientId} {st st' : TickState W A R}
    (h : ∀ id, id ≠ c →
      st'.sched.authenticatedClients.lookup id = st.sched.authenticatedClients.lookup id) :
    KicksOthers ws c st st' := by
  intro id session agent hne hrecord hgone
  rw [h id hne, hrecord] at hgone
  cases hgone

omit [F32 F] in
theorem KicksOthers.of_same {c : ClientId} {st st₁ st' : TickState W A R}
    (h : KicksOthers ws c st₁ st')
    (hclients : st₁.sched.authenticatedClients = st.sched.authenticatedClients)
    (hworld : st₁.world = st.world) : KicksOthers ws c st st' := by
  unfold KicksOthers at h ⊢
  rw [hclients, hworld] at h
  exact h

omit [F32 F] in
theorem login_kicksOthers (now : Instant) (st : TickState W A R) (c : ClientId)
    (session : VerifiedSession) : KicksOthers ws c st (st.login env ws now c session) := by
  intro id session' agent hne hrecord hgone
  have hnodup : (oldClients env st.sched.authenticatedClients c session).Nodup :=
    ((env.clientOrder_perm _).nodup_iff.mpr (AList.keys_nodup _)).filter _
  -- the new record is that of `c`, so `id` is missing because it was kicked
  have hold : id ∈ oldClients env st.sched.authenticatedClients c session := by
    have hgone' := (AList.lookup_insert_ne hne).symm.trans hgone
    rw [lookup_kickClients, hrecord] at hgone'
    by_contra hnot
    rw [if_neg hnot] at hgone'
    cases hgone'
  refine ⟨?_, fun n hn => ⟨agentsOf st.sched.authenticatedClients
    (oldClients env st.sched.authenticatedClients c session), ?_, kickClients_world ws _ hnodup st⟩⟩
  · show id ∈ (List.foldl (kickClient ws) st _).toDisconnect
    rw [kickClients_toDisconnect]
    exact List.mem_append_right _ hold
  · refine List.mem_filterMap.mpr ⟨id, hold, ?_⟩
    rw [recordedAgent, hrecord]
    exact hn

theorem lookup_handleProtocol {c id : ClientId} (hne : id ≠ c) (st : TickState W A R)
    (jti : String) (raw : Bytes) :
    (st.handleProtocol env ws c jti raw).sched.authenticatedClients.lookup id =
      st.sched.authenticatedClients.lookup id := by
  have hset : ∀ agent, (setAgent st.sched.authenticatedClients c agent).lookup id =
      st.sched.authenticatedClients.lookup id := by
    intro agent
    rw [lookup_setAgent]
    simp only [if_neg hne, Option.map_id']
  unfold handleProtocol
  split
  · rfl
  · split <;> rfl
  · split <;> rfl
  · -- `StartSession` writes the record of its sender
    unfold startSession
    split
    · rfl
    · exact hset _
    · rfl
  · split
    · exact hset none
    · rfl
  · rfl
  · rfl
  · rfl
  · split <;> rfl

theorem handleMessage_kicksOthers (tick : UInt64) (now : Instant) (st : TickState W A R)
    (c : ClientId) (raw : Bytes) :
    KicksOthers ws c st (st.handleMessage env ws tick now c raw) := by
  unfold handleMessage
  split
  · dsimp only
    split
    · exact .of_lookup ws fun id hne => lookup_handleProtocol env ws hne _ _ raw
    · refine .of_lookup ws fun id hne => ?_
      rw [dropClient_clients, AList.lookup_erase_ne hne]
  · unfold handleUnauthenticated
    split
    · dsimp only
      split
      · exact .of_same ws (login_kicksOthers env ws now _ c _) rfl rfl
      · exact .of_lookup ws fun _ _ => rfl
    · exact .of_lookup ws fun _ _ => rfl

theorem handleFragment_kicksOthers (tick : UInt64) (now : Instant) (st : TickState W A R)
    (c : ClientId) (fragment : FragmentedEvent) :
    KicksOthers ws c st (st.handleFragment env ws tick now c fragment) := by
  unfold handleFragment
  dsimp only
  split
  · exact .of_same ws (handleMessage_kicksOthers env ws tick now _ c _) rfl rfl
  · exact .of_lookup ws fun _ _ => rfl

theorem handleRaw_kicksOthers (tick : UInt64) (now : Instant) (st : TickState W A R)
    (c : ClientId) (data : Bytes) :
    KicksOthers ws c st (st.handleRaw env ws tick now c data) := by
  unfold handleRaw
  split
  · exact handleFragment_kicksOthers env ws tick now st c _
  · exact handleMessage_kicksOthers env ws tick now st c data

/-- An event removes clients other than its own only by kicking them. -/
theorem kicked_of_handleEvent (tick : UInt64) (now : Instant) (st : TickState W A R)
    (event : NetworkEvent F) {id : ClientId} {session : VerifiedSession}
    {agent : Option NetworkId} (hsender : event.sender ≠ some id)
    (hrecord : st.sched.authenticatedClients.lookup id = some (session, agent))
    (hgone : (st.handleEvent env ws tick now event).sched.authenticatedClients.lookup id = none) :
    id ∈ (st.handleEvent env ws tick now event).toDisconnect ∧
      ∀ n, agent = some n → ∃ agents, n ∈ agents ∧
        (st.handleEvent env ws tick now event).world = despawnAgents ws st.world agents := by
  have hself : ∀ st', st' = st → st'.sched.authenticatedClients.lookup id ≠ none := by
    rintro _ rfl h
    rw [hrecord] at h
    cases h
  have hne : ∀ c, event.sender = some c → id ≠ c := fun c hc heq => hsender (heq ▸ hc)
  have hdrop : ∀ c, event.sender = some c →
      (st.dropClient ws c).sched.authenticatedClients.lookup id ≠ none := by
    intro c hc h
    rw [dropClient_clients, AList.lookup_erase_ne (hne c hc), hrecord] at h
    cases h
  -- only a message can remove the record of another client, and it does so by a login
  cases event with
  | fragment c f =>
    exact handleFragment_kicksOthers env ws tick now st c f id session agent (hne c rfl) hrecord hgone
  | unreliableMessage c data =>
    exact handleRaw_kicksOthers env ws tick now st c data id session agent (hne c rfl) hrecord hgone
  | reliableMessage c data =>
    exact handleRaw_kicksOthers env ws tick now st c data id session agent (hne c rfl) hrecord hgone
  | clientDisconnected c | disconnected c | sessionClosed c | streamReset c =>
    exact absurd hgone (hdrop c rfl)
  | ping c t =>
    refine absurd hgone ?_
    unfold handleEvent
    dsimp only
    split
    · exact hself st rfl
    · exact hself st rfl
  | _ => exact absurd hgone (hself st rfl)

/-! ## The middle of a tick -/

/-- The state of a tick after the periodic validation and some events of its batch. -/
def midTick (s : TickScheduler A R) (world : W) (now : Instant) (events : List (NetworkEvent F)) :
    TickState W A R :=
  let st := .start { s with currentTick := s.currentTick + 1 } (preStage ws s world)
  let st := if s.currentTick % 60 = 0 then st.validateSessions env ws s.currentTick else st
  events.foldl (handleEvent env ws s.currentTick now) st

theorem midTick_concat (s : TickScheduler A R) (world : W) (now : Instant)
    (events : List (NetworkEvent F)) (event : NetworkEvent F) :
    midTick env ws s world now (events ++ [event]) =
      (midTick env ws s world now events).handleEvent env ws s.currentTick now event :=
  List.foldl_append ..

theorem start_actions_midTick (s : TickScheduler A R) (world : W) (now : Instant)
    (events : List (NetworkEvent F)) :
    Actions ws (.start s world) (midTick env ws s world now events) := by
  refine ReflTransGen.trans ?_ (handleEvents_actions env ws s.currentTick now events _)
  refine ((preStage_actions ws s world).tail
    (.other _ (.start { s with currentTick := s.currentTick + 1 } _) rfl rfl rfl rfl rfl)).trans ?_
  split
  · exact validateSessions_actions env ws _ _
  · exact .refl

theorem midTick_actions_tickStep (s : TickScheduler A R) (world : W) (now : Instant)
    (events rest : List (NetworkEvent F)) (hne : events ≠ []) :
    ∃ st, Actions ws (midTick env ws s world now events) st ∧
      st.Ends (tickStep env ws s world ⟨.ok (events ++ rest), now⟩) := by
  obtain ⟨st, hsend, hends⟩ := sendStage_actions env ws
    (receiveStage env ws s.currentTick now { s with currentTick := s.currentTick + 1 }
      (preStage ws s world) (events ++ rest))
  refine ⟨st, ReflTransGen.trans ?_ hsend, hends⟩
  unfold receiveStage applyEvents
  have hnonempty : ¬ (events ++ rest).isEmpty = true := by
    simp [hne]
  rw [if_neg hnonempty, List.foldl_append]
  refine (handleEvents_actions env ws s.currentTick now rest _).trans ?_
  exact updatesApplied_actions env ws _

/-! ## Runs -/

/-- A scheduler that has not ticked yet. -/
def TickScheduler.initial (tickRate : UInt64) (auth : A) (reassembler : R)
    (hasOutbound spawnAtZero : Bool) : TickScheduler A R :=
  { TickScheduler.new tickRate auth reassembler with
    hasOutbound := hasOutbound, spawnAtZero := spawnAtZero }

theorem sessions_initial (tickRate : UInt64) (auth : A) (reassembler : R)
    (hasOutbound spawnAtZero : Bool) :
    Sessions (.initial tickRate auth reassembler hasOutbound spawnAtZero) where
  onePerPlayer := by
    intro c c' r r' h
    have hempty : none = some r := (AList.lookup_empty c).symm.trans h
    cases hempty
  recorded := fun _ _ h => nomatch h

/-- In every state of a run, between ticks and between the events of a batch, no two clients hold
sessions of one player and every login time belongs to a client on record. A client that is removed
by an event of another is disconnected in that tick, and its agent is despawned. -/
theorem one_session_per_player (tickRate : UInt64) (auth : A) (reassembler : R)
    (hasOutbound spawnAtZero : Bool) (world : W) (inputs : List (TickInput F)) :
    let final := (runTicks env ws
      (.initial tickRate auth reassembler hasOutbound spawnAtZero) world inputs).1
    Sessions final.1 ∧
      ∀ (now : Instant) (events : List (NetworkEvent F)) (event : NetworkEvent F)
        (rest : List (NetworkEvent F)),
        let st := midTick env ws final.1 final.2 now events
        let st' := midTick env ws final.1 final.2 now (events ++ [event])
        let out := (tickStep env ws final.1 final.2 ⟨.ok (events ++ event :: rest), now⟩).2
        Sessions st.sched ∧ Sessions st'.sched ∧
          ∀ id session agent, event.sender ≠ some id →
            st.sched.authenticatedClients.lookup id = some (session, agent) →
            st'.sched.authenticatedClients.lookup id = none →
            id ∈ out.disconnects ∧
              ∀ n, agent = some n →
                ∃ agents, n ∈ agents ∧ st'.world = despawnAgents ws st.world agents := by
  intro final
  have hfinal : Sessions final.1 :=
    ((sessions_sustained ws).of_runTicks env
      (sessions_initial tickRate auth reassembler hasOutbound spawnAtZero) inputs).2
      fun _ _ => trivial
  refine ⟨hfinal, fun now events event rest => ?_⟩
  have hmid : ∀ events, Sessions (midTick env ws final.1 final.2 now events).sched := fun events =>
    ((sessions_sustained ws).of_actions
      (start_actions_midTick env ws final.1 final.2 now events)
      ⟨upheld_nil _ _, fun _ => hfinal⟩).2 fun _ _ => trivial
  refine ⟨hmid events, hmid _, fun id session agent hsender hrecord hgone => ?_⟩
  rw [midTick_concat] at hgone
  obtain ⟨hscheduled, hagent⟩ := kicked_of_handleEvent env ws final.1.currentTick now _ event
    hsender hrecord hgone
  obtain ⟨last, hactions, hends⟩ := midTick_actions_tickStep env ws final.1 final.2 now
    (events ++ [event]) rest (by simp)
  rw [List.append_assoc, List.singleton_append] at hends
  refine ⟨?_, fun n hn => ?_⟩
  · rw [hends.disconnects]
    rw [← midTick_concat] at hscheduled
    exact Actions.toDisconnect_subset ws hactions hscheduled
  · rw [midTick_concat]
    exact hagent n hn

/-- A codec of one byte, and a verifier that takes any token but the empty one for the name of the
player. -/
def byteEnv : ServerEnv Unit Unit ℚ where
  verifier :=
    { verifySession := fun auth token _ =>
        (auth, if token = "" then .error .invalidToken else .ok ⟨token, token⟩)
      isSessionAuthorized := fun auth _ _ => (auth, true) }
  reassembler := { ingest := fun r _ fragment => (r, some fragment.payload), prune := id }
  encoder :=
    { decodeEvent := fun
        | [0] => .ok (.auth "alice")
        | [1] => .ok (.auth "bob")
        | [2] => .ok (.startSession ⟨0⟩)
        | [3] => .ok (.clearWorld ⟨0⟩)
        | [4] => .ok (.auth "")
        | _ => .error .other
      decode := fun _ => .error .other
      encodeEvent := fun _ => .ok []
      encodeEventInto := fun _ _ => .ok []
      maxEncodedSize := 1200 }
  isDev := true
  versionServer := "0"
  versionProtocol := "0"
  maxFragmentPayloadSize := 1024
  clientOrder := id
  clientOrder_perm := fun l => List.Perm.refl l
  batchOrder := id
  batchOrder_perm := fun l => List.Perm.refl l

/-- A run of `byteEnv` from the empty world. -/
def byteRun (inputs : List (TickInput ℚ)) :
    (TickScheduler Unit Unit × BevyWorldAdapter ℚ) × List (TickOutput (BevyWorldAdapter ℚ)) :=
  runTicks byteEnv (bevyWorldState rationalPlatform) (.initial 60 () () false false)
    BevyWorldAdapter.emptyAdapter inputs

/-- Client 1 logs in and starts its session. -/
def aliceInputs : List (TickInput ℚ) :=
  [⟨.ok [.reliableMessage ⟨1⟩ [0], .reliableMessage ⟨1⟩ [2]], 0⟩]

/-- The same player logs in from client 2, which removes client 1 and its agent. -/
theorem one_session_per_player_relogin :
    (⟨1⟩ : ClientId) ∈ (tickStep byteEnv (bevyWorldState rationalPlatform)
      (byteRun aliceInputs).1.1 (byteRun aliceInputs).1.2
      ⟨.ok [.reliableMessage ⟨2⟩ [0]], 1⟩).2.disconnects ∧
    ∃ agents, (⟨1⟩ : NetworkId) ∈ agents ∧
      (midTick byteEnv (bevyWorldState rationalPlatform) (byteRun aliceInputs).1.1
        (byteRun aliceInputs).1.2 1 [.reliableMessage ⟨2⟩ [0]]).world =
      despawnAgents (bevyWorldState rationalPlatform)
        (midTick byteEnv (bevyWorldState rationalPlatform) (byteRun aliceInputs).1.1
          (byteRun aliceInputs).1.2 1 []).world agents := by
  have h := one_session_per_player byteEnv (bevyWorldState rationalPlatform) 60 () () false false
    BevyWorldAdapter.emptyAdapter aliceInputs
  rw [show runTicks _ _ _ _ _ = byteRun aliceInputs from rfl] at h
  obtain ⟨-, -, hkicked⟩ := h.2 1 [] (.reliableMessage ⟨2⟩ [0]) []
  have hrecord : (midTick byteEnv (bevyWorldState rationalPlatform) (byteRun aliceInputs).1.1
      (byteRun aliceInputs).1.2 1 []).sched.authenticatedClients.lookup ⟨1⟩ =
        some (⟨"alice", "alice"⟩, some ⟨1⟩) := by decide +kernel
  have hgone : (midTick byteEnv (bevyWorldState rationalPlatform) (byteRun aliceInputs).1.1
      (byteRun aliceInputs).1.2 1 [.reliableMessage ⟨2⟩ [0]]).sched.authenticatedClients.lookup
        ⟨1⟩ = none := by decide +kernel
  rw [List.nil_append] at hkicked
  exact (hkicked ⟨1⟩ _ _ (by decide) hrecord hgone).imp_right fun h => h ⟨1⟩ rfl

end Aetheris
