import Aetheris.EcsBevy.Identity
import Aetheris.Server.Sessions

/-!
# Session agents and their records

The scheduler remembers the agent of each client by its identifier, the world remembers the owner of
each agent. The two are written by different code: agents die in the simulation, and a cleared world
forgets everybody's agent while the scheduler forgets only that of the client who asked for it.

From the world to the records nothing goes wrong: every live session agent is the one on record for
its owner (`Recorded`). From the records to the world it does: `Linked` and `Present` are what holds
of an identifier on record until the first moment that breaks the link.
-/

namespace Aetheris

open BevyWorldAdapter Ecs Function Relation TickState

variable {A R F : Type} (P : Platform F)

/-! ## The world of a server -/

/-- What a server starts with: nobody has an agent yet. -/
structure Ready (a : BevyWorldAdapter F) : Prop extends Sound a where
  noAgents : ∀ e c n, ¬ a.roster.IsAgent e c n

variable {a : BevyWorldAdapter F} {c : ClientId}

/-- An adapter around an empty world, with the platform replicators. -/
theorem ready_fresh (hworld : ∀ e, a.world.alive e = false)
    (hbimap : a.bimap = BiMap.empty) (howners : a.owners = fun _ => none)
    (hreplicators : a.replicators = platformReplicators P) (hhook : a.postSimulateHook = none) :
    Ready a := by
  refine ⟨⟨coherent_fresh hworld hbimap howners, ?_, ?_⟩, ?_⟩
  · rw [hreplicators]
    exact fun r hr => (platformReplicators_plain P r hr).keepsCards
  · rw [hhook]
    exact nofun
  · rintro e c n ⟨card, hcard, -⟩
    rw [roster_cards, World.card_eq_none.mpr (hworld e)] at hcard
    cases hcard

/-- The server is started on such an adapter. -/
theorem ready_new {tickRate : UInt64} (h : BevyWorldAdapter.new World.new tickRate = some a) :
    Ready { a with replicators := platformReplicators P } := by
  unfold BevyWorldAdapter.new at h
  split at h
  · obtain rfl := Option.some.inj h
    exact ready_fresh P (fun _ => rfl) rfl rfl (by dsimp only) rfl
  · cases h

theorem emptyAdapter_ready : Ready emptyAdapter :=
  ready_fresh rationalPlatform (fun _ => rfl) rfl rfl rfl rfl

variable {P} in
theorem WorldAction.grows [F32 F] {a' : BevyWorldAdapter F}
    (h : WorldAction (bevyWorldState P) a a')
    (hs : Sound a) : Grows a a' := by
  cases h with
  | advanceTick => exact .of_bimap (advanceTick_moves a) rfl
  | stressTest count rotate => exact stressTest_grows P a count rotate
  | spawnKindFor kind x y rot c => exact spawnKindFor_grows a kind x y rot c
  | queueReliableEvent c event => exact .of_bimap (queueReliableEvent_moves a c event) rfl
  | applyUpdates updates =>
    exact .of_bimap (applyUpdates_moves hs.discreet updates) (applyUpdates_bimap a updates)
  | extractDeltas => exact .of_bimap (extractDeltas_moves P a) rfl
  | extractReliableEvents => exact .of_bimap (extractReliableEvents_moves a) rfl
  | postExtract => exact .of_bimap (postExtract_moves a) rfl

/-- The world after the departure of a client with the given agent. -/
abbrev despawnRecorded (a : BevyWorldAdapter F) (agent : Option NetworkId) : BevyWorldAdapter F :=
  agent.elim a fun n => (a.despawnNetworked n).1

theorem despawnRecorded_moves (a : BevyWorldAdapter F) (agent : Option NetworkId) :
    Moves a (despawnRecorded a agent) := by
  cases agent with
  | none => exact Moves.refl a
  | some n => exact despawnNetworked_moves a n

/-! ## Invariants of agents and records

Of the nine actions five concern agents. An invariant `J` of the agents on record and the world has
to be kept by those five. -/

structure AgentInvariant [F32 F] (Good : Observation (BevyWorldAdapter F) → Prop)
    (J : (ClientId → Option NetworkId) → BevyWorldAdapter F → Prop) : Prop where
  sound : ∀ agents a, J agents a → Sound a
  grow : ∀ agents a a', J agents a → Grows a a' → J agents a'
  depart : ∀ agents a c, J agents a →
    J (Function.update agents c none) (despawnRecorded a (agents c))
  spawn : ∀ agents a c, J agents a → agents c = none →
    J (Function.update agents c (some (a.spawnSessionAgent 1 0.0 0.0 0.0 c).2))
      (a.spawnSessionAgent 1 0.0 0.0 0.0 c).1
  clear : ∀ records a c, J (recordedAgent records) a → Good (.cleared c records) →
    J (Function.update (recordedAgent records) c none) (a.clearWorld P)
  simulate : ∀ records a, J (recordedAgent records) a →
    Good (.simulated a (a.simulate P) records) → J (recordedAgent records) (a.simulate P)

theorem recordedAgent_setAgent_none (records : Clients) (c : ClientId) :
    recordedAgent (setAgent records c none) = update (recordedAgent records) c none := by
  rw [recordedAgent_setAgent]
  cases records.lookup c <;> rfl

variable {P} in
theorem AgentInvariant.keeps [F32 F] {Good : Observation (BevyWorldAdapter F) → Prop}
    {J : (ClientId → Option NetworkId) → BevyWorldAdapter F → Prop} (hJ : AgentInvariant P Good J)
    {st st' : TickState (BevyWorldAdapter F) A R} (haction : Action (bevyWorldState P) st st')
    (hgood : ∀ o, st'.trace = st.trace ++ [o] → Good o)
    (h : J (recordedAgent st.sched.authenticatedClients) st.world) :
    J (recordedAgent st'.sched.authenticatedClients) st'.world := by
  cases haction with
  | other _ hclients _ hworld _ _ =>
    rw [hclients, hworld]
    exact h
  | world w hw => exact hJ.grow _ _ _ h (hw.grows (hJ.sound _ _ h))
  | drop c =>
    rw [dropClient_clients, dropClient_world, recordedAgent_erase]
    exact hJ.depart _ _ c h
  | disconnect c => exact h
  | record now c session hnone hplayer =>
    -- a fresh record has no agent
    show J (recordedAgent (st.sched.authenticatedClients.insert c (session, none))) _
    rw [recordedAgent_insert_none session hnone]
    exact h
  | possess c session n hrecord =>
    exact hJ.grow _ _ _ h (.of_bimap (queueReliableEvent_moves _ _ _) rfl)
  | spawnAgent c session hrecord =>
    show J (recordedAgent (setAgent st.sched.authenticatedClients c _)) _
    rw [recordedAgent_setAgent, hrecord]
    exact hJ.spawn _ _ c h (by rw [recordedAgent, hrecord]; rfl)
  | clear c =>
    show J (recordedAgent (setAgent st.sched.authenticatedClients c none)) _
    rw [recordedAgent_setAgent_none]
    exact hJ.clear _ _ c h (hgood _ rfl)
  | simulate =>
    have hmoment : Good (.simulated st.world ((bevyWorldState P).simulate st.world)
        st.sched.authenticatedClients) := hgood _ rfl
    unfold simulateWorld
    dsimp only [bevyWorldState] at hmoment ⊢
    exact hJ.simulate _ _ h hmoment

/-! ## No ghosts -/

/-- Every session agent is on record for its owner. -/
structure Recorded (agents : ClientId → Option NetworkId) (a : BevyWorldAdapter F) : Prop
    extends Sound a where
  onRecord : ∀ e c n, a.roster.IsAgent e c n → agents c = some n

namespace Recorded

variable {agents : ClientId → Option NetworkId} {a a' : BevyWorldAdapter F}

theorem of_moves (h : Recorded agents a) (hm : Moves a a') : Recorded agents a' where
  toSound := h.toSound.of_moves hm
  onRecord e c n hagent := h.onRecord e c n (Roster.isAgent_of_steps (h.toSound.steps hm) hagent)

/-- The agent of a client who leaves goes with it. -/
theorem depart (h : Recorded agents a) (c : ClientId) :
    Recorded (update agents c none) (despawnRecorded a (agents c)) where
  toSound := h.toSound.of_moves (despawnRecorded_moves a (agents c))
  onRecord e c' n hagent := by
    have hmoves := despawnRecorded_moves a (agents c)
    have hrecord := (h.of_moves hmoves).onRecord e c' n hagent
    by_cases hc : c' = c
    · subst hc
      have hrel := (h.toSound.of_moves hmoves).coherent.rel_of_isAgent hagent
      rw [hrecord] at hrel
      exact absurd rfl (rel_despawnNetworked.mp hrel).2
    · rw [update_of_ne hc]
      exact hrecord

theorem spawn [F32 F] (h : Recorded agents a) {c : ClientId} (hc : agents c = none) (kind : UInt16)
    (x y rot : F) :
    Recorded (update agents c (some (a.spawnSessionAgent kind x y rot c).2))
      (a.spawnSessionAgent kind x y rot c).1 where
  toSound := h.toSound.spawnSessionAgent kind x y rot c
  onRecord e' c' n' hagent := by
    obtain ⟨hid, b, e, card, hmoves, -, -, howner, hnet, hroster, -⟩ :=
      spawnSessionAgent_spec a kind x y rot c
    rw [hroster] at hagent
    rw [hid]
    rcases Roster.isAgent_of_mark hagent with ⟨-, howner', hnet'⟩ | hold
    · -- the new agent
      obtain rfl : c = c' := Option.some.inj (howner.symm.trans howner')
      rw [update_self, ← hnet, hnet']
    · have hrecord := (h.of_moves hmoves).onRecord e' c' n' hold
      have hne : c' ≠ c := fun heq => by rw [heq, hc] at hrecord; cases hrecord
      rw [update_of_ne hne]
      exact hrecord

/-- A cleared world has no agents. -/
theorem clear [F32 F] (h : Recorded agents a) (agents' : ClientId → Option NetworkId) :
    Recorded agents' (a.clearWorld P) where
  toSound := h.toSound.clearWorld P
  onRecord e c n hagent := by
    obtain ⟨b, hmoves, hempty, hroster, -⟩ := clearWorld_spec P a
    rw [hroster] at hagent
    exact absurd ((h.toSound.of_moves hmoves).coherent.rel_of_isAgent hagent) (hempty n e)

end Recorded

theorem recorded_invariant [F32 F] : AgentInvariant P (fun _ => True) Recorded where
  sound _ _ h := h.toSound
  grow _ _ _ h hgrows := h.of_moves hgrows.toMoves
  depart _ _ c h := h.depart c
  spawn _ _ _ h hc := h.spawn hc 1 0.0 0.0 0.0
  clear _ _ _ h _ := h.clear P _
  simulate _ _ h _ := h.of_moves (simulate_moves P h.discreet)

theorem recorded_sustained [F32 F] :
    Sustained (bevyWorldState P) (fun _ => True) (fun _ => True)
      fun (s : TickScheduler A R) a => Recorded (recordedAgent s.authenticatedClients) a where
  keeps _ _ haction hgood h := (recorded_invariant P).keeps haction hgood h
  gives _ _ _ _ _ _ := trivial

/-- `e` is alive and a session agent of `c`. -/
def IsSessionAgent (w : World F) (e : Entity) (c : ClientId) : Prop :=
  w.alive e = true ∧ w.has e .sessionAgent = true ∧ w.get e .networkOwner = some c

theorem Sound.isAgent (h : Sound a) {e : Entity} (hagent : IsSessionAgent a.world e c) :
    ∃ n, a.world.get e .networked = some n ∧ a.roster.IsAgent e c n := by
  obtain ⟨halive, hsession, howner⟩ := hagent
  have hcard := World.card_of_alive halive
  obtain ⟨n, hn⟩ := Option.ne_none_iff_exists'.mp (h.coherent.sessions e _ hcard hsession)
  exact ⟨n, hn, _, hcard, hsession, howner, hn⟩

theorem recorded_initial (h : Ready a) (tickRate : UInt64) (auth : A)
    (reassembler : R) (hasOutbound spawnAtZero : Bool) :
    Recorded (recordedAgent (TickScheduler.initial tickRate auth reassembler hasOutbound
      spawnAtZero).authenticatedClients) a :=
  ⟨h.toSound, fun e c n hagent => absurd hagent (h.noAgents e c n)⟩

/-- After any run every live session agent is the one on record for its owner. So a client has at
most one, and a client without a session has none. -/
theorem no_ghost_agents [F32 F] (env : ServerEnv A R F) {a : BevyWorldAdapter F} (h : Ready a)
    (tickRate : UInt64) (auth : A) (reassembler : R) (hasOutbound spawnAtZero : Bool)
    (inputs : List (TickInput F)) :
    let final := (runTicks env (bevyWorldState P)
      (.initial tickRate auth reassembler hasOutbound spawnAtZero) a inputs).1
    (∀ e c, IsSessionAgent final.2.world e c →
      ∃ n session, final.2.world.get e .networked = some n ∧
        final.1.authenticatedClients.lookup c = some (session, some n)) ∧
    (∀ e e' c, IsSessionAgent final.2.world e c → IsSessionAgent final.2.world e' c → e = e') ∧
    ∀ e c, final.1.authenticatedClients.lookup c = none → ¬ IsSessionAgent final.2.world e c := by
  intro final
  have hfinal : Recorded (recordedAgent final.1.authenticatedClients) final.2 :=
    ((recorded_sustained P).of_runTicks env
      (recorded_initial h tickRate auth reassembler hasOutbound spawnAtZero) inputs).2
      fun _ _ => trivial
  have hrecord : ∀ e c, IsSessionAgent final.2.world e c →
      ∃ n session, final.2.world.get e .networked = some n ∧
        final.1.authenticatedClients.lookup c = some (session, some n) := by
    intro e c hagent
    obtain ⟨n, hn, hisAgent⟩ := hfinal.toSound.isAgent hagent
    obtain ⟨⟨session, agent⟩, hlookup, hsome⟩ :=
      Option.bind_eq_some_iff.mp (hfinal.onRecord e c n hisAgent)
    have hagent : agent = some n := hsome
    exact ⟨n, session, hn, hagent ▸ hlookup⟩
  refine ⟨hrecord, fun e e' c he he' => ?_, fun e c hnone he => ?_⟩
  · -- both carry the identifier on record, and an identifier has one entity
    obtain ⟨n, -, hagent⟩ := hfinal.toSound.isAgent he
    obtain ⟨n', -, hagent'⟩ := hfinal.toSound.isAgent he'
    have hid : some n = some n' :=
      (hfinal.onRecord e c n hagent).symm.trans (hfinal.onRecord e' c n' hagent')
    have hrel := hfinal.coherent.rel_of_isAgent hagent
    rw [Option.some.inj hid] at hrel
    exact hrel.right_unique (hfinal.coherent.rel_of_isAgent hagent')
  · obtain ⟨n, session, -, hlookup⟩ := hrecord e c he
    rw [hnone] at hlookup
    cases hlookup

/-- Client 1 has its agent, entity 2. -/
theorem no_ghost_agents_alice :
    IsSessionAgent (byteRun aliceInputs).1.2.world ⟨2⟩ ⟨1⟩ ∧
      ∀ e c, IsSessionAgent (byteRun aliceInputs).1.2.world e c →
        ∃ n session, (byteRun aliceInputs).1.2.world.get e .networked = some n ∧
          (byteRun aliceInputs).1.1.authenticatedClients.lookup c = some (session, some n) := by
  have h := no_ghost_agents rationalPlatform byteEnv emptyAdapter_ready 60 () () false false
    aliceInputs
  rw [show runTicks _ _ _ _ _ = byteRun aliceInputs from rfl] at h
  exact ⟨⟨by decide +kernel, by decide +kernel, by decide +kernel⟩, h.1⟩

/-! ## Departures -/

/-- If only `c` had an agent, nobody has one once that of `c` is forgotten. -/
theorem update_none_ne_some {agents : ClientId → Option NetworkId}
    (hothers : ∀ c', c' ≠ c → agents c' = none) (c' : ClientId) (n : NetworkId) :
    update agents c none c' ≠ some n := by
  intro hn
  have hold := Function.of_update_none hn
  rw [hothers c' (Function.ne_of_update_none hn)] at hold
  cases hold

/-- Whatever carries an identifier on record is an agent of that client. -/
structure Linked (agents : ClientId → Option NetworkId) (a : BevyWorldAdapter F) : Prop
    extends Sound a where
  below : ∀ c n, agents c = some n → n.val < a.allocator.next
  agent : ∀ c n, agents c = some n → a.roster.AgentOrGone n c

namespace Linked

variable {agents : ClientId → Option NetworkId} {a a' : BevyWorldAdapter F}

theorem of_moves (h : Linked agents a) (hm : Moves a a') : Linked agents a' where
  toSound := h.toSound.of_moves hm
  below c n hc := Nat.lt_of_lt_of_le (h.below c n hc) (Roster.nextId_le_steps (h.toSound.steps hm))
  agent c n hc :=
    Roster.agentOrGone_steps (h.toSound.steps hm) h.coherent (h.below c n hc) (h.agent c n hc)

theorem forget (h : Linked agents a) (c : ClientId) :
    Linked (update agents c none) a := by
  exact ⟨h.toSound, fun c' n hn => h.below c' n (Function.of_update_none hn),
    fun c' n hn => h.agent c' n (Function.of_update_none hn)⟩

theorem spawn [F32 F] (h : Linked agents a) (c : ClientId) (kind : UInt16) (x y rot : F) :
    Linked (update agents c (some (a.spawnSessionAgent kind x y rot c).2))
      (a.spawnSessionAgent kind x y rot c).1 := by
  obtain ⟨hid, b, e, card, hmoves, hrel, hcard, howner, -, hroster, -⟩ :=
    spawnSessionAgent_spec a kind x y rot c
  have hb := h.of_moves hmoves
  have hnext : (a.spawnSessionAgent kind x y rot c).1.allocator.next = b.allocator.next :=
    congrArg Roster.nextId hroster
  rw [hid]
  refine ⟨h.toSound.spawnSessionAgent kind x y rot c, fun c' n hn => ?_, fun c' n hn => ?_⟩
  · rw [hnext]
    by_cases hc : c' = c
    · rw [hc, update_self] at hn
      rw [← Option.some.inj hn]
      exact hb.coherent.ids _ e hrel
    · rw [update_of_ne hc] at hn
      exact hb.below c' n hn
  · rw [hroster]
    by_cases hc : c' = c
    · rw [hc, update_self] at hn
      rw [← Option.some.inj hn, hc]
      exact Roster.agentOrGone_marked hrel howner
    · rw [update_of_ne hc] at hn
      exact Roster.agentOrGone_mark (hb.agent c' n hn) hcard

/-- A cleared world is no trouble when only the client who asked for it had an agent. -/
theorem clear [F32 F] (h : Linked agents a) {c : ClientId}
    (hothers : ∀ c', c' ≠ c → agents c' = none) :
    Linked (update agents c none) (a.clearWorld P) := by
  refine ⟨h.toSound.clearWorld P, fun c' n hn => ?_, fun c' n hn => ?_⟩
  · exact absurd hn (update_none_ne_some hothers c' n)
  · exact absurd hn (update_none_ne_some hothers c' n)

end Linked

/-- If this moment is a clear, no other client has an agent on record. -/
def ClearsOwn : Observation (BevyWorldAdapter F) → Prop
  | .cleared c records => ∀ c', c' ≠ c → recordedAgent records c' = none
  | _ => True

/-- If this moment is a departure, whatever is despawned belongs to the client who leaves. -/
def DepartsWithOwn : Observation (BevyWorldAdapter F) → Prop
  | .departed c n a => ∀ e, a.bimap.Rel n e → a.world.get e .networkOwner = some c
  | _ => True

theorem linked_invariant [F32 F] : AgentInvariant P ClearsOwn Linked where
  sound _ _ h := h.toSound
  grow _ _ _ h hgrows := h.of_moves hgrows.toMoves
  depart _ _ c h := (h.of_moves (despawnRecorded_moves _ _)).forget c
  spawn _ _ c h _ := h.spawn c 1 0.0 0.0 0.0
  clear _ _ _ h hgood := h.clear P hgood
  simulate _ _ h _ := h.of_moves (simulate_moves P h.discreet)

theorem linked_sustained [F32 F] :
    Sustained (bevyWorldState P) ClearsOwn DepartsWithOwn
      fun (s : TickScheduler A R) a => Linked (recordedAgent s.authenticatedClients) a where
  keeps _ _ haction hgood h := (linked_invariant P).keeps haction hgood h
  gives := by
    intro st st' o haction htrace h
    rcases haction.observed _ htrace with ⟨c, n, hrecord, rfl⟩ | ⟨c, n, -, rfl⟩ | ⟨c, rfl⟩ | rfl
    · intro e hrel
      obtain ⟨card, hcard, -, howner⟩ := h.agent c n hrecord e hrel
      rw [roster_cards, World.card_of_alive (alive_of_card hcard)] at hcard
      rw [← Option.some.inj hcard] at howner
      exact howner
    · trivial
    · trivial
    · trivial

theorem linked_initial (h : Sound a) (tickRate : UInt64) (auth : A)
    (reassembler : R) (hasOutbound spawnAtZero : Bool) :
    Linked (recordedAgent (TickScheduler.initial tickRate auth reassembler hasOutbound
      spawnAtZero).authenticatedClients) a :=
  ⟨h, fun _ _ hn => (nomatch hn), fun _ _ hn => (nomatch hn)⟩

/-- Until a client clears the world while another has an agent on record, whoever leaves takes
nothing but its own entity along. -/
theorem departures_own [F32 F] (env : ServerEnv A R F) {a : BevyWorldAdapter F} (h : Ready a)
    (tickRate : UInt64) (auth : A) (reassembler : R) (hasOutbound spawnAtZero : Bool)
    (inputs : List (TickInput F)) :
    Upheld ClearsOwn DepartsWithOwn (runTrace env (bevyWorldState P)
      (.initial tickRate auth reassembler hasOutbound spawnAtZero) a inputs) :=
  ((linked_sustained P).of_runTicks env
    (linked_initial h.toSound tickRate auth reassembler hasOutbound spawnAtZero) inputs).1

/-- The moments of a run of `byteEnv`. -/
def byteTrace (inputs : List (TickInput ℚ)) : List (Observation (BevyWorldAdapter ℚ)) :=
  runTrace byteEnv (bevyWorldState rationalPlatform) (.initial 60 () () false false) emptyAdapter
    inputs

/-- Client 1 gets its agent and disconnects. -/
def leaveInputs : List (TickInput ℚ) := aliceInputs ++ [⟨.ok [.clientDisconnected ⟨1⟩], 1⟩]

theorem departures_own_leave : ∃ a,
    .departed ⟨1⟩ ⟨1⟩ a ∈ byteTrace leaveInputs ∧ DepartsWithOwn (.departed ⟨1⟩ ⟨1⟩ a) := by
  have hany : (byteTrace leaveInputs).any (fun
      | .departed c n _ => c = ⟨1⟩ ∧ n = ⟨1⟩
      | _ => false) = true := by decide +kernel
  have hnoClear : (byteTrace leaveInputs).all (fun
      | .cleared _ _ => false
      | _ => true) = true := by decide +kernel
  obtain ⟨o, hmem, ho⟩ := List.any_eq_true.mp hany
  obtain ⟨before, after, hsplit⟩ := List.append_of_mem hmem
  have hgood : ∀ o' ∈ before, ClearsOwn o' := by
    intro o' ho'
    have hkind := List.all_eq_true.mp hnoClear o' (hsplit ▸ List.mem_append_left _ ho')
    cases o' with
    | cleared c records => cases hkind
    | _ => trivial
  have howns := departures_own rationalPlatform byteEnv emptyAdapter_ready 60 () () false false
    leaveInputs before o after hsplit hgood
  cases o with
  | departed c n a =>
    obtain ⟨rfl, rfl⟩ := of_decide_eq_true ho
    exact ⟨a, hmem, howns⟩
  | _ => cases ho

/-- Client 1 gets its agent, client 2 clears the world and gets an agent with the same identifier. -/
def staleInputs : List (TickInput ℚ) :=
  aliceInputs ++
    [⟨.ok [.reliableMessage ⟨2⟩ [1], .reliableMessage ⟨2⟩ [3], .reliableMessage ⟨2⟩ [2]], 1⟩]

/-- Client 1 disconnects, and the agent of client 2 is despawned. -/
theorem departure_takes_other : ∃ a e,
    .departed ⟨1⟩ ⟨1⟩ a ∈ byteTrace (staleInputs ++ [⟨.ok [.clientDisconnected ⟨1⟩], 2⟩]) ∧
      a.bimap.Rel ⟨1⟩ e ∧ a.world.get e .networkOwner = some ⟨2⟩ := by
  have hany : (byteTrace (staleInputs ++ [⟨.ok [.clientDisconnected ⟨1⟩], 2⟩])).any (fun
      | .departed c n a => c = ⟨1⟩ ∧ n = ⟨1⟩ ∧ a.bimap.getByLeft ⟨1⟩ = some ⟨5⟩ ∧
          a.world.get ⟨5⟩ .networkOwner = some ⟨2⟩
      | _ => false) = true := by decide +kernel
  obtain ⟨o, hmem, ho⟩ := List.any_eq_true.mp hany
  cases o with
  | departed c n a =>
    obtain ⟨rfl, rfl, hleft, howner⟩ := of_decide_eq_true ho
    exact ⟨a, ⟨5⟩, hmem, BiMap.getByLeft_eq_some.mp hleft, howner⟩
  | _ => cases ho

/-! ## Possessions -/

/-- Every identifier on record is carried by an agent of that client. -/
structure Present (agents : ClientId → Option NetworkId) (a : BevyWorldAdapter F) : Prop
    extends Linked agents a where
  present : ∀ c n, agents c = some n → ∃ e, a.bimap.Rel n e

namespace Present

variable {agents : ClientId → Option NetworkId} {a a' : BevyWorldAdapter F}

/-- What an identifier on record stands for. -/
theorem sessionAgent (h : Present agents a) {c : ClientId} {n : NetworkId}
    (hc : agents c = some n) : ∃ e, a.bimap.Rel n e ∧ IsSessionAgent a.world e c := by
  obtain ⟨e, hrel⟩ := h.present c n hc
  obtain ⟨card, hcard, hsession, howner⟩ := h.agent c n hc e hrel
  have halive := alive_of_card hcard
  rw [roster_cards, World.card_of_alive halive] at hcard
  rw [← Option.some.inj hcard] at hsession howner
  exact ⟨e, hrel, halive, hsession, howner⟩

/-- Two clients have no agent in common. -/
theorem injective (h : Present agents a) {c c' : ClientId} {n : NetworkId} (hc : agents c = some n)
    (hc' : agents c' = some n) : c = c' := by
  obtain ⟨e, hrel, -, -, howner⟩ := h.sessionAgent hc
  obtain ⟨e', hrel', -, -, howner'⟩ := h.sessionAgent hc'
  rw [hrel.right_unique hrel', howner'] at howner
  exact (Option.some.inj howner).symm

theorem of_grows (h : Present agents a) (hg : Grows a a') : Present agents a' where
  toLinked := h.toLinked.of_moves hg.toMoves
  present c n hc := by
    obtain ⟨e, hrel⟩ := h.present c n hc
    exact ⟨e, hg.rel h.coherent.toBounded n e hrel⟩

theorem depart (h : Present agents a) (c : ClientId) :
    Present (update agents c none) (despawnRecorded a (agents c)) where
  toLinked := (h.toLinked.of_moves (despawnRecorded_moves a (agents c))).forget c
  present c' n' hn' := by
    have hne := Function.ne_of_update_none hn'
    have hold := Function.of_update_none hn'
    obtain ⟨e, hrel⟩ := h.present c' n' hold
    cases hc : agents c with
    | none => exact ⟨e, hrel⟩
    | some n =>
      -- the despawned agent is another one
      have hid : n' ≠ n := fun heq => hne (h.injective hold (heq ▸ hc))
      exact ⟨e, rel_despawnNetworked.mpr ⟨hrel, hid⟩⟩

theorem spawn [F32 F] (h : Present agents a) (c : ClientId) (kind : UInt16) (x y rot : F) :
    Present (update agents c (some (a.spawnSessionAgent kind x y rot c).2))
      (a.spawnSessionAgent kind x y rot c).1 where
  toLinked := h.toLinked.spawn c kind x y rot
  present c' n' hn' := by
    rw [spawnSessionAgent_bimap]
    by_cases hc : c' = c
    · rw [hc, update_self, (spawnSessionAgent_spec a kind x y rot c).1] at hn'
      obtain ⟨e, hrel, -⟩ := spawnKindFor_spec a kind x y rot c
      exact ⟨e, Option.some.inj hn' ▸ hrel⟩
    · rw [update_of_ne hc] at hn'
      obtain ⟨e, hrel⟩ := h.present c' n' hn'
      exact ⟨e, (spawnKindFor_grows a kind x y rot c).rel h.coherent.toBounded n' e hrel⟩

theorem clear [F32 F] (h : Present agents a) {c : ClientId}
    (hothers : ∀ c', c' ≠ c → agents c' = none) :
    Present (update agents c none) (a.clearWorld P) where
  toLinked := h.toLinked.clear P hothers
  present c' n hn := absurd hn (update_none_ne_some hothers c' n)

end Present

/-- This moment is neither a clear while another client has an agent on record, nor a simulation
that destroys an agent on record. -/
def LeavesAgents : Observation (BevyWorldAdapter F) → Prop
  | .cleared c records => ∀ c', c' ≠ c → recordedAgent records c' = none
  | .simulated a a' records => ∀ c n, recordedAgent records c = some n →
      (∃ e, a.bimap.Rel n e) → ∃ e, a'.bimap.Rel n e
  | _ => True

/-- If this moment is a possession, the client is told of a live session agent of its own. -/
def Truthful : Observation (BevyWorldAdapter F) → Prop
  | .possessed c n a => ∃ e, a.bimap.Rel n e ∧ IsSessionAgent a.world e c
  | _ => True

theorem present_invariant [F32 F] : AgentInvariant P LeavesAgents Present where
  sound _ _ h := h.toSound
  grow _ _ _ h hgrows := h.of_grows hgrows
  depart _ _ c h := h.depart c
  spawn _ _ c h _ := h.spawn c 1 0.0 0.0 0.0
  clear _ _ _ h hgood := h.clear P hgood
  simulate _ _ h hgood :=
    ⟨h.toLinked.of_moves (simulate_moves P h.discreet),
      fun c n hc => hgood c n hc (h.present c n hc)⟩

theorem present_sustained [F32 F] :
    Sustained (bevyWorldState P) LeavesAgents Truthful
      fun (s : TickScheduler A R) a => Present (recordedAgent s.authenticatedClients) a where
  keeps _ _ haction hgood h := (present_invariant P).keeps haction hgood h
  gives := by
    intro st st' o haction htrace h
    rcases haction.observed _ htrace with ⟨c, n, -, rfl⟩ | ⟨c, n, hrecord, rfl⟩ | ⟨c, rfl⟩ | rfl
    · trivial
    · have hqueued : Grows st.world (st.world.queueReliableEvent (some c) (.possession n)) :=
        .of_bimap (queueReliableEvent_moves _ _ _) rfl
      exact (h.of_grows hqueued).sessionAgent hrecord
    · trivial
    · trivial

/-- Until a client clears the world while another has an agent on record, or the simulation destroys
an agent on record, a client is only told to possess a live session agent of its own. -/
theorem possessions_truthful [F32 F] (env : ServerEnv A R F) {a : BevyWorldAdapter F} (h : Ready a)
    (tickRate : UInt64) (auth : A) (reassembler : R) (hasOutbound spawnAtZero : Bool)
    (inputs : List (TickInput F)) :
    Upheld LeavesAgents Truthful (runTrace env (bevyWorldState P)
      (.initial tickRate auth reassembler hasOutbound spawnAtZero) a inputs) :=
  ((present_sustained P).of_runTicks env
    ⟨linked_initial h.toSound tickRate auth reassembler hasOutbound spawnAtZero,
      fun _ _ hn => (nomatch hn)⟩ inputs).1

/-- The first moment of the run is the possession of client 1. -/
theorem possessions_truthful_alice : ∃ a rest,
    byteTrace aliceInputs = .possessed ⟨1⟩ ⟨1⟩ a :: rest ∧ Truthful (.possessed ⟨1⟩ ⟨1⟩ a) := by
  have hhead : (byteTrace aliceInputs).head?.any (fun
      | .possessed c n _ => c = ⟨1⟩ ∧ n = ⟨1⟩
      | _ => false) = true := by decide +kernel
  have hupheld : Upheld LeavesAgents Truthful (byteTrace aliceInputs) :=
    possessions_truthful rationalPlatform byteEnv emptyAdapter_ready 60 () () false false aliceInputs
  generalize byteTrace aliceInputs = trace at hhead hupheld
  obtain _ | ⟨o, rest⟩ := trace
  · cases hhead
  · have htruthful := hupheld [] o rest rfl (by simp)
    cases o with
    | possessed c n a =>
      obtain ⟨rfl, rfl⟩ := of_decide_eq_true hhead
      exact ⟨a, rest, rfl, htruthful⟩
    | _ => cases hhead

/-- Client 1 asks for its agent after client 2 has cleared the world. The identifier it is told
belongs to the agent of client 2. -/
theorem possession_of_other : ∃ a e,
    .possessed ⟨1⟩ ⟨1⟩ a ∈ byteTrace (staleInputs ++ [⟨.ok [.reliableMessage ⟨1⟩ [2]], 2⟩]) ∧
      a.bimap.Rel ⟨1⟩ e ∧ ¬ IsSessionAgent a.world e ⟨1⟩ := by
  have hany : (byteTrace (staleInputs ++ [⟨.ok [.reliableMessage ⟨1⟩ [2]], 2⟩])).any (fun
      | .possessed c n a => c = ⟨1⟩ ∧ n = ⟨1⟩ ∧ a.bimap.getByLeft ⟨1⟩ = some ⟨5⟩ ∧
          a.world.get ⟨5⟩ .networkOwner = some ⟨2⟩
      | _ => false) = true := by decide +kernel
  obtain ⟨o, hmem, ho⟩ := List.any_eq_true.mp hany
  cases o with
  | possessed c n a =>
    obtain ⟨rfl, rfl, hleft, howner⟩ := of_decide_eq_true ho
    refine ⟨a, ⟨5⟩, hmem, BiMap.getByLeft_eq_some.mp hleft, fun hagent => ?_⟩
    rw [hagent.2.2] at howner
    exact absurd howner (by decide)
  | _ => cases ho

end Aetheris
