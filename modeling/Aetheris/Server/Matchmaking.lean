import Aetheris.Lib.Lookup
import Aetheris.Lib.Script
import Aetheris.Server.Auth.Service

/-!
# The matchmaking service

`join_queue` checks the session, puts the sender of a cancellation channel into `active_queues` under
the session token and spawns a task. The task waits for a second or for the channel, then picks a
server, has a connect token issued, reports the match and takes its entry out of the map.
`cancel_queue` takes the entry out and uses the sender. Game servers register and send heartbeats.

All of them run concurrently: `Action` lists the sections between two points where another one may
come in, and a run is any sequence of them. What the authorizer answers to a join is part of the
action; how it comes about is the subject of `Server.Auth.ConnectTokens`.
-/

namespace Aetheris.Matchmaking

open Function

open Auth (DateTime)

/-! ## Answers -/

/-- The gRPC codes the service answers with. -/
inductive Code where
  | unauthenticated
  | cancelled
  | internal
  | resourceExhausted
  | invalidArgument
  | notFound
deriving DecidableEq, Repr

structure Status where
  code : Code
  message : String
deriving DecidableEq, Repr

structure QuicConnectToken where
  paseto : String
  serverAddress : String
  expiresAtUnixMs : UInt64
  clientId : UInt64
deriving DecidableEq, Repr

inductive QueueUpdate where
  | queued (position estimatedWaitSeconds : UInt32)
  | matched (quicToken : QuicConnectToken) (serverAddress worldInstanceId : String)
deriving DecidableEq, Repr

/-! ## Connect tokens -/

structure ConnectClaims where
  clientId : UInt64
  server : String
  serverNonce : String
  iat : DateTime
  exp : DateTime

/-- What the service needs from outside. -/
structure MatchEnv where
  /-- Builds a connect token under `transport_key`. -/
  build : ConnectClaims → Except String String
  base64 : Bytes → String
  /-- The `Display` form of an answer of the auth service. -/
  display : Auth.Status → String

/-- What `issue_connect_token` reads from the clock and the generators. -/
structure ConnectReading where
  now : DateTime
  clientId : UInt64
  /-- 24 random bytes. -/
  nonce : Bytes

/-- The session token of the request is not looked at. -/
def issueConnectToken (env : MatchEnv) (r : ConnectReading) (_sessionToken serverAddress : String) :
    Except Auth.Status QuicConnectToken :=
  let exp : DateTime := r.now + .minutes 5
  match env.build ⟨r.clientId, serverAddress, env.base64 r.nonce, r.now, exp⟩ with
  | .ok token => .ok ⟨token, serverAddress, UInt64.ofInt exp.timestampMillis, r.clientId⟩
  | .error e => .error (.internal e)

/-! ## Servers -/

structure ServerInstance where
  instanceId : String
  addr : String
  players : UInt32
  reserved : UInt32
  maxPlayers : UInt32
deriving DecidableEq, Repr

structure RegisteredServer where
  info : ServerInstance
  lastHeartbeat : Instant
deriving DecidableEq, Repr

/-- The sum wraps, as it does in a release build. -/
def ServerInstance.hasRoom (info : ServerInstance) : Bool :=
  info.players + info.reserved < info.maxPlayers

def ServerInstance.freeSlots (info : ServerInstance) : UInt32 :=
  info.maxPlayers - (info.players + info.reserved)

/-- The last heartbeat is less than 30 whole seconds ago. -/
def RegisteredServer.isFresh (now : Instant) (server : RegisteredServer) : Bool :=
  (now - server.lastHeartbeat) / 1000000000 < 30

/-- `max_by_key`: the last one of those with the largest key. -/
def maxByKey {α : Type} (key : α → UInt32) (l : List α) : Option α :=
  l.foldl (fun best x => match best with
    | none => some x
    | some b => if key b > key x then some b else some x) none

/-- The server that a task picks from those it visits. -/
def optimal (now : Instant) (servers : List RegisteredServer) : Option ServerInstance :=
  (maxByKey (·.info.freeSlots)
    ((servers.filter (·.isFresh now)).filter (·.info.hasRoom))).map (·.info)

/-! ## Tasks -/

/-- What the receiver of the cancellation channel finds. -/
inductive Signal where
  | sent
  /-- The sender was dropped, which resolves the receiver as well. -/
  | dropped
deriving DecidableEq, Repr

inductive Phase where
  /-- Not polled yet. -/
  | spawned
  /-- In the `select!`, with the end of the sleep. -/
  | waiting (deadline : Instant)
  /-- In the branch of the channel. -/
  | cancelling
  /-- In the branch of the sleep. -/
  | woken
  | chosen (server : Option ServerInstance)
  | issued (server : ServerInstance) (result : Except Auth.Status QuicConnectToken)
  /-- The last update is sent, and the entry is still to be removed. -/
  | leaving
  | ended

structure Task where
  token : String
  signal : Option Signal
  phase : Phase
  /-- The `Queued` update is out. -/
  announced : Bool

structure State where
  servers : AList fun _ : String => RegisteredServer
  /-- Whose sender is in the map under a session token. -/
  activeQueues : String → Option Nat
  tasks : Nat → Option Task
  now : Instant

def State.new (now : Instant) : State := ⟨∅, fun _ => none, fun _ => none, now⟩

namespace State

def setTask (st : State) (t : Nat) (task : Task) : State :=
  { st with tasks := Function.update st.tasks t (some task) }

/-- The channel of a task resolves, if it has not done so before. -/
def signal (st : State) (t : Nat) (signal : Signal) : State :=
  match st.tasks t with
  | some task => st.setTask t { task with signal := task.signal.or (some signal) }
  | none => st

/-- Drops the sender that was taken out of the map, if there was one. -/
def dropSender (st : State) : Option Nat → State
  | some t => st.signal t .dropped
  | none => st

end State

/-! ## Sections -/

/-- What can be observed. -/
inductive Event where
  | clock (now : Instant)
  /-- A join that was authorized: its entry is in the map and its task is spawned. -/
  | joined (task : Nat) (token : String)
  /-- A call that was answered with an error. -/
  | refused (status : Status)
  /-- An update on the stream of a task. -/
  | update (task : Nat) (update : Except Status QueueUpdate)
  | chose (task : Nat) (server : Option ServerInstance)
  | issued (task : Nat) (token : String) (result : Except Auth.Status QuicConnectToken)
  /-- The end of a task, with the owner of the entry that it removed. -/
  | left (task : Nat) (removed : Option Nat)
  /-- The answer of `cancel_queue`: whose entry it found. Success means that there was one. -/
  | cancelReply (token : String) (found : Option Nat)
  /-- A registration or a heartbeat that was accepted. -/
  | reported (instanceId : String)

def cancelledByUser : Status := ⟨.cancelled, "Matchmaking cancelled by user"⟩

/-- The sections of a task up to its last update. -/
inductive Section where
  /-- The first poll, which starts the sleep. -/
  | start
  /-- The `select!` takes a branch: the one of the sleep or the one of the channel. -/
  | wake (sleep : Bool)
  /-- The servers are visited in some order. -/
  | choose (order : List String)
  | issue (r : ConnectReading)
  | send

/-- What a section makes of the task, if it is its turn. When both branches of the `select!` are
ready, either may be taken. -/
def Task.next (env : MatchEnv) (st : State) (t : Nat) (task : Task) :
    Section → Option (Phase × List Event)
  | .start =>
    match task.phase with
    | .spawned => some (.waiting (st.now + 1000000000), [])
    | _ => none
  | .wake sleep =>
    match task.phase with
    | .waiting deadline =>
      if sleep then if deadline ≤ st.now then some (.woken, []) else none
      else if task.signal.isSome then some (.cancelling, []) else none
    | _ => none
  | .choose order =>
    match task.phase with
    | .woken =>
      let server := optimal st.now (order.filterMap fun id => st.servers.lookup id)
      some (.chosen server, [.chose t server])
    | _ => none
  | .issue r =>
    match task.phase with
    | .chosen (some server) =>
      let result := issueConnectToken env r task.token server.addr
      some (.issued server result, [.issued t task.token result])
    | _ => none
  | .send =>
    match task.phase with
    | .cancelling => some (.leaving, [.update t (.error cancelledByUser)])
    | .chosen none =>
      some (.leaving, [.update t (.error ⟨.resourceExhausted, "No servers available"⟩)])
    | .issued server (.ok token) =>
      some (.leaving, [.update t (.ok (.matched token server.addr server.instanceId))])
    | .issued _ (.error e) =>
      some (.leaving, [.update t (.error
        ⟨.internal, s!"Failed to issue connect token: {env.display e}"⟩)])
    | _ => none

inductive Action where
  | advance (now : Instant)
  | join (task : Nat) (token : String) (authorized : Bool)
  /-- The `Queued` update, by a task of its own. -/
  | announce (task : Nat)
  | proceed (task : Nat) (sec : Section)
  /-- The task removes the entry under its token and ends. -/
  | leave (task : Nat)
  | cancel (token : String)
  | register (info : Option ServerInstance)
  | heartbeat (instanceId : String) (players : UInt32)

/-- Time does not go back, a task is new, and a task that picks a server visits each one once. -/
def Admissible (st : State) : Action → Prop
  | .advance now => st.now ≤ now
  | .join t _ _ => (st.tasks t).isNone
  | .proceed _ (.choose order) => order.Perm st.servers.keys
  | _ => True

instance decidableAdmissible (st : State) : ∀ a : Action, Decidable (Admissible st a)
  | .advance now => inferInstanceAs (Decidable (st.now ≤ now))
  | .join t _ _ => inferInstanceAs (Decidable ((st.tasks t).isNone = true))
  | .proceed _ (.choose order) => inferInstanceAs (Decidable (order.Perm st.servers.keys))
  | .proceed _ .start | .proceed _ (.wake _) | .proceed _ (.issue _) | .proceed _ .send
  | .announce _ | .leave _ | .cancel _ | .register _ | .heartbeat _ _ => .isTrue trivial

def fire (env : MatchEnv) (st : State) : Action → State × List Event
  | .advance now => ({ st with now := now }, [.clock now])
  | .join t token authorized =>
    if authorized then
      let old := st.activeQueues token
      let st := { st with activeQueues := Function.update st.activeQueues token (some t) }
      ((st.dropSender old).setTask t ⟨token, none, .spawned, false⟩, [.joined t token])
    else (st, [.refused ⟨.unauthenticated, "Invalid session"⟩])
  | .announce t =>
    match st.tasks t with
    | some task =>
      if task.announced then (st, [])
      else (st.setTask t { task with announced := true }, [.update t (.ok (.queued 1 1))])
    | none => (st, [])
  | .proceed t sec =>
    match st.tasks t with
    | some task =>
      match task.next env st t sec with
      | some (phase, events) => (st.setTask t { task with phase := phase }, events)
      | none => (st, [])
    | none => (st, [])
  | .leave t =>
    match st.tasks t with
    | some task =>
      match task.phase with
      | .leaving =>
        let removed := st.activeQueues task.token
        let st := st.setTask t { task with phase := .ended }
        let st := { st with activeQueues := Function.update st.activeQueues task.token none }
        (st.dropSender removed, [.left t removed])
      | _ => (st, [])
    | none => (st, [])
  | .cancel token =>
    match st.activeQueues token with
    | some t =>
      let st := { st with activeQueues := Function.update st.activeQueues token none }
      (st.signal t .sent, [.cancelReply token (some t)])
    | none => (st, [.cancelReply token none])
  | .register info =>
    match info with
    | some info =>
      ({ st with servers := st.servers.insert info.instanceId ⟨info, st.now⟩ },
        [.reported info.instanceId])
    | none => (st, [.refused ⟨.invalidArgument, "Missing instance info"⟩])
  | .heartbeat id players =>
    match st.servers.lookup id with
    | some server =>
      let server := ⟨{ server.info with players := players }, st.now⟩
      ({ st with servers := st.servers.insert id server }, [.reported id])
    | none => (st, [.refused ⟨.notFound, "Instance not registered"⟩])

def Step (env : MatchEnv) : State → List Event → State → Prop := Fires Admissible (fire env)

/-! ## What a step is -/

/-- What one section of a task does. -/
inductive Moves (env : MatchEnv) (st : State) (t : Nat) (task : Task) :
    Phase → List Event → Prop where
  | start (h : task.phase = .spawned) : Moves env st t task (.waiting (st.now + 1000000000)) []
  | sleep {deadline : Instant} (h : task.phase = .waiting deadline) (hnow : deadline ≤ st.now) :
      Moves env st t task .woken []
  | signal {deadline : Instant} (h : task.phase = .waiting deadline)
      (hsignal : task.signal ≠ none) : Moves env st t task .cancelling []
  | choose {order : List String} (h : task.phase = .woken) (horder : order.Perm st.servers.keys) :
      Moves env st t task
        (.chosen (optimal st.now (order.filterMap fun id => st.servers.lookup id)))
        [.chose t (optimal st.now (order.filterMap fun id => st.servers.lookup id))]
  | issue {server : ServerInstance} (h : task.phase = .chosen (some server)) (r : ConnectReading) :
      Moves env st t task (.issued server (issueConnectToken env r task.token server.addr))
        [.issued t task.token (issueConnectToken env r task.token server.addr)]
  | cancel (h : task.phase = .cancelling) :
      Moves env st t task .leaving [.update t (.error cancelledByUser)]
  | exhausted (h : task.phase = .chosen none) :
      Moves env st t task .leaving
        [.update t (.error ⟨.resourceExhausted, "No servers available"⟩)]
  | matched {server : ServerInstance} {token : QuicConnectToken}
      (h : task.phase = .issued server (.ok token)) :
      Moves env st t task .leaving
        [.update t (.ok (.matched token server.addr server.instanceId))]
  | failed {server : ServerInstance} {e : Auth.Status}
      (h : task.phase = .issued server (.error e)) :
      Moves env st t task .leaving [.update t (.error
        ⟨.internal, s!"Failed to issue connect token: {env.display e}"⟩)]

theorem Task.next_moves {env : MatchEnv} {st : State} {t : Nat} {task : Task} {sec : Section}
    (hadmissible : Admissible st (.proceed t sec)) {phase : Phase} {events : List Event}
    (h : task.next env st t sec = some (phase, events)) : Moves env st t task phase events := by
  cases sec with
  | start =>
    unfold Task.next at h
    dsimp only at h
    split at h
    · next hphase =>
      cases h
      exact .start hphase
    · cases h
  | wake sleep =>
    unfold Task.next at h
    dsimp only at h
    split at h
    · next deadline hphase =>
      split at h
      · split at h
        · next hnow =>
          cases h
          exact .sleep hphase hnow
        · cases h
      · split at h
        · next hsignal =>
          cases h
          exact .signal hphase (Option.isSome_iff_ne_none.mp hsignal)
        · cases h
    · cases h
  | choose order =>
    unfold Task.next at h
    dsimp only at h
    split at h
    · next hphase =>
      cases h
      exact .choose hphase hadmissible
    · cases h
  | issue r =>
    unfold Task.next at h
    dsimp only at h
    split at h
    · next server hphase =>
      cases h
      exact .issue hphase r
    · cases h
  | send =>
    unfold Task.next at h
    dsimp only at h
    split at h
    · next hphase =>
      cases h
      exact .cancel hphase
    · next hphase =>
      cases h
      exact .exhausted hphase
    · next hphase =>
      cases h
      exact .matched hphase
    · next hphase =>
      cases h
      exact .failed hphase
    · cases h

inductive StepCase (env : MatchEnv) (st : State) : List Event → State → Prop where
  | idle : StepCase env st [] st
  | refused (status : Status) : StepCase env st [.refused status] st
  | clock {now : Instant} (h : st.now ≤ now) :
      StepCase env st [.clock now] { st with now := now }
  | joined {t : Nat} (token : String) (h : st.tasks t = none) :
      StepCase env st [.joined t token]
        (({ st with
            activeQueues := Function.update st.activeQueues token (some t) } : State).dropSender
          (st.activeQueues token) |>.setTask t ⟨token, none, .spawned, false⟩)
  | announced {t : Nat} {task : Task} (h : st.tasks t = some task) :
      StepCase env st [.update t (.ok (.queued 1 1))] (st.setTask t { task with announced := true })
  | moved {t : Nat} {task : Task} {phase : Phase} {events : List Event}
      (h : st.tasks t = some task) (hmoves : Moves env st t task phase events) :
      StepCase env st events (st.setTask t { task with phase := phase })
  | left {t : Nat} {task : Task} (h : st.tasks t = some task) (hphase : task.phase = .leaving) :
      StepCase env st [.left t (st.activeQueues task.token)]
        (({ st.setTask t { task with phase := .ended } with
            activeQueues := Function.update st.activeQueues task.token none } : State).dropSender
          (st.activeQueues task.token))
  | cancelled {token : String} {t : Nat} (h : st.activeQueues token = some t) :
      StepCase env st [.cancelReply token (some t)]
        (({ st with
            activeQueues := Function.update st.activeQueues token none } : State).signal t .sent)
  | missed {token : String} (h : st.activeQueues token = none) :
      StepCase env st [.cancelReply token none] st
  | reported {id : String} {server : RegisteredServer}
      (hid : server.info.instanceId = id ∨ ∃ old, st.servers.lookup id = some old ∧
        server.info.instanceId = old.info.instanceId) :
      StepCase env st [.reported id] { st with servers := st.servers.insert id server }

theorem Step.cases {env : MatchEnv} {st st' : State} {events : List Event}
    (h : Step env st events st') : StepCase env st events st' := by
  obtain ⟨a, hadmissible, hfire⟩ := h
  unfold fire at hfire
  cases a with
  | advance now =>
    cases hfire
    exact .clock hadmissible
  | join t token authorized =>
    cases authorized with
    | true =>
      cases hfire
      exact .joined token (Option.isNone_iff_eq_none.mp hadmissible)
    | false =>
      cases hfire
      exact .refused _
  | announce t =>
    dsimp only at hfire
    split at hfire
    · next task htask =>
      split at hfire
      · cases hfire
        exact .idle
      · cases hfire
        exact .announced htask
    · cases hfire
      exact .idle
  | proceed t sec =>
    dsimp only at hfire
    split at hfire
    · next task htask =>
      split at hfire
      · next hnext =>
        cases hfire
        exact .moved htask (Task.next_moves hadmissible hnext)
      · cases hfire
        exact .idle
    · cases hfire
      exact .idle
  | leave t =>
    dsimp only at hfire
    split at hfire
    · next task htask =>
      split at hfire
      · next hphase =>
        cases hfire
        exact .left htask hphase
      · cases hfire
        exact .idle
    · cases hfire
      exact .idle
  | cancel token =>
    dsimp only at hfire
    split at hfire
    · next t ht =>
      cases hfire
      exact .cancelled ht
    · next hnone =>
      cases hfire
      exact .missed hnone
  | register info =>
    dsimp only at hfire
    split at hfire
    · cases hfire
      exact .reported (.inl rfl)
    · cases hfire
      exact .refused _
  | heartbeat id players =>
    dsimp only at hfire
    split at hfire
    · next server hserver =>
      cases hfire
      exact .reported (.inr ⟨server, hserver, rfl⟩)
    · cases hfire
      exact .refused _

/-! ## What a step makes of one task -/

section

variable (st : State) (t : Nat)

theorem State.tasks_signal (s : Signal) (t' : Nat) :
    (st.signal t s).tasks t' = (st.tasks t').map fun task =>
      if t' = t then { task with signal := task.signal.or (some s) } else task := by
  unfold State.signal
  by_cases ht : t' = t
  · subst ht
    cases h : st.tasks t' with
    | none => simp [h]
    | some task => simp [State.setTask]
  · cases h : st.tasks t with
    | none => simp [ht]
    | some task => simp [State.setTask, ht]

theorem State.tasks_dropSender (old : Option Nat) (t' : Nat) :
    (st.dropSender old).tasks t' = (st.tasks t').map fun task =>
      if old = some t' then { task with signal := task.signal.or (some .dropped) } else task := by
  cases old with
  | none => simp [State.dropSender]
  | some t =>
    unfold State.dropSender
    rw [State.tasks_signal]
    simp [eq_comm]

@[simp] theorem State.signal_activeQueues (s : Signal) :
    (st.signal t s).activeQueues = st.activeQueues := by
  unfold State.signal
  split <;> rfl

@[simp] theorem State.dropSender_activeQueues (old : Option Nat) :
    (st.dropSender old).activeQueues = st.activeQueues := by
  cases old with
  | none => rfl
  | some t => exact st.signal_activeQueues t .dropped

end

@[simp] theorem State.signal_now (st : State) (t : Nat) (s : Signal) :
    (st.signal t s).now = st.now := by
  unfold State.signal
  split <;> rfl

@[simp] theorem State.signal_servers (st : State) (t : Nat) (s : Signal) :
    (st.signal t s).servers = st.servers := by
  unfold State.signal
  split <;> rfl

@[simp] theorem State.dropSender_servers (st : State) (old : Option Nat) :
    (st.dropSender old).servers = st.servers := by
  cases old with
  | none => rfl
  | some t => exact st.signal_servers t .dropped

@[simp] theorem State.dropSender_now (st : State) (old : Option Nat) :
    (st.dropSender old).now = st.now := by
  cases old with
  | none => rfl
  | some t => exact st.signal_now t .dropped

/-- The task whose section reported the event. -/
def Event.mover : Event → Option Nat
  | .update t _ => some t
  | .chose t _ => some t
  | .issued t _ _ => some t
  | .left t _ => some t
  | _ => none

/-- What a step makes of the phase of a task. -/
inductive Progress (env : MatchEnv) (st : State) (t : Nat) (task : Task) :
    List Event → Phase → Prop where
  /-- Somebody else moves, or the `Queued` update goes out. -/
  | stays {events : List Event}
      (h : ∀ e ∈ events, e.mover = some t → e = .update t (.ok (.queued 1 1))) :
      Progress env st t task events task.phase
  | moves {events : List Event} {phase : Phase} (h : Moves env st t task phase events) :
      Progress env st t task events phase
  | ends (h : task.phase = .leaving) (removed : Option Nat) :
      Progress env st t task [.left t removed] .ended

section

variable {env : MatchEnv} {st st' : State} {events : List Event} {t : Nat} {task : Task}

theorem Moves.mover {phase : Phase} (h : Moves env st t task phase events) :
    ∀ e ∈ events, e.mover = some t := by
  cases h with
  | start _ | sleep _ _ | signal _ _ => exact fun _ he => nomatch he
  | choose _ _ | issue _ _ | cancel _ | exhausted _ | matched _ | failed _ =>
    exact fun _ he => by rw [List.mem_singleton.mp he]; rfl

/-- Another task is where it was before one of them changed. -/
theorem Progress.of_other {t' : Nat} (hne : t ≠ t') (h : ∀ e ∈ events, e.mover = some t') :
    Progress env st t task events task.phase :=
  .stays fun e he hmover => absurd (Option.some.inj (hmover.symm.trans (h e he))) hne

theorem Progress.of_quiet (h : ∀ e ∈ events, e.mover = none) :
    Progress env st t task events task.phase :=
  .stays fun e he hmover => absurd (hmover.symm.trans (h e he)) (by simp)

/-- A signal leaves the phase of a task alone, and is not taken back. -/
theorem State.signal_task (st : State) (ht : st.tasks t = some task) (k : Nat) (s : Signal) :
    ∃ task', (st.signal k s).tasks t = some task' ∧ task'.token = task.token ∧
      (task.signal ≠ none → task'.signal ≠ none) ∧ task'.phase = task.phase := by
  refine ⟨_, (st.tasks_signal k s t).trans (congrArg (Option.map _) ht), ?_⟩
  dsimp only
  split
  · refine ⟨rfl, fun hsignal => ?_, rfl⟩
    obtain ⟨first, hfirst⟩ := Option.ne_none_iff_exists'.mp hsignal
    simp [hfirst]
  · exact ⟨rfl, id, rfl⟩

theorem State.dropSender_task (st : State) (ht : st.tasks t = some task) (old : Option Nat) :
    ∃ task', (st.dropSender old).tasks t = some task' ∧ task'.token = task.token ∧
      (task.signal ≠ none → task'.signal ≠ none) ∧ task'.phase = task.phase := by
  cases old with
  | none => exact ⟨task, ht, rfl, id, rfl⟩
  | some k => exact st.signal_task ht k .dropped

/-- A step keeps every task, its token and a signal that it has got. -/
theorem StepCase.progress (h : StepCase env st events st') (ht : st.tasks t = some task) :
    ∃ task', st'.tasks t = some task' ∧ task'.token = task.token ∧
      (task.signal ≠ none → task'.signal ≠ none) ∧
      Progress env st t task events task'.phase := by
  cases h with
  | idle => exact ⟨task, ht, rfl, id, .of_quiet fun _ he => nomatch he⟩
  | refused _ | clock _ | missed _ | reported _ =>
    exact ⟨task, ht, rfl, id, .of_quiet fun _ he => by rw [List.mem_singleton.mp he]; rfl⟩
  | @joined k token hnone =>
    have hne : t ≠ k := by
      rintro rfl
      rw [hnone] at ht
      cases ht
    obtain ⟨task', ht', htoken, hsignal, hphase⟩ := State.dropSender_task
      { st with activeQueues := update st.activeQueues token (some k) } ht
      (st.activeQueues token)
    refine ⟨task', (update_of_ne hne _ _).trans ht', htoken, hsignal, ?_⟩
    rw [hphase]
    exact .of_quiet fun _ he => by rw [List.mem_singleton.mp he]; rfl
  | @announced k task' hk =>
    by_cases hne : t = k
    · subst hne
      obtain rfl := Option.some.inj (ht.symm.trans hk)
      exact ⟨_, update_self .., rfl, id, .stays fun e he _ => List.mem_singleton.mp he⟩
    · refine ⟨task, (update_of_ne hne _ _).trans ht, rfl, id, .of_other hne ?_⟩
      exact fun _ he => by rw [List.mem_singleton.mp he]; rfl
  | @moved k task' phase _ hk hmoves =>
    by_cases hne : t = k
    · subst hne
      obtain rfl := Option.some.inj (ht.symm.trans hk)
      exact ⟨_, update_self .., rfl, id, .moves hmoves⟩
    · exact ⟨task, (update_of_ne hne _ _).trans ht, rfl, id, .of_other hne hmoves.mover⟩
  | @left k task' hk hphase =>
    by_cases hne : t = k
    · subst hne
      obtain rfl := Option.some.inj (ht.symm.trans hk)
      obtain ⟨task', ht', htoken, hsignal, hended⟩ := State.dropSender_task
        { st.setTask t { task with phase := .ended } with
          activeQueues := update st.activeQueues task.token none }
        (update_self ..) (st.activeQueues task.token)
      refine ⟨task', ht', htoken, hsignal, ?_⟩
      rw [hended]
      exact .ends hphase _
    · obtain ⟨task'', ht', htoken, hsignal, hsame⟩ := State.dropSender_task
        { st.setTask k { task' with phase := .ended } with
          activeQueues := update st.activeQueues task'.token none }
        ((update_of_ne hne _ _).trans ht) (st.activeQueues task'.token)
      refine ⟨task'', ht', htoken, hsignal, ?_⟩
      rw [hsame]
      exact .of_other hne fun _ he => by rw [List.mem_singleton.mp he]; rfl
  | @cancelled token k hentry =>
    obtain ⟨task', ht', htoken, hsignal, hphase⟩ := State.signal_task
      { st with activeQueues := update st.activeQueues token none } ht k .sent
    refine ⟨task', ht', htoken, hsignal, ?_⟩
    rw [hphase]
    exact .of_quiet fun _ he => by rw [List.mem_singleton.mp he]; rfl

/-- A task of the state after the step has just been spawned by a join, or comes from one before
it. -/
theorem StepCase.of_task (h : StepCase env st events st') {task' : Task}
    (ht' : st'.tasks t = some task') :
    (∃ token, events = [.joined t token] ∧ task' = ⟨token, none, .spawned, false⟩) ∨
      ∃ task, st.tasks t = some task ∧ task'.token = task.token ∧
        Progress env st t task events task'.phase := by
  cases ht : st.tasks t with
  | some task =>
    obtain ⟨after, hafter, htoken, -, hprogress⟩ := h.progress ht
    obtain rfl := Option.some.inj (hafter.symm.trans ht')
    exact Or.inr ⟨task, rfl, htoken, hprogress⟩
  | none =>
    refine Or.inl ?_
    cases h with
    | idle | refused _ | clock _ | missed _ | reported _ => cases ht.symm.trans ht'
    | joined token hnone =>
      rcases of_update_some ht' with ⟨rfl, rfl⟩ | ⟨-, hdropped⟩
      · exact ⟨token, rfl, rfl⟩
      · rw [State.tasks_dropSender, show State.tasks _ t = none from ht] at hdropped
        cases hdropped
    | announced hk =>
      rcases of_update_some ht' with ⟨rfl, rfl⟩ | ⟨-, hold⟩
      · cases ht.symm.trans hk
      · cases ht.symm.trans hold
    | moved hk hmoves =>
      rcases of_update_some ht' with ⟨rfl, rfl⟩ | ⟨-, hold⟩
      · cases ht.symm.trans hk
      · cases ht.symm.trans hold
    | left hk hphase =>
      rw [State.tasks_dropSender] at ht'
      obtain ⟨before, hbefore, -⟩ := Option.map_eq_some_iff.mp ht'
      rcases of_update_some hbefore with ⟨rfl, rfl⟩ | ⟨-, hold⟩
      · cases ht.symm.trans hk
      · cases ht.symm.trans hold
    | cancelled hentry =>
      rw [State.tasks_signal, show State.tasks _ t = none from ht] at ht'
      cases ht'

/-- Only a join spawns a task. -/
theorem joined_of_fire {a : Action} {token : String} (hadmissible : Admissible st a)
    (h : .joined t token ∈ (fire env st a).2) : a = .join t token true := by
  cases a with
  | join t' token' authorized =>
    cases authorized with
    | true =>
      cases List.mem_singleton.mp h
      rfl
    | false => cases List.mem_singleton.mp h
  | proceed t' sec =>
    simp only [fire] at h
    split at h
    · split at h
      · next hnext => cases (Task.next_moves hadmissible hnext).mover _ h
      · cases h
    · cases h
  | advance now => cases List.mem_singleton.mp h
  | announce t' =>
    simp only [fire] at h
    split at h
    · split at h
      · cases h
      · cases List.mem_singleton.mp h
    · cases h
  | leave t' =>
    simp only [fire] at h
    split at h
    · split at h
      · cases List.mem_singleton.mp h
      · cases h
    · cases h
  | cancel token' =>
    simp only [fire] at h
    split at h <;> cases List.mem_singleton.mp h
  | register info => cases info <;> cases List.mem_singleton.mp h
  | heartbeat id players =>
    simp only [fire] at h
    split at h <;> cases List.mem_singleton.mp h

end

/-- An environment that puts the address of the server into the token. -/
def plainEnv : MatchEnv := ⟨fun claims => .ok ("v4.local." ++ claims.server), fun _ => "", fun _ => ""⟩

/-- A server with a free slot. -/
def plainServer : ServerInstance := ⟨"s", "10.0.0.1:7000", 3, 0, 4⟩

end Aetheris.Matchmaking
