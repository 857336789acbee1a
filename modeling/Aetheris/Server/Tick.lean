import Aetheris.Protocol.Traits
import Mathlib.Algebra.Group.Nat.Defs
import Mathlib.Data.List.AList

/-!
# The tick pipeline

`TickScheduler` keeps one record for each authenticated client: the verified session and the
identifier of the session agent, if one was spawned. `tickStep` is one tick: advance the world,
poll, validate the sessions every sixtieth tick, apply the events of the batch, simulate, extract,
and send. It is written over any `WorldState`.

The transport is what goes in (`TickInput`) and what comes out (`TickOutput`). Sends are taken to
complete; the blocking of the bounded outbound channel is the subject of `Server.Outbound`.

`trace` is a ghost: the pipeline writes it and never reads it. It records the moments that
statements about whole runs speak of.
-/

namespace Aetheris

/-! ## Sessions -/

structure VerifiedSession where
  playerId : String
  jti : String
deriving DecidableEq, Repr

inductive AuthError where
  | invalidToken
  | missingJti
  | missingSub
  | sessionExpired
  | rateLimitExceeded (message : String)
deriving DecidableEq, Repr

/-- The session verifier, over its own state `A` (it keeps the activity of each session). -/
structure AuthSessionVerifier (A : Type) where
  verifySession : A → String → Option UInt64 → A × Except AuthError VerifiedSession
  isSessionAuthorized : A → String → Option UInt64 → A × Bool

/-! ## Messages -/

inductive OutboundMessage where
  | unreliable (client : ClientId) (data : Bytes)
  | reliable (client : ClientId) (data : Bytes)
  | broadcastUnreliable (data : Bytes)
deriving DecidableEq, Repr

inductive DeltaTargets where
  | broadcast
  | recipients (clients : List ClientId)
  | noRecipients
deriving DecidableEq, Repr

def maxSafePayloadSize : Nat := 1200

/-! ## The scheduler -/

abbrev ClientRecord := VerifiedSession × Option NetworkId

abbrev Clients := AList (fun _ : ClientId => ClientRecord)

structure TickScheduler (A R : Type) where
  tickRate : UInt64
  currentTick : UInt64
  authService : A
  authenticatedClients : Clients
  authTimestamps : ClientId → Option Instant
  reassembler : R
  nextMessageId : UInt32
  /-- Whether `outbound_tx` is set. -/
  hasOutbound : Bool
  spawnAtZero : Bool

def TickScheduler.new {A R : Type} (tickRate : UInt64) (authService : A) (reassembler : R) :
    TickScheduler A R :=
  ⟨tickRate, 0, authService, ∅, fun _ => none, reassembler, 1, false, false⟩

/-- What the scheduler takes from elsewhere. The two orders are those in which a visit of the
client map and of the map of batches meets the keys. -/
structure ServerEnv (A R F : Type) where
  verifier : AuthSessionVerifier A
  reassembler : Reassembler R
  encoder : Encoder F
  /-- Whether `AETHERIS_ENV` is `dev`. -/
  isDev : Bool
  versionServer : String
  versionProtocol : String
  maxFragmentPayloadSize : Nat
  clientOrder : List ClientId → List ClientId
  clientOrder_perm : ∀ l, (clientOrder l).Perm l
  batchOrder : List ClientId → List ClientId
  batchOrder_perm : ∀ l, (batchOrder l).Perm l

/-- A moment of a run. -/
inductive Observation (W : Type) where
  /-- `despawn_networked(agent)` is called on `world` because `client` left the client map. -/
  | departed (client : ClientId) (agent : NetworkId) (world : W)
  /-- `Possession` of `agent` has just been queued for `client`. -/
  | possessed (client : ClientId) (agent : NetworkId) (world : W)
  /-- `client` clears the world while the client map is `records`. -/
  | cleared (client : ClientId) (records : Clients)
  /-- The simulation step. -/
  | simulated (before after : W) (records : Clients)

/-- The state in the middle of a tick. -/
structure TickState (W A R : Type) where
  sched : TickScheduler A R
  world : W
  updates : List (ClientId × ComponentUpdate)
  pongResponses : List (ClientId × UInt64)
  clearAckTargets : List ClientId
  toDisconnect : List ClientId
  trace : List (Observation W)

structure TickInput (F : Type) where
  polled : Except TransportError (List (NetworkEvent F))
  now : Instant

structure TickOutput (W : Type) where
  /-- Acknowledgements and pongs, handed to the transport by the tick itself. -/
  direct : List OutboundMessage
  /-- Messages put into the outbound channel. -/
  outbound : List OutboundMessage
  disconnects : List ClientId
  trace : List (Observation W)

section

variable {W A R F : Type} (env : ServerEnv A R F) (ws : WorldState W F)

def canRunPlaygroundCommand (jti : String) : Bool := jti = "admin" || env.isDev

/-- The manifest, in the order of its keys. -/
def getFilteredManifest (s : TickScheduler A R) (jti : String) : List (String × String) :=
  (if canRunPlaygroundCommand env jti then
    [("clients_active", toString s.authenticatedClients.keys.length),
      ("tick_rate", toString s.tickRate.toNat)]
  else []) ++ [("version_protocol", env.versionProtocol), ("version_server", env.versionServer)]

namespace TickState

/-! ## Removing a client -/

/-- Takes `c` out of both maps and despawns its recorded agent. The seven places that remove a
client all do this. -/
def dropClient (st : TickState W A R) (c : ClientId) : TickState W A R :=
  let sched := { st.sched with
    authenticatedClients := st.sched.authenticatedClients.erase c
    authTimestamps := Function.update st.sched.authTimestamps c none }
  match st.sched.authenticatedClients.lookup c with
  | some (_, some n) =>
    { st with
      sched := sched
      world := (ws.despawnNetworked st.world n).1
      trace := st.trace ++ [.departed c n st.world] }
  | _ => { st with sched := sched }

/-- Drops `c` and schedules the transport disconnect. -/
def kickClient (st : TickState W A R) (c : ClientId) : TickState W A R :=
  let st := st.dropClient ws c
  { st with toDisconnect := st.toDisconnect ++ [c] }

/-! ## Periodic validation -/

/-- Asks the verifier about one client of the map. -/
def checkSession (tick : UInt64) (records : Clients) (acc : A × List ClientId) (c : ClientId) :
    A × List ClientId :=
  match records.lookup c with
  | some (session, _) =>
    let (auth, ok) := env.verifier.isSessionAuthorized acc.1 session.jti (some tick)
    (auth, if ok then acc.2 else acc.2 ++ [c])
  | none => acc

def validateSessions (tick : UInt64) (st : TickState W A R) : TickState W A R :=
  let records := st.sched.authenticatedClients
  let (auth, toRemove) := (env.clientOrder records.keys).foldl
    (checkSession env tick records) (st.sched.authService, [])
  toRemove.foldl (kickClient ws) { st with sched := { st.sched with authService := auth } }

/-! ## Authentication -/

/-- The other clients that hold a session of the same player. -/
def oldClients (records : Clients) (c : ClientId) (session : VerifiedSession) : List ClientId :=
  (env.clientOrder records.keys).filter fun id =>
    match records.lookup id with
    | some (s, _) => s.playerId = session.playerId && id ≠ c
    | none => false

def login (now : Instant) (st : TickState W A R) (c : ClientId) (session : VerifiedSession) :
    TickState W A R :=
  -- the latest login wins: the player's other clients are dropped first
  let st := (oldClients env st.sched.authenticatedClients c session).foldl (kickClient ws) st
  { st with
    sched := { st.sched with
      authenticatedClients := st.sched.authenticatedClients.insert c (session, none)
      authTimestamps := Function.update st.sched.authTimestamps c (some now) } }

/-- A message of a client without a session: only a valid `Auth` has an effect. -/
def handleUnauthenticated (tick : UInt64) (now : Instant) (st : TickState W A R) (c : ClientId)
    (raw : Bytes) : TickState W A R :=
  match env.encoder.decodeEvent raw with
  | .ok (.auth token) =>
    -- the verifier may have changed its state even if it refuses
    let (auth, result) := env.verifier.verifySession st.sched.authService token (some tick)
    let st := { st with sched := { st.sched with authService := auth } }
    match result with
    | .ok session => st.login env ws now c session
    | .error _ => st
  | _ => st

/-! ## Protocol events of an authenticated client -/

def setAgent (records : Clients) (c : ClientId) (agent : Option NetworkId) : Clients :=
  match records.lookup c with
  | some (session, _) => records.replace c (session, agent)
  | none => records

def queuePossession (st : TickState W A R) (c : ClientId) (n : NetworkId) : TickState W A R :=
  let world := ws.queueReliableEvent st.world (some c) (.possession n)
  { st with
    world := world
    sched := { st.sched with authTimestamps := Function.update st.sched.authTimestamps c none }
    trace := st.trace ++ [.possessed c n world] }

/-- Reuses the recorded agent, or spawns one and records it. -/
def startSession [F32 F] (st : TickState W A R) (c : ClientId) : TickState W A R :=
  match st.sched.authenticatedClients.lookup c with
  | some (_, some n) => st.queuePossession ws c n
  | some (_, none) =>
    let (world, n) := ws.spawnSessionAgent st.world 1 0.0 0.0 0.0 c
    let st := { st with
      world := world
      sched := { st.sched with
        authenticatedClients := setAgent st.sched.authenticatedClients c (some n) } }
    st.queuePossession ws c n
  | none => st

/-- Clears the world and forgets the agent of the requesting client only. -/
def clearWorld (st : TickState W A R) (c : ClientId) : TickState W A R :=
  { st with
    world := ws.clearWorld st.world
    sched := { st.sched with
      authenticatedClients := setAgent st.sched.authenticatedClients c none }
    clearAckTargets := st.clearAckTargets ++ [c]
    trace := st.trace ++ [.cleared c st.sched.authenticatedClients] }

def maxStress : UInt16 := 1000

def toUpdate (e : ReplicationEvent) : ComponentUpdate :=
  ⟨e.networkId, e.componentKind, e.payload, e.tick⟩

def handleProtocol [F32 F] (st : TickState W A R) (c : ClientId) (jti : String) (raw : Bytes) :
    TickState W A R :=
  match env.encoder.decodeEvent raw with
  | .ok (.ping _ t) => { st with pongResponses := st.pongResponses ++ [(c, t)] }
  | .ok (.stressTest _ count rotate) =>
    if canRunPlaygroundCommand env jti then
      { st with world := ws.stressTest st.world (min count maxStress) rotate }
    else st
  | .ok (.spawn _ entityType x y rot) =>
    if canRunPlaygroundCommand env jti then
      { st with world := (ws.spawnKindFor st.world entityType x y rot c).1 }
    else st
  | .ok (.startSession _) => st.startSession ws c
  -- the client that the message itself names is ignored throughout
  | .ok (.clearWorld _) => if canRunPlaygroundCommand env jti then st.clearWorld ws c else st
  | .ok (.requestWorkspaceManifest _) =>
    { st with
      world := ws.queueReliableEvent st.world (some c)
        (.workspaceManifest (getFilteredManifest env st.sched jti)) }
  | .ok (.replicationBatch _ events) =>
    { st with updates := st.updates ++ events.map fun e => (c, toUpdate e) }
  | .ok _ => st
  | .error _ =>
    -- what is no protocol event may still be a single component update
    match env.encoder.decode raw with
    | .ok update => { st with updates := st.updates ++ [(c, update)] }
    | .error _ => st

/-! ## One event -/

/-- A complete message: the session is checked again, then the message is dispatched. -/
def handleMessage [F32 F] (tick : UInt64) (now : Instant) (st : TickState W A R) (c : ClientId)
    (raw : Bytes) : TickState W A R :=
  match st.sched.authenticatedClients.lookup c with
  | some (session, _) =>
    let (auth, ok) := env.verifier.isSessionAuthorized st.sched.authService session.jti (some tick)
    let st := { st with sched := { st.sched with authService := auth } }
    -- unlike the periodic check, this one does not disconnect the transport
    if ok then st.handleProtocol env ws c session.jti raw else st.dropClient ws c
  | none => st.handleUnauthenticated env ws tick now c raw

def handleFragment [F32 F] (tick : UInt64) (now : Instant) (st : TickState W A R) (c : ClientId)
    (fragment : FragmentedEvent) : TickState W A R :=
  let (reassembler, data) := env.reassembler.ingest st.sched.reassembler c fragment
  let st := { st with sched := { st.sched with reassembler := reassembler } }
  match data with
  | some raw => st.handleMessage env ws tick now c raw
  | none => st

/-- A raw message is first tried as a fragment. -/
def handleRaw [F32 F] (tick : UInt64) (now : Instant) (st : TickState W A R) (c : ClientId)
    (data : Bytes) : TickState W A R :=
  match env.encoder.decodeEvent data with
  | .ok (.fragment _ fragment) => st.handleFragment env ws tick now c fragment
  | _ => st.handleMessage env ws tick now c data

def handleEvent [F32 F] (tick : UInt64) (now : Instant) (st : TickState W A R) :
    NetworkEvent F → TickState W A R
  | .fragment c fragment => st.handleFragment env ws tick now c fragment
  | .unreliableMessage c data => st.handleRaw env ws tick now c data
  | .reliableMessage c data => st.handleRaw env ws tick now c data
  | .clientDisconnected c => st.dropClient ws c
  | .disconnected c => st.dropClient ws c
  | .sessionClosed c => st.dropClient ws c
  | .streamReset c => st.dropClient ws c
  | .ping c t =>
    if (st.sched.authenticatedClients.lookup c).isSome then
      { st with pongResponses := st.pongResponses ++ [(c, t)] }
    else st
  -- the remaining events do nothing when they arrive typed
  | _ => st

/-- Stage 2: the whole batch, then the buffered updates. An empty batch does nothing at all. -/
def applyEvents [F32 F] (tick : UInt64) (now : Instant) (st : TickState W A R)
    (events : List (NetworkEvent F)) : TickState W A R :=
  if events.isEmpty then st
  else
    let st := events.foldl (handleEvent env ws tick now) st
    { st with
      world := ws.applyUpdates st.world st.updates
      sched := { st.sched with reassembler := env.reassembler.prune st.sched.reassembler } }

end TickState

/-! ## Sending -/

/-- Encodes an acknowledgement or a pong; an encoding error drops it. -/
def sendDirect (event : NetworkEvent F) (wrap : Bytes → OutboundMessage) : List OutboundMessage :=
  match env.encoder.encodeEvent event with
  | .ok data => [wrap data]
  | .error _ => []

/-- The messages the tick hands to the transport itself. -/
def directSends (st : TickState W A R) : List OutboundMessage :=
  (st.clearAckTargets.flatMap fun c => sendDirect env (.clearWorld c) (.reliable c)) ++
    st.pongResponses.flatMap fun (c, t) => sendDirect env (.pong t) (.unreliable c)

/-- Stage 5.1: a targeted event goes to its client, any other to every authenticated client. -/
def sendReliable (s : TickScheduler A R) (event : Option ClientId × WireEvent) :
    List OutboundMessage :=
  let targets := match event.1 with
    | some c => [c]
    | none => env.clientOrder s.authenticatedClients.keys
  targets.flatMap fun c =>
    match env.encoder.encodeEvent (event.2.intoNetworkEvent c) with
    | .ok data => if s.hasOutbound then [.reliable c data] else []
    | .error _ => []

/-- The clients of the workspace of an entity; every client if it has no workspace. -/
def getDeltaTargets (world : W) (clients : List ClientId) (n : NetworkId) : DeltaTargets :=
  match ws.getEntityWorkspace world n with
  | some workspace =>
    match clients.filter fun c => ws.getClientWorkspace world c = some workspace with
    | [] => .noRecipients
    | c :: cs => .recipients (c :: cs)
  | none => .broadcast

def deltaRecipients (world : W) (clients : List ClientId) (n : NetworkId) : List ClientId :=
  match getDeltaTargets ws world clients n with
  | .broadcast => clients
  | .recipients cs => cs
  | .noRecipients => []

abbrev Batches := AList (fun _ : ClientId => List ReplicationEvent)

def addToBatch (delta : ReplicationEvent) (batches : Batches) (c : ClientId) : Batches :=
  batches.insert c ((batches.lookup c).getD [] ++ [delta])

/-- Groups the deltas by recipient. -/
def clientBatches (world : W) (clients : List ClientId) (deltas : List ReplicationEvent) :
    Batches :=
  deltas.foldl (fun batches delta =>
    (deltaRecipients ws world clients delta.networkId).foldl (addToBatch delta) batches) ∅

/-- Encodes into the scratch buffer, or into a fresh one when the batch does not fit. -/
def encodeBatch (c : ClientId) (events : List ReplicationEvent) : Except EncodeError Bytes :=
  match env.encoder.encodeEventInto (.replicationBatch c events) env.encoder.maxEncodedSize with
  | .ok data => .ok data
  | .error .bufferOverflow => env.encoder.encodeEvent (.replicationBatch c events)
  | .error e => .error e

/-- One fragment for each recipient. -/
def sendFragment (messageId : UInt32) (total : Nat) (recipients : List ClientId)
    (chunk : Bytes × Nat) : List OutboundMessage :=
  let fragment : FragmentedEvent :=
    ⟨messageId, UInt16.ofNat chunk.2, UInt16.ofNat total, chunk.1⟩
  match env.encoder.encodeEvent (.fragment ⟨0⟩ fragment) with
  | .ok data => recipients.map (.unreliable · data)
  | .error _ => []

/-- `fragment_and_send` to a list of recipients, which is how the tick calls it. -/
def fragmentAndSend (s : TickScheduler A R) (data : Bytes) (recipients : List ClientId) :
    TickScheduler A R × List OutboundMessage :=
  if s.hasOutbound then
    let chunks := data.toChunks env.maxFragmentPayloadSize
    -- the number of fragments has to fit into a `u16`
    let sent := if chunks.length < 2 ^ 16 then
        chunks.zipIdx.flatMap (sendFragment env s.nextMessageId chunks.length recipients)
      else []
    ({ s with nextMessageId := s.nextMessageId + 1 }, sent)
  else (s, [])

def sendBatch (batches : Batches) (acc : TickScheduler A R × List OutboundMessage)
    (c : ClientId) : TickScheduler A R × List OutboundMessage :=
  match encodeBatch env c ((batches.lookup c).getD []) with
  | .ok data =>
    if maxSafePayloadSize < data.length then
      let (s, sent) := fragmentAndSend env acc.1 data [c]
      (s, acc.2 ++ sent)
    else if acc.1.hasOutbound then (acc.1, acc.2 ++ [.unreliable c data])
    else acc
  | .error _ => acc

/-- Stage 5: the batches of all clients. -/
def sendDeltas (world : W) (s : TickScheduler A R) (deltas : List ReplicationEvent) :
    TickScheduler A R × List OutboundMessage :=
  let batches := clientBatches ws world (env.clientOrder s.authenticatedClients.keys) deltas
  (env.batchOrder batches.keys).foldl (sendBatch env batches) (s, [])

/-! ## The tick -/

variable [F32 F]

/-- The tick up to and including stage 2, given the polled events. -/
def receiveStage (tick : UInt64) (now : Instant) (s : TickScheduler A R) (world : W)
    (events : List (NetworkEvent F)) : TickState W A R :=
  let st : TickState W A R := ⟨s, world, [], [], [], [], []⟩
  let st := if tick % 60 = 0 then st.validateSessions env ws tick else st
  st.applyEvents env ws tick now events

/-- Stages 3 to 6. -/
def sendStage (st : TickState W A R) : (TickScheduler A R × W) × TickOutput W :=
  let world := ws.simulate st.world
  let trace := st.trace ++ [.simulated st.world world st.sched.authenticatedClients]
  let (world, deltas) := ws.extractDeltas world
  let (world, reliable) := ws.extractReliableEvents world
  let world := ws.postExtract world
  let reliableSends := reliable.flatMap (sendReliable env st.sched)
  let (s, batchSends) := sendDeltas env ws world st.sched deltas
  ((s, world), ⟨directSends env st, reliableSends ++ batchSends, st.toDisconnect, trace⟩)

/-- The world before the poll. -/
def preStage (s : TickScheduler A R) (world : W) : W :=
  let world := ws.advanceTick world
  if s.currentTick = 0 ∧ s.spawnAtZero = true then ws.stressTest world 100 true else world

/-- `tick_step`. A failed poll ends the tick after the world has advanced. -/
def tickStep (s : TickScheduler A R) (world : W) (input : TickInput F) :
    (TickScheduler A R × W) × TickOutput W :=
  let tick := s.currentTick
  let world := preStage ws s world
  let s := { s with currentTick := s.currentTick + 1 }
  match input.polled with
  | .error _ => ((s, world), ⟨[], [], [], []⟩)
  | .ok events => sendStage env ws (receiveStage env ws tick input.now s world events)

/-- A whole run: the final state and the output of every tick. -/
def runTicks (s : TickScheduler A R) (world : W) :
    List (TickInput F) → (TickScheduler A R × W) × List (TickOutput W)
  | [] => ((s, world), [])
  | input :: inputs =>
    let ((s, world), out) := tickStep env ws s world input
    let (final, outs) := runTicks s world inputs
    (final, out :: outs)

end

end Aetheris
