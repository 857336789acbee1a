import Aetheris.Server.Noninterference
import Aetheris.Server.Outbound

/-!
# The acknowledgement of `ClearWorld`

The tick hands the acknowledgement of a `ClearWorld` to the transport itself. Everything else that
is sent to a client goes through the channel, so it can be overtaken: what an earlier tick has put
into the channel may be handed over after the acknowledgement, and shows the client entities of the
world that has been cleared (`ack_overtakes`).

* `Server` is the scheduler with its world, the channel, the outbound task and a log; `Step`
  interleaves the tick with the task, as `Outbound.Step` does (`reaches_pipeline`).
* A log orders what has happened: `[x, y] <+ log` says that `x` came before `y`.
* `Drained` asks that nothing for a client is on its way when a `ClearWorld` of that client is about
  to be executed. Then nothing is overtaken (`not_handed_after_ack`).
-/

namespace Aetheris

open TickState

variable {W A R F : Type}

/-! ## Requests -/

/-- The message is a `ClearWorld` that `c` is allowed. -/
def TickState.Clears (env : ServerEnv A R F) (tick : UInt64) (st : TickState W A R) (c : ClientId)
    (raw : Bytes) : Prop :=
  ∃ id session agent, env.encoder.decodeEvent raw = .ok (.clearWorld id) ∧
    st.sched.authenticatedClients.lookup c = some (session, agent) ∧
    (env.verifier.isSessionAuthorized st.sched.authService session.jti (some tick)).2 = true ∧
    canRunPlaygroundCommand env session.jti = true

section Requests

variable [F32 F] (env : ServerEnv A R F) (ws : WorldState W F)

/-- The batch brings a `ClearWorld` that `c` is allowed when it is processed. -/
def ClearRequested (s : TickScheduler A R) (world : W) (input : TickInput F) (c : ClientId) : Prop :=
  ∃ before event after, input.polled = .ok (before ++ event :: after) ∧ event.sender = some c ∧
    let st := midTick env ws s world input.now before
    ∃ raw ∈ st.delivered env event, st.Clears env s.currentTick c raw

theorem handleProtocol_acks (st : TickState W A R) (c : ClientId) (jti : String) (raw : Bytes) :
    (st.handleProtocol env ws c jti raw).clearAckTargets = st.clearAckTargets ∨
      (∃ id, env.encoder.decodeEvent raw = .ok (.clearWorld id)) ∧
        canRunPlaygroundCommand env jti = true ∧
        (st.handleProtocol env ws c jti raw).clearAckTargets = st.clearAckTargets ++ [c] := by
  unfold handleProtocol
  split
  · exact .inl rfl
  · split <;> exact .inl rfl
  · split <;> exact .inl rfl
  · unfold startSession
    split <;> exact .inl rfl
  · next id hdecode =>
    split
    · next hallowed => exact .inr ⟨⟨id, hdecode⟩, hallowed, rfl⟩
    · exact .inl rfl
  · exact .inl rfl
  · exact .inl rfl
  · exact .inl rfl
  · split <;> exact .inl rfl

omit [F32 F] in
theorem dropClient_acks (st : TickState W A R) (c : ClientId) :
    (st.dropClient ws c).clearAckTargets = st.clearAckTargets := by
  unfold dropClient
  dsimp only
  split <;> rfl

omit [F32 F] in
theorem kickClients_acks (cs : List ClientId) (st : TickState W A R) :
    (cs.foldl (kickClient ws) st).clearAckTargets = st.clearAckTargets := by
  induction cs generalizing st with
  | nil => rfl
  | cons c cs ih => exact (ih _).trans (dropClient_acks ws st c)

theorem handleMessage_acks (st : TickState W A R) (tick : UInt64) (now : Instant) (c : ClientId)
    (raw : Bytes) :
    (st.handleMessage env ws tick now c raw).clearAckTargets = st.clearAckTargets ∨
      st.Clears env tick c raw ∧
        (st.handleMessage env ws tick now c raw).clearAckTargets = st.clearAckTargets ++ [c] := by
  unfold handleMessage
  split
  · next session agent hlookup =>
    dsimp only
    split
    · next hok =>
      refine (handleProtocol_acks env ws _ c session.jti raw).imp_right ?_
      rintro ⟨⟨id, hdecode⟩, hallowed, hacks⟩
      exact ⟨⟨id, session, agent, hdecode, hlookup, hok, hallowed⟩, hacks⟩
    · exact .inl (dropClient_acks ws _ c)
  · unfold handleUnauthenticated
    split
    · dsimp only
      split
      · exact .inl (kickClients_acks ws _ _)
      · exact .inl rfl
    · exact .inl rfl

variable {env ws}

variable {c : ClientId} {event : NetworkEvent F} {now : Instant}

/-- An acknowledgement is put down only for a request. -/
theorem handleEvent_acks {st : TickState W A R} {tick : UInt64}
    (h : c ∈ (st.handleEvent env ws tick now event).clearAckTargets) :
    c ∈ st.clearAckTargets ∨
      event.sender = some c ∧ ∃ raw ∈ st.delivered env event, st.Clears env tick c raw := by
  have heffect := handleEvent_effect env ws tick now st event
  generalize st.handleEvent env ws tick now event = st' at heffect h
  cases heffect with
  | message c' raw r hsender hraw =>
    rcases handleMessage_acks env ws { st with sched := { st.sched with reassembler := r } } tick
      now c' raw with hsame | ⟨hclears, hacks⟩
    · rw [hsame] at h
      exact .inl h
    · rw [hacks] at h
      rcases List.mem_append.mp h with hold | hnew
      · exact .inl hold
      · obtain rfl := List.mem_singleton.mp hnew
        exact .inr ⟨hsender, raw, hraw, hclears⟩
  | kept r => exact .inl h
  | drop c' hsender =>
    rw [dropClient_acks] at h
    exact .inl h
  | pong pongs => exact .inl h

theorem midTick_acks {s : TickScheduler A R} {world : W} (events after : List (NetworkEvent F))
    (h : c ∈ (midTick env ws s world now events).clearAckTargets) :
    ClearRequested env ws s world ⟨.ok (events ++ after), now⟩ c := by
  induction events using List.reverseRecOn generalizing after with
  | nil =>
    have hnil : (midTick env ws s world now []).clearAckTargets = [] := by
      unfold midTick
      dsimp only
      rw [List.foldl_nil]
      split
      · exact kickClients_acks ws _ _
      · rfl
    rw [hnil] at h
    cases h
  | append_singleton events event ih =>
    rw [List.append_assoc, List.singleton_append]
    rw [midTick_concat] at h
    rcases handleEvent_acks h with hold | ⟨hsender, hrequest⟩
    · exact ih (event :: after) hold
    · exact ⟨events, event, after, rfl, hsender, hrequest⟩

omit [F32 F] in
theorem eq_of_mem_sendDirect {wrap : Bytes → OutboundMessage}
    {m : OutboundMessage} (h : m ∈ sendDirect env event wrap) : ∃ data, m = wrap data := by
  unfold sendDirect at h
  split at h
  · next data _ => exact ⟨data, List.mem_singleton.mp h⟩
  · cases h

/-- What the tick sends itself and reliably is the acknowledgement of a request. -/
theorem clearRequested_of_direct {s : TickScheduler A R} {world : W} {input : TickInput F}
    {data : Bytes}
    (h : .reliable c data ∈ (tickStep env ws s world input).2.direct) :
    ClearRequested env ws s world input c := by
  obtain ⟨polled, now⟩ := input
  cases polled with
  | error err => cases h
  | ok events =>
    rcases List.mem_append.mp h with hack | hpong
    · obtain ⟨c', htarget, hsent⟩ := List.mem_flatMap.mp hack
      obtain ⟨data', hdata⟩ := eq_of_mem_sendDirect hsent
      cases hdata
      rw [receiveStage_eq_midTick] at htarget
      have hacks : c ∈ (midTick env ws s world now events).clearAckTargets := by
        split at htarget
        · next hempty => rwa [List.isEmpty_iff.mp hempty]
        · exact htarget
      simpa using midTick_acks events [] hacks
    · -- pongs are not reliable
      obtain ⟨⟨c', t⟩, -, hsent⟩ := List.mem_flatMap.mp hpong
      obtain ⟨data', hdata⟩ := eq_of_mem_sendDirect hsent
      cases hdata

end Requests

end Aetheris

namespace Aetheris.Outbound

open Relation TickState
open scoped List

variable {W A R F : Type}

/-! ## The system -/

/-- A message in the channel, with its number. -/
abbrev Numbered := ℕ × OutboundMessage

inductive Entry where
  | enqueued (m : Numbered)
  /-- A `ClearWorld` of this client is executed. -/
  | cleared (c : ClientId)
  /-- Handed to the transport by the tick. -/
  | direct (m : OutboundMessage)
  /-- Handed to the transport by the outbound task. -/
  | handed (m : Numbered)
deriving DecidableEq

inductive Phase (F : Type) where
  /-- Between two ticks, or waiting for the write lock. -/
  | idle
  | locked
  /-- The events of the tick have arrived. -/
  | polled (input : TickInput F)
  /-- The tick has been computed; what it sends itself goes first, then the channel is filled. -/
  | writing (direct msgs : List OutboundMessage) (disconnects : Nat)
  | released (disconnects : Nat)
  | disconnecting (disconnects : Nat)

/-- The write lock is held. -/
def Phase.isLocked : Phase F → Bool
  | .locked | .polled _ | .writing _ _ _ => true
  | _ => false

structure Server (W A R F : Type) where
  sched : TickScheduler A R
  world : W
  queue : List Numbered
  sender : SenderTask Numbered
  phase : Phase F
  /-- The number of the next message. -/
  next : ℕ
  log : List Entry

def SenderTask.message {M : Type} : SenderTask M → Option M
  | .idle => none
  | .received m | .sending m => some m

namespace Server

def init (sched : TickScheduler A R) (world : W) : Server W A R F :=
  ⟨sched, world, [], .idle, .idle, 0, []⟩

/-- The messages that have not been handed over, in their order. -/
def pending (s : Server W A R F) : List Numbered := s.sender.message.toList ++ s.queue

/-- The tick hands over `m` itself. -/
def direct (s : Server W A R F) (m : OutboundMessage) (ms msgs : List OutboundMessage) (d : Nat) :
    Server W A R F :=
  { s with phase := .writing ms msgs d, log := s.log ++ [.direct m] }

/-- The tick puts `m` into the channel. -/
def enqueue (s : Server W A R F) (m : OutboundMessage) (msgs : List OutboundMessage) (d : Nat) :
    Server W A R F :=
  { s with
    phase := .writing [] msgs d
    queue := s.queue ++ [(s.next, m)]
    next := s.next + 1
    log := s.log ++ [.enqueued (s.next, m)] }

theorem pending_enqueue (s : Server W A R F) (m : OutboundMessage) (msgs : List OutboundMessage)
    (d : Nat) : (s.enqueue m msgs d).pending = s.pending ++ [(s.next, m)] :=
  (List.append_assoc ..).symm

/-- The outbound task hands over `m`. -/
def handOver (s : Server W A R F) (m : Numbered) : Server W A R F :=
  { s with sender := .idle, log := s.log ++ [.handed m] }

end Server

def clearEntries (trace : List (Observation W)) : List Entry :=
  trace.filterMap fun
    | .cleared c _ => some (.cleared c)
    | _ => none

section System

variable [F32 F] (env : ServerEnv A R F) (ws : WorldState W F)

namespace Server

/-- Stages 2 to 5, up to what is sent. -/
def execute (s : Server W A R F) (input : TickInput F) : Server W A R F :=
  let next := tickStep env ws s.sched s.world input
  let out := next.2
  { s with
    sched := next.1.1
    world := next.1.2
    phase := .writing out.direct out.outbound out.disconnects.length
    log := s.log ++ clearEntries out.trace }

inductive Step : Server W A R F → Server W A R F → Prop where
  | lockWrite (s) (hphase : s.phase = .idle) (hsender : s.sender.isSending = false) :
      Step s { s with phase := .locked }
  | poll (s input) (hphase : s.phase = .locked) : Step s { s with phase := .polled input }
  | execute (s input) (hphase : s.phase = .polled input) : Step s (s.execute env ws input)
  | direct (s m ms msgs d) (hphase : s.phase = .writing (m :: ms) msgs d) :
      Step s (s.direct m ms msgs d)
  | enqueue (s m msgs d) (hphase : s.phase = .writing [] (m :: msgs) d)
      (hroom : s.queue.length < capacity) : Step s (s.enqueue m msgs d)
  | unlockWrite (s d) (hphase : s.phase = .writing [] [] d) : Step s { s with phase := .released d }
  | lockRead (s d) (hphase : s.phase = .released (d + 1)) :
      Step s { s with phase := .disconnecting d }
  | disconnect (s d) (hphase : s.phase = .disconnecting d) : Step s { s with phase := .released d }
  | endTick (s) (hphase : s.phase = .released 0) : Step s { s with phase := .idle }
  | receive (s m q) (hqueue : s.queue = m :: q) (hsender : s.sender = .idle) :
      Step s { s with queue := q, sender := .received m }
  | lockSend (s m) (hsender : s.sender = .received m) (hphase : s.phase.isLocked = false) :
      Step s { s with sender := .sending m }
  | send (s m) (hsender : s.sender = .sending m) : Step s (s.handOver m)

end Server

end System

/-! ## The pipeline below

Without the numbers, the log and the work of the tick, this is `Outbound.Step`. A tick whose messages
are not known yet has not begun there. -/

section Refinement

def Phase.task : Phase F → TickTask OutboundMessage
  | .idle | .locked | .polled _ => .idle
  | .writing _ msgs d => .writing msgs d
  | .released d => .released d
  | .disconnecting d => .disconnecting d

def SenderTask.map {M N : Type} (f : M → N) : SenderTask M → SenderTask N
  | .idle => .idle
  | .received m => .received (f m)
  | .sending m => .sending (f m)

theorem SenderTask.isSending_map {M N : Type} (f : M → N) (o : SenderTask M) :
    (o.map f).isSending = o.isSending := by
  cases o <;> rfl

namespace Server

def pipeline (s : Server W A R F) : Pipeline OutboundMessage :=
  ⟨s.queue.map Prod.snd, s.sender.map Prod.snd, s.phase.task⟩

/-- The outbound task never sends under the write lock. -/
def Excluded (s : Server W A R F) : Prop := s.phase.isLocked = true → s.sender.isSending = false

variable [F32 F] {env : ServerEnv A R F} {ws : WorldState W F} {s s' : Server W A R F}

theorem Excluded.step (h : s.Excluded) (hstep : Step env ws s s') : s'.Excluded := by
  intro hlocked
  cases hstep with
  | lockWrite hphase hsender => exact hsender
  | poll input hphase => exact h (by rw [hphase]; rfl)
  | execute input hphase => exact h (by rw [hphase]; rfl)
  | direct m ms msgs d hphase => exact h (by rw [hphase]; rfl)
  | enqueue m msgs d hphase hroom => exact h (by rw [hphase]; rfl)
  | receive m q hqueue hsender => rfl
  | lockSend m hsender hphase =>
    rw [show s.phase.isLocked = true from hlocked] at hphase
    cases hphase
  | send m hsender => rfl
  | _ => cases hlocked

theorem Step.pipeline (hstep : Step env ws s s') (h : s.Excluded) :
    ReflTransGen Outbound.Step s.pipeline s'.pipeline := by
  obtain ⟨sched, world, queue, sender, phase, next, log⟩ := s
  cases hstep with
  | lockWrite hphase hsender => obtain rfl := hphase; exact .refl
  | poll input hphase => obtain rfl := hphase; exact .refl
  | execute input hphase =>
    -- the lock was taken before, but only now is it known what for
    obtain rfl := hphase
    refine .head (.beginTick _ _ _ _) (.single (.lockWrite _ _ _ _ ?_))
    rw [SenderTask.isSending_map]
    exact h rfl
  | direct m ms msgs d hphase => obtain rfl := hphase; exact .refl
  | enqueue m msgs d hphase hroom =>
    obtain rfl := hphase
    have hqueue : (queue ++ [(next, m)]).map Prod.snd = queue.map Prod.snd ++ [m] :=
      List.map_append
    show ReflTransGen Outbound.Step _ ⟨(queue ++ [(next, m)]).map Prod.snd, _, .writing msgs d⟩
    rw [hqueue]
    exact .single (.enqueue _ _ m msgs d (by rw [List.length_map]; exact hroom))
  | unlockWrite d hphase => obtain rfl := hphase; exact .single (.unlockWrite _ _ d)
  | lockRead d hphase => obtain rfl := hphase; exact .single (.lockRead _ _ d)
  | disconnect d hphase => obtain rfl := hphase; exact .single (.disconnect _ _ d)
  | endTick hphase => obtain rfl := hphase; exact .single (.endTick _ _)
  | receive m q hqueue hsender =>
    obtain rfl := hqueue
    obtain rfl := hsender
    exact .single (.receive m.2 (q.map Prod.snd) _)
  | lockSend m hsender hphase =>
    obtain rfl := hsender
    refine .single (.lockSend _ m.2 _ ?_)
    cases phase with
    | writing ms msgs d => cases hphase
    | _ => rfl
  | send m hsender => obtain rfl := hsender; exact .single (.send _ m.2 _)

/-- Every run is one of the pipeline. -/
theorem reaches_pipeline {sched : TickScheduler A R} {world : W}
    (hrun : ReflTransGen (Step env ws) (init sched world) s) :
    s.Excluded ∧ ReflTransGen Outbound.Step Outbound.init s.pipeline := by
  induction hrun with
  | refl => exact ⟨nofun, .refl⟩
  | tail _ hstep ih => exact ⟨ih.1.step hstep, ih.2.trans (hstep.pipeline ih.1)⟩

end Server

end Refinement

/-! ## Orders in a log -/

theorem sublist_of_append {α : Type} {l log es : List α} {x : α} (h : l ++ [x] <+ log ++ es)
    (hx : x ∉ es) : l ++ [x] <+ log := by
  obtain ⟨l₁, l₂, heq, hlog, hes⟩ := List.sublist_append_iff.mp h
  rcases List.eq_nil_or_concat l₂ with rfl | ⟨l₂, y, rfl⟩
  · rw [heq, List.append_nil]
    exact hlog
  · have hlast : x = y := by simpa using congrArg List.getLast? heq
    exact absurd (hes.subset (by simp [hlast])) hx

theorem sublist_concat_cases {α : Type} {l log : List α} {x e : α} (h : l ++ [x] <+ log ++ [e]) :
    l ++ [x] <+ log ∨ x = e ∧ l <+ log := by
  by_cases hx : x = e
  · subst hx
    exact .inr ⟨rfl, (List.append_sublist_append_right [x]).mp h⟩
  · exact .inl (sublist_of_append h (by simpa using hx))

theorem eq_cleared_of_mem {trace : List (Observation W)} {e : Entry} (h : e ∈ clearEntries trace) :
    ∃ c, e = .cleared c := by
  obtain ⟨observation, -, he⟩ := List.mem_filterMap.mp h
  cases observation with
  | cleared c records => exact ⟨c, (Option.some.inj he).symm⟩
  | _ => cases he

/-! ## Nothing is overtaken -/

namespace Server

/-- An acknowledgement comes after everything that was enqueued for its client before. -/
structure Ordered (s : Server W A R F) : Prop where
  fresh : ∀ m, .enqueued m ∈ s.log → m.1 < s.next
  acked : ∀ m c data, [.enqueued m, .direct (.reliable c data)] <+ s.log → m ∈ s.pending →
    ¬ m.2.Reaches c
  acking : ∀ direct msgs d, s.phase = .writing direct msgs d → ∀ c data,
    .reliable c data ∈ direct → ∀ m ∈ s.pending, ¬ m.2.Reaches c
  handed : ∀ m c data, [.enqueued m, .direct (.reliable c data), .handed m] <+ s.log →
    ¬ m.2.Reaches c

theorem ordered_init (sched : TickScheduler A R) (world : W) :
    (init sched world : Server W A R F).Ordered := by
  refine ⟨nofun, ?_, nofun, ?_⟩
  · intro m c data h
    cases h
  · intro m c data h
    cases h

namespace Ordered

variable {s s' : Server W A R F}

/-- A step that leaves the log and the messages alone. -/
theorem same_log (h : s.Ordered) (hlog : s'.log = s.log) (hnext : s'.next = s.next)
    (hpending : s'.pending = s.pending)
    (hphase : ∀ direct msgs d, s'.phase = .writing direct msgs d →
      s.phase = .writing direct msgs d) : s'.Ordered := by
  constructor
  · rw [hlog, hnext]
    exact h.fresh
  · rw [hlog, hpending]
    exact h.acked
  · intro direct msgs d hwriting
    rw [hpending]
    exact h.acking direct msgs d (hphase direct msgs d hwriting)
  · rw [hlog]
    exact h.handed

/-- The next message of the tick itself, which may be an acknowledgement. -/
theorem direct (h : s.Ordered) {m₀ : OutboundMessage} {ms msgs : List OutboundMessage} {d : Nat}
    (hphase : s.phase = .writing (m₀ :: ms) msgs d) :
    (s.direct m₀ ms msgs d).Ordered := by
  constructor
  · intro m hm
    rcases List.mem_append.mp hm with hold | hadded
    · exact h.fresh m hold
    · cases List.mem_singleton.mp hadded
  · intro m c data hlog hm
    rcases sublist_concat_cases (l := [_]) hlog with hold | ⟨heq, -⟩
    · exact h.acked m c data hold hm
    · cases heq
      exact h.acking _ _ _ hphase c data List.mem_cons_self m hm
  · intro direct msgs' d' hwriting c data hack
    cases hwriting
    exact h.acking _ _ _ hphase c data (List.mem_cons_of_mem _ hack)
  · intro m c data hlog
    refine h.handed m c data (sublist_of_append (l := [_, _]) hlog ?_)
    simp

/-- A new message has a number that no entry has. -/
theorem enqueue (h : s.Ordered) (m₀ : OutboundMessage) (msgs : List OutboundMessage) (d : Nat) :
    (s.enqueue m₀ msgs d).Ordered := by
  constructor
  · intro m hm
    rcases List.mem_append.mp hm with hold | hadded
    · exact (h.fresh m hold).trans (Nat.lt_succ_self s.next)
    · cases List.mem_singleton.mp hadded
      exact Nat.lt_succ_self s.next
  · intro m c data hlog hm
    have hold : [.enqueued m, .direct (.reliable c data)] <+ s.log :=
      sublist_of_append (l := [_]) hlog (by simp)
    rw [pending_enqueue] at hm
    rcases List.mem_append.mp hm with hpending | hadded
    · exact h.acked m c data hold hpending
    · have hlt := h.fresh m (hold.subset List.mem_cons_self)
      rw [List.mem_singleton.mp hadded] at hlt
      omega
  · intro direct msgs' d' hwriting c data hack
    cases hwriting
    cases hack
  · intro m c data hlog
    refine h.handed m c data (sublist_of_append (l := [_, _]) hlog ?_)
    simp

/-- What is handed over was on its way, so no acknowledgement has overtaken it. -/
theorem handOver (h : s.Ordered) {m₀ : Numbered} (hsender : s.sender = .sending m₀) :
    (s.handOver m₀).Ordered := by
  have hpending : s.pending = m₀ :: s.queue := by
    unfold pending
    rw [hsender]
    rfl
  constructor
  · intro m hm
    rcases List.mem_append.mp hm with hold | hadded
    · exact h.fresh m hold
    · cases List.mem_singleton.mp hadded
  · intro m c data hlog hm
    refine h.acked m c data (sublist_of_append (l := [_]) hlog (by simp)) ?_
    rw [hpending]
    exact List.mem_cons_of_mem _ hm
  · intro direct msgs d hwriting c data hack m hm
    refine h.acking direct msgs d hwriting c data hack m ?_
    rw [hpending]
    exact List.mem_cons_of_mem _ hm
  · intro m c data hlog
    rcases sublist_concat_cases (l := [_, _]) hlog with hold | ⟨heq, hold⟩
    · exact h.handed m c data hold
    · cases heq
      refine h.acked _ c data hold ?_
      rw [hpending]
      exact List.mem_cons_self

end Ordered

section Drained

variable [F32 F] (env : ServerEnv A R F) (ws : WorldState W F)

/-- When a `ClearWorld` of a client is about to be executed, no message for it is on its way. -/
def Drained (s : Server W A R F) : Prop :=
  ∀ input c, s.phase = .polled input → ClearRequested env ws s.sched s.world input c →
    ∀ m ∈ s.pending, ¬ m.2.Reaches c

def DrainedStep (s s' : Server W A R F) : Prop := Step env ws s s' ∧ s.Drained env ws

variable {env ws} {s s' : Server W A R F}

theorem Ordered.execute (h : s.Ordered) {input : TickInput F} (hdrained : s.Drained env ws)
    (hphase : s.phase = .polled input) : (s.execute env ws input).Ordered := by
  have hnew : ∀ e ∈ clearEntries (tickStep env ws s.sched s.world input).2.trace,
      ∃ c, e = .cleared c := fun e => eq_cleared_of_mem
  constructor
  · intro m hm
    rcases List.mem_append.mp hm with hold | hadded
    · exact h.fresh m hold
    · obtain ⟨c, hc⟩ := hnew _ hadded
      cases hc
  · intro m c data hlog
    refine h.acked m c data (sublist_of_append (l := [_]) hlog fun hadded => ?_)
    obtain ⟨c', hc⟩ := hnew _ hadded
    cases hc
  · rintro direct msgs d hwriting c data hack m hm
    cases hwriting
    exact hdrained input c hphase (clearRequested_of_direct hack) m hm
  · intro m c data hlog
    refine h.handed m c data (sublist_of_append (l := [_, _]) hlog fun hadded => ?_)
    obtain ⟨c', hc⟩ := hnew _ hadded
    cases hc

theorem Ordered.step (h : s.Ordered) (hstep : DrainedStep env ws s s') : s'.Ordered := by
  obtain ⟨hstep, hdrained⟩ := hstep
  cases hstep with
  | execute input hphase => exact h.execute hdrained hphase
  | direct m ms msgs d hphase => exact h.direct hphase
  | enqueue m msgs d hphase hroom => exact h.enqueue m msgs d
  | send m hsender => exact h.handOver hsender
  | receive m q hqueue hsender =>
    refine h.same_log rfl rfl ?_ fun _ _ _ => id
    unfold pending
    rw [hqueue, hsender]
    rfl
  | lockSend m hsender hphase =>
    refine h.same_log rfl rfl ?_ fun _ _ _ => id
    unfold pending
    rw [hsender]
    rfl
  | _ => exact h.same_log rfl rfl rfl nofun

/-- In every interleaving in which no `ClearWorld` of a client is executed while a message for it
is on its way: after the acknowledgement, nothing is handed over that was enqueued for the client
before the `ClearWorld`. -/
theorem not_handed_after_ack {sched : TickScheduler A R} {world : W}
    (hrun : ReflTransGen (DrainedStep env ws) (init sched world) s) {m : Numbered} {c : ClientId}
    {data : Bytes}
    (hlog : [.enqueued m, .cleared c, .direct (.reliable c data), .handed m] <+ s.log) :
    ¬ m.2.Reaches c := by
  have hordered : s.Ordered := by
    clear hlog
    induction hrun with
    | refl => exact ordered_init sched world
    | tail _ hstep ih => exact ih.step hstep
  exact hordered.handed m c data ((List.Sublist.cons_cons _ (List.sublist_cons_self _ _)).trans hlog)

end Drained

/-! ## Undisturbed ticks -/

def numbered : ℕ → List OutboundMessage → List Numbered
  | _, [] => []
  | n, m :: msgs => (n, m) :: numbered (n + 1) msgs

section Undisturbed

variable [F32 F] (env : ServerEnv A R F) (ws : WorldState W F)

/-- The tick runs from its beginning to its end while the outbound task does nothing. -/
def afterTick (s : Server W A R F) (input : TickInput F) : Server W A R F :=
  let next := tickStep env ws s.sched s.world input
  let out := next.2
  { s with
    sched := next.1.1
    world := next.1.2
    queue := s.queue ++ numbered s.next out.outbound
    phase := .idle
    next := s.next + out.outbound.length
    log := s.log ++ clearEntries out.trace ++ out.direct.map .direct ++
      (numbered s.next out.outbound).map .enqueued }

/-- The outbound task hands over everything between two ticks. -/
def afterDrain (s : Server W A R F) : Server W A R F :=
  { s with queue := [], log := s.log ++ s.queue.map .handed }

variable {env ws} {r : Server W A R F → Server W A R F → Prop}
  (hr : ∀ s s', Step env ws s s' → (∀ input, s.phase ≠ .polled input) → r s s')

include hr

theorem reaches_direct (msgs : List OutboundMessage) (d : Nat) (ms : List OutboundMessage) :
    ∀ s : Server W A R F, s.phase = .writing ms msgs d →
      ReflTransGen r s
        { s with phase := .writing [] msgs d, log := s.log ++ ms.map .direct } := by
  induction ms with
  | nil =>
    intro s hphase
    rw [List.map_nil, List.append_nil, ← hphase]
  | cons m ms ih =>
    intro s hphase
    have hrest := ih (s.direct m ms msgs d) rfl
    refine .head (hr _ _ (.direct s m ms msgs d hphase) (by simp [hphase])) ?_
    simpa [direct] using hrest

theorem reaches_enqueue (d : Nat) (msgs : List OutboundMessage) :
    ∀ s : Server W A R F, s.phase = .writing [] msgs d → s.queue.length + msgs.length ≤ capacity →
      ReflTransGen r s
        { s with
          phase := .writing [] [] d
          queue := s.queue ++ numbered s.next msgs
          next := s.next + msgs.length
          log := s.log ++ (numbered s.next msgs).map .enqueued } := by
  induction msgs with
  | nil =>
    intro s hphase hroom
    simp only [numbered, List.map_nil, List.append_nil, List.length_nil, Nat.add_zero]
    rw [← hphase]
  | cons m msgs ih =>
    intro s hphase hroom
    rw [List.length_cons] at hroom
    have hrest := ih (s.enqueue m msgs d) rfl (by simp [enqueue]; omega)
    refine .head (hr _ _ (.enqueue s m msgs d hphase (by omega)) (by simp [hphase])) ?_
    simpa [enqueue, numbered, Nat.add_assoc, Nat.add_comm 1] using hrest

theorem reaches_idle (d : Nat) :
    ∀ s : Server W A R F, s.phase = .released d → ReflTransGen r s { s with phase := .idle } := by
  induction d with
  | zero => exact fun s hphase => .single (hr _ _ (.endTick s hphase) (by simp [hphase]))
  | succ d ih =>
    intro s hphase
    refine .head (hr _ _ (.lockRead s d hphase) (by simp [hphase])) ?_
    exact .head (hr _ _ (.disconnect _ d rfl) (by simp)) (ih _ rfl)

theorem reaches_afterTick {s : Server W A R F} {input : TickInput F} (hphase : s.phase = .idle)
    (hsender : s.sender.isSending = false)
    (hroom : s.queue.length + (tickStep env ws s.sched s.world input).2.outbound.length ≤ capacity)
    (hexecute : r { s with phase := .polled input }
      (execute env ws { s with phase := .polled input } input)) :
    ReflTransGen r s (s.afterTick env ws input) := by
  refine .head (hr _ _ (.lockWrite s hphase hsender) (by simp [hphase])) ?_
  refine .head (hr _ _ (.poll _ input rfl) (by simp)) ?_
  let s₁ := execute env ws { s with phase := .polled input } input
  let out := (tickStep env ws s.sched s.world input).2
  let s₂ : Server W A R F :=
    { s₁ with
      phase := .writing [] out.outbound out.disconnects.length
      log := s₁.log ++ out.direct.map .direct }
  have hdirect : ReflTransGen r s₁ s₂ := reaches_direct hr _ _ _ s₁ rfl
  have henqueue := reaches_enqueue hr _ _ s₂ rfl hroom
  refine .head hexecute (hdirect.trans (henqueue.trans ?_))
  exact .head (hr _ _ (.unlockWrite _ _ rfl) (by simp)) (reaches_idle hr _ _ rfl)

theorem reaches_afterDrain {s : Server W A R F} (hphase : s.phase = .idle)
    (hsender : s.sender = .idle) : ReflTransGen r s s.afterDrain := by
  obtain ⟨sched, world, queue, sender, phase, next, log⟩ := s
  obtain rfl := hphase
  obtain rfl := hsender
  unfold afterDrain
  dsimp only
  induction queue generalizing log with
  | nil =>
    rw [List.map_nil, List.append_nil]
  | cons m queue ih =>
    refine .head (hr _ _ (.receive _ m queue rfl rfl) (by simp)) ?_
    refine .head (hr _ _ (.lockSend _ m rfl rfl) (by simp)) ?_
    refine .head (hr _ _ (.send _ m rfl) (by simp)) ?_
    have hrest := ih (log ++ [.handed m])
    rw [List.append_assoc] at hrest
    exact hrest

end Undisturbed

/-! ## Two clients -/

/-- An idle server over the empty world. -/
def byteServer : Server (BevyWorldAdapter ℚ) Unit Unit ℚ :=
  init (.initial 60 () () true false) BevyWorldAdapter.emptyAdapter

def byteTick (s : Server (BevyWorldAdapter ℚ) Unit Unit ℚ) (events : List (NetworkEvent ℚ)) :
    Server (BevyWorldAdapter ℚ) Unit Unit ℚ :=
  s.afterTick byteEnv (bevyWorldState rationalPlatform) ⟨.ok events, 0⟩

/-- Client 1 starts its session. -/
def startedServer : Server (BevyWorldAdapter ℚ) Unit Unit ℚ :=
  byteServer.byteTick [.reliableMessage ⟨1⟩ [0], .reliableMessage ⟨1⟩ [2]]

/-- Client 1 clears the world in the next tick, before the outbound task gets to run. -/
def overtaken : Server (BevyWorldAdapter ℚ) Unit Unit ℚ :=
  (startedServer.byteTick [.reliableMessage ⟨1⟩ [3]]).afterDrain

/-- The acknowledgement overtakes the message about the agent that has been cleared away. -/
theorem ack_overtakes :
    ReflTransGen (Step byteEnv (bevyWorldState rationalPlatform)) byteServer overtaken ∧
      [.enqueued (0, .reliable ⟨1⟩ []), .cleared ⟨1⟩, .direct (.reliable ⟨1⟩ []),
        .handed (0, .reliable ⟨1⟩ [])] <+ overtaken.log := by
  have hr : ∀ s s', Step byteEnv (bevyWorldState rationalPlatform) s s' →
      (∀ input, s.phase ≠ .polled input) →
      Step byteEnv (bevyWorldState rationalPlatform) s s' := fun _ _ h _ => h
  have hstart : ReflTransGen (Step byteEnv (bevyWorldState rationalPlatform)) byteServer
      startedServer := reaches_afterTick hr rfl rfl (by decide +kernel) (.execute _ _ rfl)
  have hclear : ReflTransGen (Step byteEnv (bevyWorldState rationalPlatform)) startedServer
      (startedServer.byteTick [.reliableMessage ⟨1⟩ [3]]) :=
    reaches_afterTick hr rfl rfl (by decide +kernel) (.execute _ _ rfl)
  exact ⟨(hstart.trans hclear).trans (reaches_afterDrain hr rfl rfl), by decide +kernel⟩

/-- Client 2 starts its session. -/
def waitingServer : Server (BevyWorldAdapter ℚ) Unit Unit ℚ :=
  byteServer.byteTick [.reliableMessage ⟨2⟩ [1], .reliableMessage ⟨2⟩ [2]]

/-- The messages of client 2 are still on their way when client 1 logs in and clears the world. -/
def clearingEvents : List (NetworkEvent ℚ) := [.reliableMessage ⟨1⟩ [0], .reliableMessage ⟨1⟩ [3]]

theorem drained_clearingEvents {s : Server (BevyWorldAdapter ℚ) Unit Unit ℚ}
    (h : ∀ m ∈ s.pending, ¬ m.2.Reaches ⟨1⟩) :
    Drained byteEnv (bevyWorldState rationalPlatform)
      { s with phase := .polled ⟨.ok clearingEvents, 0⟩ } := by
  rintro input c hphase ⟨before, event, after, hpolled, hsender, -⟩
  obtain rfl := Phase.polled.inj hphase
  -- whatever is asked for in this tick, client 1 asks for it
  have hevent : event ∈ clearingEvents := by
    rw [Except.ok.inj hpolled]
    exact List.mem_append_right _ List.mem_cons_self
  have hc : c = ⟨1⟩ := by
    simp only [clearingEvents, List.mem_cons, List.not_mem_nil, or_false] at hevent
    rcases hevent with rfl | rfl <;> exact (Option.some.inj hsender).symm
  rw [hc]
  exact h

theorem not_handed_after_ack_other :
    [.enqueued (0, .reliable ⟨2⟩ []), .cleared ⟨1⟩, .direct (.reliable ⟨1⟩ []),
        .handed (0, .reliable ⟨2⟩ [])] <+ (waitingServer.byteTick clearingEvents).afterDrain.log ∧
      ¬ (OutboundMessage.reliable ⟨2⟩ []).Reaches ⟨1⟩ := by
  have hr : ∀ s s', Step byteEnv (bevyWorldState rationalPlatform) s s' →
      (∀ input, s.phase ≠ .polled input) →
      DrainedStep byteEnv (bevyWorldState rationalPlatform) s s' :=
    fun _ _ h hphase => ⟨h, fun input c hpolled => absurd hpolled (hphase input)⟩
  have hstart : ReflTransGen (DrainedStep byteEnv (bevyWorldState rationalPlatform)) byteServer
      waitingServer :=
    reaches_afterTick hr rfl rfl (by decide +kernel) ⟨.execute _ _ rfl, fun _ _ _ _ => nofun⟩
  have hothers : ∀ m ∈ waitingServer.pending, ¬ m.2.Reaches ⟨1⟩ := by
    have hpending : waitingServer.pending =
        [(0, .reliable ⟨2⟩ []), (1, .unreliable ⟨2⟩ [])] := by decide +kernel
    rw [hpending]
    simp [OutboundMessage.Reaches]
  have hclear : ReflTransGen (DrainedStep byteEnv (bevyWorldState rationalPlatform)) waitingServer
      (waitingServer.byteTick clearingEvents) :=
    reaches_afterTick hr rfl rfl (by decide +kernel)
      ⟨.execute _ _ rfl, drained_clearingEvents hothers⟩
  have hlog : [.enqueued (0, .reliable ⟨2⟩ []), .cleared ⟨1⟩, .direct (.reliable ⟨1⟩ []),
      .handed (0, .reliable ⟨2⟩ [])] <+ (waitingServer.byteTick clearingEvents).afterDrain.log := by
    decide +kernel
  exact ⟨hlog, not_handed_after_ack ((hstart.trans hclear).trans (reaches_afterDrain hr rfl rfl))
    hlog⟩

/-- The first tick of client 1 as steps of the pipeline. -/
theorem reaches_pipeline_started :
    startedServer.pipeline.queue.length = 2 ∧
      ReflTransGen Outbound.Step Outbound.init startedServer.pipeline := by
  have hstart : ReflTransGen (Step byteEnv (bevyWorldState rationalPlatform)) byteServer
      startedServer :=
    reaches_afterTick (fun _ _ h _ => h) rfl rfl (by decide +kernel) (.execute _ _ rfl)
  exact ⟨by decide +kernel, (reaches_pipeline hstart).2⟩

end Server

end Aetheris.Outbound
