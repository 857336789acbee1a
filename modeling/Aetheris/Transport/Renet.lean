import Aetheris.Protocol.Types
import Mathlib.Algebra.Order.Field.Basic
import Mathlib.Algebra.Order.Field.Rat
import Mathlib.Data.Finset.Basic
import Mathlib.Data.List.Chain
import Mathlib.Data.List.ModifyLast

/-!
# The Renet transport

A poll drains the events of the renet server, asks the rate limiter about every new connection, and
then collects the messages of the clients that renet lists. A connection that the limiter refuses is
never announced, and its identifier waits in `suppressedDisconnects` for the disconnect that renet
will report, which must not be announced either.

What renet delivers is an input: `Lawful` says what is expected of it. `Connection` is the abstract
view, a client's connections one after the other, each refused or not and closed or not. The result
is that the announcements are those of the accepted connections (`announcements_paired`), however
the events fall into polls.
-/

namespace Aetheris.Renet

/-! ## The rate limiter -/

/-- What the transport needs of a limiter. -/
structure RateLimiter (L Ip : Type) where
  check : L → Instant → Ip → L × Bool
  prune : L → Instant → L

structure TokenBucket (K : Type) where
  tokens : K
  lastRefill : Instant

structure IpRateLimiter (Ip K : Type) where
  limits : Ip → Option (TokenBucket K)
  maxRate : K

section

variable {Ip K : Type} [DecidableEq Ip] [Field K] [LinearOrder K]

/-- `as_secs_f64`, for instants in nanoseconds. -/
def secsSince (now earlier : Instant) : K := ((now - earlier : Nat) : K) / 1000000000

def IpRateLimiter.new (maxRate : K) : IpRateLimiter Ip K := ⟨fun _ => none, maxRate⟩

def IpRateLimiter.check (limiter : IpRateLimiter Ip K) (now : Instant) (ip : Ip) :
    IpRateLimiter Ip K × Bool :=
  let bucket := (limiter.limits ip).getD ⟨limiter.maxRate, now⟩
  let elapsed := secsSince now bucket.lastRefill
  let tokens := min (bucket.tokens + elapsed * limiter.maxRate) limiter.maxRate
  let allowed : Bool := 1 ≤ tokens
  let tokens := if allowed then tokens - 1 else tokens
  ({ limiter with limits := Function.update limiter.limits ip (some ⟨tokens, now⟩) }, allowed)

/-- Drops the buckets that are full and have not been used for ten minutes. -/
def IpRateLimiter.prune (limiter : IpRateLimiter Ip K) (now : Instant) : IpRateLimiter Ip K :=
  { limiter with
    limits := fun ip => (limiter.limits ip).filter fun bucket =>
      let full : Bool := limiter.maxRate - 1 / 10 ≤ bucket.tokens
      let idle : Bool := 600000000000 < now - bucket.lastRefill
      !(full && idle) }

def ipRateLimiter : RateLimiter (IpRateLimiter Ip K) Ip :=
  ⟨IpRateLimiter.check, IpRateLimiter.prune⟩

end

/-! ## Polls -/

inductive ServerEvent where
  | clientConnected (client : ClientId)
  | clientDisconnected (client : ClientId)
deriving DecidableEq, Repr

/-- An event of the renet server, with the address that the netcode transport has for the client at
that moment and the time the limiter reads. -/
structure Delivery (Ip : Type) where
  event : ServerEvent
  addr : Option Ip
  now : Instant

/-- What renet has for one poll. -/
structure Poll (Ip : Type) where
  now : Instant
  /-- `get_event` until there is none left. -/
  deliveries : List (Delivery Ip)
  /-- `clients_id` after the events. -/
  clientsId : List ClientId
  /-- `receive_message` on either channel until there is none left. -/
  unreliable : ClientId → List Bytes
  reliable : ClientId → List Bytes

structure RenetTransport (L : Type) where
  rateLimiter : L
  maxPayloadSize : Nat
  lastPrune : Instant
  suppressedDisconnects : Finset ClientId

def RenetTransport.newServer {L : Type} (rateLimiter : L) (maxPayloadSize : Nat) (now : Instant) :
    RenetTransport L :=
  ⟨rateLimiter, maxPayloadSize, now, ∅⟩

/-- Ghost: what passes between the transport and the renet server. -/
inductive Seen where
  | connected (client : ClientId) (allowed : Bool)
  | disconnected (client : ClientId)
  /-- The transport calls `disconnect`. -/
  | disconnect (client : ClientId)
deriving DecidableEq, Repr

structure PollState (L F : Type) where
  transport : RenetTransport L
  events : List (NetworkEvent F)
  seen : List Seen

section

variable {L Ip F : Type} (limiter : RateLimiter L Ip)

/-- A client without an address is not limited. -/
def RenetTransport.allows (transport : RenetTransport L) (delivery : Delivery Ip) :
    RenetTransport L × Bool :=
  match delivery.addr with
  | some ip =>
    let (rateLimiter, allowed) := limiter.check transport.rateLimiter delivery.now ip
    ({ transport with rateLimiter := rateLimiter }, allowed)
  | none => (transport, true)

def PollState.handleServerEvent (st : PollState L F) (delivery : Delivery Ip) : PollState L F :=
  match delivery.event with
  | .clientConnected client =>
    let (transport, allowed) := st.transport.allows limiter delivery
    if allowed then
      ⟨transport, st.events ++ [.clientConnected client], st.seen ++ [.connected client true]⟩
    else
      ⟨{ transport with suppressedDisconnects := insert client transport.suppressedDisconnects },
        st.events, st.seen ++ [.connected client false, .disconnect client]⟩
  | .clientDisconnected client =>
    if client ∈ st.transport.suppressedDisconnects then
      ⟨{ st.transport with
          suppressedDisconnects := st.transport.suppressedDisconnects.erase client },
        st.events, st.seen ++ [.disconnected client]⟩
    else
      ⟨st.transport, st.events ++ [.clientDisconnected client],
        st.seen ++ [.disconnected client]⟩

/-- The messages of one client; those that are too long are discarded. -/
def Poll.messages (poll : Poll Ip) (maxPayload : Nat) (client : ClientId) :
    List (NetworkEvent F) :=
  ((poll.unreliable client).filter (·.length ≤ maxPayload)).map (.unreliableMessage client) ++
    ((poll.reliable client).filter (·.length ≤ maxPayload)).map (.reliableMessage client)

/-- The limiter is pruned once a minute. -/
def RenetTransport.pruneLimiter (transport : RenetTransport L) (now : Instant) :
    RenetTransport L :=
  if 60000000000 < now - transport.lastPrune then
    { transport with
      rateLimiter := limiter.prune transport.rateLimiter now
      lastPrune := now }
  else transport

def RenetTransport.pollEvents (transport : RenetTransport L) (poll : Poll Ip) : PollState L F :=
  let transport := transport.pruneLimiter limiter poll.now
  let st := poll.deliveries.foldl (PollState.handleServerEvent limiter) ⟨transport, [], []⟩
  { st with events := st.events ++ poll.clientsId.flatMap (poll.messages transport.maxPayloadSize) }

/-! ## Runs -/

inductive Op (Ip : Type) where
  | poll (poll : Poll Ip)
  | disconnect (client : ClientId)

/-- The transport with all that it has returned from its polls and exchanged with renet. -/
structure System (L F : Type) where
  transport : RenetTransport L
  emitted : List (NetworkEvent F)
  seen : List Seen

def System.step (sys : System L F) : Op Ip → System L F
  | .poll poll =>
    let st : PollState L F := sys.transport.pollEvents limiter poll
    ⟨st.transport, sys.emitted ++ st.events, sys.seen ++ st.seen⟩
  | .disconnect client => { sys with seen := sys.seen ++ [.disconnect client] }

def System.run (sys : System L F) (ops : List (Op Ip)) : System L F :=
  ops.foldl (System.step limiter) sys

end

/-! ## What renet promises -/

/-- A sequence of ups and downs that alternates and starts with an up. -/
def Alternates (l : List Bool) : Prop := (false :: l).IsChain (· ≠ ·)

instance (l : List Bool) : Decidable (Alternates l) :=
  inferInstanceAs (Decidable ((false :: l).IsChain (· ≠ ·)))

/-- The connects and disconnects of a client that renet has delivered. -/
def delivered (c : ClientId) (seen : List Seen) : List Bool :=
  seen.filterMap fun
    | .connected c' _ => if c' = c then some true else none
    | .disconnected c' => if c' = c then some false else none
    | .disconnect _ => none

inductive Status where
  | absent
  | connected
  | disconnecting
deriving DecidableEq, Repr

def Status.next (c : ClientId) (status : Status) : Seen → Status
  | .connected c' _ => if c' = c then .connected else status
  | .disconnected c' => if c' = c then .absent else status
  | .disconnect c' => if c' = c ∧ status = .connected then .disconnecting else status

/-- What renet knows of a client. -/
def status (c : ClientId) (seen : List Seen) : Status := seen.foldl (Status.next c) .absent

/-- The identifiers that renet lists during the operation. -/
def Op.clientsId {Ip : Type} : Op Ip → List ClientId
  | .poll p => p.clientsId
  | .disconnect _ => []

/-- Renet delivers alternating events, and lists only clients that are connected and not being
disconnected. -/
structure Lawful {Ip : Type} (op : Op Ip) (seen : List Seen) : Prop where
  alternates : ∀ c, Alternates (delivered c seen)
  listed : ∀ c ∈ op.clientsId, status c seen = .connected

def Behaves {L Ip F : Type} (limiter : RateLimiter L Ip) : System L F → List (Op Ip) → Prop
  | _, [] => True
  | sys, op :: ops =>
    Lawful op (sys.step limiter op).seen ∧ Behaves limiter (sys.step limiter op) ops

/-! ## Connections -/

/-- One connection of a client. -/
structure Connection where
  accepted : Bool
  closed : Bool
deriving DecidableEq, Repr

/-- The ups and downs of a connection. -/
def Connection.links (x : Connection) : List Bool := if x.closed then [true, false] else [true]

def Connection.next (c : ClientId) (xs : List Connection) : Seen → List Connection
  | .connected c' allowed => if c' = c then xs ++ [⟨allowed, false⟩] else xs
  | .disconnected c' => if c' = c then xs.modifyLast ({ · with closed := true }) else xs
  | .disconnect _ => xs

/-- The connections of a client that renet has reported, with what the limiter said. -/
def connections (c : ClientId) (seen : List Seen) : List Connection :=
  seen.foldl (Connection.next c) []

section

variable {F : Type}

/-- The announcements of a client among the events. -/
def announced (c : ClientId) (events : List (NetworkEvent F)) : List Bool :=
  events.filterMap fun
    | .clientConnected c' => if c' = c then some true else none
    | .clientDisconnected c' => if c' = c then some false else none
    | _ => none

def IsMessageOf (c : ClientId) : NetworkEvent F → Prop
  | .unreliableMessage c' _ | .reliableMessage c' _ => c' = c
  | _ => False

end

/-! ### What an exchange adds -/

section

variable {c c' : ClientId} {seen : List Seen}

theorem delivered_append (c : ClientId) (seen new : List Seen) :
    delivered c (seen ++ new) = delivered c seen ++ delivered c new := List.filterMap_append

theorem announced_append {F : Type} (c : ClientId) (events new : List (NetworkEvent F)) :
    announced c (events ++ new) = announced c events ++ announced c new := List.filterMap_append

theorem status_rejected (c : ClientId) (seen : List Seen) :
    status c (seen ++ [.connected c false, .disconnect c]) = .disconnecting := by
  simp [status, Status.next]

theorem status_disconnected (c : ClientId) (seen : List Seen) :
    status c (seen ++ [.disconnected c]) = .absent := by
  simp [status, Status.next]

/-- A call of `disconnect` never makes a client connected. -/
theorem status_of_disconnect (h : status c (seen ++ [.disconnect c']) = .connected) :
    status c seen = .connected := by
  simp only [status, List.foldl_append, List.foldl_cons, List.foldl_nil, Status.next] at h
  split at h
  · cases h
  · exact h

theorem connections_connected (c : ClientId) (seen : List Seen) (allowed : Bool) :
    connections c (seen ++ [.connected c allowed]) = connections c seen ++ [⟨allowed, false⟩] := by
  simp [connections, Connection.next]

theorem connections_rejected (c : ClientId) (seen : List Seen) :
    connections c (seen ++ [.connected c false, .disconnect c]) =
      connections c seen ++ [⟨false, false⟩] := by
  simp [connections, Connection.next]

theorem connections_disconnect (c c' : ClientId) (seen : List Seen) :
    connections c (seen ++ [.disconnect c']) = connections c seen := by
  simp [connections, Connection.next]

theorem connections_disconnected {xs : List Connection} {x : Connection}
    (h : connections c seen = xs ++ [x]) :
    connections c (seen ++ [.disconnected c]) = xs ++ [{ x with closed := true }] := by
  have hstep : connections c (seen ++ [.disconnected c]) =
      (connections c seen).modifyLast ({ · with closed := true }) := by
    simp [connections, Connection.next]
  rw [hstep, h, List.modifyLast_concat]

end

/-- The client that an exchange is about. -/
def Seen.client : Seen → ClientId
  | .connected c _ | .disconnected c | .disconnect c => c

section

variable {c : ClientId} {new : List Seen}

theorem delivered_of_ne (h : ∀ x ∈ new, x.client ≠ c) : delivered c new = [] := by
  refine List.filterMap_eq_nil_iff.mpr fun x hx => ?_
  have hne := h x hx
  cases x with
  | connected c' allowed => exact if_neg hne
  | disconnected c' => exact if_neg hne
  | disconnect c' => rfl

theorem foldl_of_unchanged {α β : Type} {f : α → β → α} {l : List β} (a : α)
    (h : ∀ x ∈ l, ∀ a, f a x = a) : l.foldl f a = a := by
  induction l with
  | nil => rfl
  | cons x l ih =>
    rw [List.foldl_cons, h x List.mem_cons_self]
    exact ih fun y hy => h y (List.mem_cons_of_mem _ hy)

theorem status_of_ne (seen : List Seen) (h : ∀ x ∈ new, x.client ≠ c) :
    status c (seen ++ new) = status c seen := by
  unfold status
  rw [List.foldl_append]
  refine foldl_of_unchanged _ fun x hx s => ?_
  have hne := h x hx
  cases x with
  | connected c' allowed => exact if_neg hne
  | disconnected c' => exact if_neg hne
  | disconnect c' => exact if_neg fun heq => hne heq.1

theorem connections_of_ne (seen : List Seen) (h : ∀ x ∈ new, x.client ≠ c) :
    connections c (seen ++ new) = connections c seen := by
  unfold connections
  rw [List.foldl_append]
  refine foldl_of_unchanged _ fun x hx xs => ?_
  have hne := h x hx
  cases x with
  | connected c' allowed => exact if_neg hne
  | disconnected c' => exact if_neg hne
  | disconnect c' => rfl

end

/-! ## The invariant -/

/-- The last connection is open. -/
def isOpen (xs : List Connection) : Bool := xs.getLast?.any (!·.closed)

/-- Every message of the client comes while it is announced as connected. -/
def Follows {F : Type} (c : ClientId) (events : List (NetworkEvent F)) : Prop :=
  ∀ before event, before ++ [event] <+: events → IsMessageOf c event →
    (announced c before).getLast? = some true

/-- The announcements of `c` are those of its accepted connections, and the transport remembers
whether the last one is refused and open. -/
structure Paired {F : Type} (c : ClientId) (suppressed : Finset ClientId)
    (emitted : List (NetworkEvent F)) (seen : List Seen) : Prop where
  closed : (connections c seen).Pairwise fun x _ => x.closed = true
  last : (delivered c seen).getLastD false = isOpen (connections c seen)
  announced : announced c emitted =
    ((connections c seen).filter (·.accepted)).flatMap Connection.links
  suppressed : c ∈ suppressed ↔ (connections c seen).getLast? = some ⟨false, false⟩
  connected : status c seen = .connected → (connections c seen).getLast? = some ⟨true, false⟩
  messages : Follows c emitted

section

variable {c : ClientId} {l : List Bool} {b : Bool}

theorem Alternates.of_append {new : List Bool} (h : Alternates (l ++ new)) : Alternates l :=
  List.IsChain.left_of_append h

theorem Alternates.last_ne (h : Alternates (l ++ [b])) : l.getLastD false ≠ b := by
  have h : List.IsChain _ (false :: l ++ [b]) := h
  refine (List.isChain_append.mp h).2.2 (l.getLastD false) ?_ b rfl
  rw [List.getLast?_cons, List.getLastD_eq_getLast?]
  rfl

theorem alternates_links {xs : List Connection} (h : xs.Pairwise fun x _ => x.closed = true) :
    Alternates (xs.flatMap Connection.links) := by
  induction xs with
  | nil => exact List.isChain_singleton _
  | cons x xs ih =>
    obtain ⟨hx, hxs⟩ := List.pairwise_cons.mp h
    rw [List.flatMap_cons]
    have hrest := ih hxs
    unfold Alternates Connection.links at hrest ⊢
    cases hclosed : x.closed with
    | true => exact .cons_cons (by decide) (.cons_cons (by decide) hrest)
    | false =>
      -- an open connection is the last one
      cases xs with
      | nil => exact .cons_cons (by decide) (List.isChain_singleton _)
      | cons y ys =>
        rw [hx y List.mem_cons_self] at hclosed
        cases hclosed

end

section

variable {F : Type} {c c' : ClientId} {suppressed : Finset ClientId}
  {emitted : List (NetworkEvent F)} {seen : List Seen}

theorem paired_new (c : ClientId) : Paired (F := F) c ∅ [] [] where
  closed := .nil
  last := rfl
  announced := rfl
  suppressed := ⟨fun h => absurd h (Finset.notMem_empty c), nofun⟩
  connected := nofun
  messages before event hprefix := by
    have hnil := List.prefix_nil.mp hprefix
    exact absurd hnil (List.append_ne_nil_of_right_ne_nil _ (List.cons_ne_nil _ _))

theorem Follows.concat (h : Follows c emitted) {event : NetworkEvent F}
    (hevent : IsMessageOf c event → (Renet.announced c emitted).getLast? = some true) :
    Follows c (emitted ++ [event]) := by
  intro before event' hprefix hmessage
  rcases List.prefix_concat_iff.mp hprefix with heq | hold
  · obtain ⟨rfl, hsame⟩ := List.append_inj' heq rfl
    obtain rfl := List.singleton_inj.mp hsame
    exact hevent hmessage
  · exact h before event' hold hmessage

/-- When renet reports a new connection, every earlier one is closed. -/
theorem Paired.closed_of_connected (h : Paired c suppressed emitted seen) {allowed : Bool}
    (halternates : Alternates (delivered c (seen ++ [.connected c allowed]))) :
    (∀ x ∈ connections c seen, x.closed = true) ∧ c ∉ suppressed := by
  have hdown : isOpen (connections c seen) = false := by
    rw [delivered_append, show delivered c [.connected c allowed] = [true] by simp [delivered]]
      at halternates
    rw [← h.last]
    exact Bool.eq_false_of_not_eq_true halternates.last_ne
  rcases List.eq_nil_or_concat' (connections c seen) with hnil | ⟨xs, x, hxs⟩
  · rw [h.suppressed, hnil]
    exact ⟨nofun, nofun⟩
  · have hclosed := h.closed
    rw [h.suppressed]
    rw [hxs] at hdown hclosed ⊢
    have hx : x.closed = true := by simpa [isOpen] using hdown
    refine ⟨fun y hy => ?_, fun hlast => ?_⟩
    · rcases List.mem_append.mp hy with hy | hy
      · exact (List.pairwise_append.mp hclosed).2.2 y hy x List.mem_cons_self
      · rwa [List.mem_singleton.mp hy]
    · rw [List.getLast?_concat] at hlast
      rw [Option.some.inj hlast] at hx
      cases hx

/-- When renet reports a disconnect, the last connection is open. -/
theorem Paired.opened_of_disconnected (h : Paired c suppressed emitted seen)
    (halternates : Alternates (delivered c (seen ++ [.disconnected c]))) :
    ∃ xs accepted, connections c seen = xs ++ [⟨accepted, false⟩] := by
  have hup : isOpen (connections c seen) = true := by
    rw [delivered_append, show delivered c [.disconnected c] = [false] by simp [delivered]]
      at halternates
    rw [← h.last]
    exact Bool.eq_true_of_not_eq_false halternates.last_ne
  rcases List.eq_nil_or_concat' (connections c seen) with hnil | ⟨xs, x, hxs⟩
  · rw [hnil] at hup
    cases hup
  · rw [hxs] at hup
    have hx : x.closed = false := by simpa [isOpen] using hup
    exact ⟨xs, x.accepted, hxs.trans (by rw [← hx])⟩

variable {new : List Seen} {suppressed' : Finset ClientId}

/-- Nothing of `c` is said or announced. -/
theorem Paired.other (h : Paired c suppressed emitted seen)
    {events : List (NetworkEvent F)} (hnew : ∀ x ∈ new, x.client ≠ c)
    (hevents : Renet.announced c events = []) (hmessages : Follows c (emitted ++ events))
    (hsuppressed : c ∈ suppressed' ↔ c ∈ suppressed) :
    Paired c suppressed' (emitted ++ events) (seen ++ new) where
  closed := by
    rw [connections_of_ne seen hnew]
    exact h.closed
  last := by
    rw [connections_of_ne seen hnew, delivered_append, delivered_of_ne hnew, List.append_nil]
    exact h.last
  announced := by
    rw [connections_of_ne seen hnew, announced_append, hevents, List.append_nil]
    exact h.announced
  suppressed := by
    rw [connections_of_ne seen hnew, hsuppressed]
    exact h.suppressed
  connected := by
    rw [connections_of_ne seen hnew, status_of_ne seen hnew]
    exact h.connected
  messages := hmessages

/-- Nor is anything pushed. -/
theorem Paired.unannounced (h : Paired c suppressed emitted seen) (hnew : ∀ x ∈ new, x.client ≠ c)
    (hsuppressed : c ∈ suppressed' ↔ c ∈ suppressed) :
    Paired c suppressed' emitted (seen ++ new) := by
  have hmessages : Follows c (emitted ++ []) := by
    rw [List.append_nil]
    exact h.messages
  have hother := h.other hnew rfl hmessages hsuppressed
  rwa [List.append_nil] at hother

theorem Paired.accept (h : Paired c suppressed emitted seen)
    (halternates : Alternates (delivered c (seen ++ [.connected c true]))) :
    Paired c suppressed (emitted ++ [.clientConnected c]) (seen ++ [.connected c true]) := by
  obtain ⟨hclosed, hnot⟩ := h.closed_of_connected halternates
  refine ⟨?_, ?_, ?_, ?_, fun _ => ?_, h.messages.concat nofun⟩
  · rw [connections_connected]
    exact List.pairwise_append.mpr ⟨h.closed, List.pairwise_singleton _ _, fun x hx _ _ =>
      hclosed x hx⟩
  · rw [connections_connected, delivered_append]
    simp [delivered, isOpen]
  · rw [connections_connected, announced_append, h.announced, List.filter_append,
      List.flatMap_append]
    simp [Renet.announced, Connection.links]
  · rw [connections_connected, List.getLast?_concat]
    exact iff_of_false hnot (by decide)
  · rw [connections_connected, List.getLast?_concat]

theorem Paired.reject (h : Paired c suppressed emitted seen)
    (halternates : Alternates (delivered c (seen ++ [.connected c false, .disconnect c]))) :
    Paired c (insert c suppressed) emitted (seen ++ [.connected c false, .disconnect c]) := by
  have hsame : delivered c (seen ++ [.connected c false, .disconnect c]) =
      delivered c (seen ++ [.connected c false]) := by simp [delivered]
  rw [hsame] at halternates
  obtain ⟨hclosed, -⟩ := h.closed_of_connected halternates
  refine ⟨?_, ?_, ?_, ?_, fun hconnected => ?_, h.messages⟩
  · rw [connections_rejected]
    exact List.pairwise_append.mpr ⟨h.closed, List.pairwise_singleton _ _, fun x hx _ _ =>
      hclosed x hx⟩
  · rw [connections_rejected, hsame, delivered_append]
    simp [delivered, isOpen]
  · rw [connections_rejected, h.announced, List.filter_append]
    simp
  · rw [connections_rejected, List.getLast?_concat]
    exact iff_of_true (Finset.mem_insert_self c suppressed) rfl
  · rw [status_rejected] at hconnected
    cases hconnected

/-- The last connection gets closed; whether that is announced is left to `emitted'`. -/
theorem Paired.close (h : Paired c suppressed emitted seen) {xs : List Connection}
    {accepted : Bool} (hxs : connections c seen = xs ++ [⟨accepted, false⟩])
    (hsuppressed : c ∉ suppressed')
    {emitted' : List (NetworkEvent F)} (hmessages : Follows c emitted')
    (hannounced : Renet.announced c emitted' =
      Renet.announced c emitted ++ if accepted then [false] else []) :
    Paired c suppressed' emitted' (seen ++ [.disconnected c]) := by
  have hafter := connections_disconnected hxs
  have hclosed := h.closed
  rw [hxs] at hclosed
  refine ⟨?_, ?_, ?_, ?_, fun hconnected => ?_, hmessages⟩
  · rw [hafter]
    obtain ⟨hxs, -, hbefore⟩ := List.pairwise_append.mp hclosed
    exact List.pairwise_append.mpr ⟨hxs, List.pairwise_singleton _ _, fun x hx _ _ =>
      hbefore x hx _ List.mem_cons_self⟩
  · rw [hafter, delivered_append]
    simp [delivered, isOpen]
  · rw [hafter, hannounced, h.announced, hxs, List.filter_append, List.filter_append,
      List.flatMap_append, List.flatMap_append, List.append_assoc]
    cases accepted <;> rfl
  · rw [hafter, List.getLast?_concat]
    exact iff_of_false hsuppressed nofun
  · rw [status_disconnected] at hconnected
    cases hconnected

theorem Paired.disconnectSuppressed (h : Paired c suppressed emitted seen) (hc : c ∈ suppressed) :
    Paired c (suppressed.erase c) emitted (seen ++ [.disconnected c]) := by
  obtain ⟨xs, hxs⟩ := List.getLast?_eq_some_iff.mp (h.suppressed.mp hc)
  exact h.close hxs (Finset.notMem_erase c suppressed) h.messages (List.append_nil _).symm

theorem Paired.disconnectAnnounced (h : Paired c suppressed emitted seen) (hc : c ∉ suppressed)
    (halternates : Alternates (delivered c (seen ++ [.disconnected c]))) :
    Paired c suppressed (emitted ++ [.clientDisconnected c]) (seen ++ [.disconnected c]) := by
  obtain ⟨xs, accepted, hxs⟩ := h.opened_of_disconnected halternates
  -- a refused connection that is open would be among the suppressed
  have haccepted : accepted = true := by
    cases accepted with
    | true => rfl
    | false => exact absurd (h.suppressed.mpr (by rw [hxs, List.getLast?_concat])) hc
  subst haccepted
  refine h.close hxs hc (h.messages.concat nofun) ?_
  rw [announced_append]
  simp [Renet.announced]

/-- Only the status of `c` can change. -/
theorem Paired.disconnect (h : Paired c suppressed emitted seen) (c' : ClientId) :
    Paired c suppressed emitted (seen ++ [.disconnect c']) where
  closed := by
    rw [connections_disconnect]
    exact h.closed
  last := by
    rw [connections_disconnect, delivered_append, show delivered c [.disconnect c'] = [] from rfl,
      List.append_nil]
    exact h.last
  announced := by
    rw [connections_disconnect]
    exact h.announced
  suppressed := by
    rw [connections_disconnect]
    exact h.suppressed
  connected hconnected := by
    rw [connections_disconnect]
    exact h.connected (status_of_disconnect hconnected)
  messages := h.messages

end

/-! ## Polls keep it -/

section

variable {L Ip F : Type} {limiter : RateLimiter L Ip} {c : ClientId}
  {emitted : List (NetworkEvent F)} {seen : List Seen}

theorem allows_suppressed (limiter : RateLimiter L Ip) (transport : RenetTransport L)
    (delivery : Delivery Ip) :
    (transport.allows limiter delivery).1.suppressedDisconnects =
      transport.suppressedDisconnects := by
  unfold RenetTransport.allows
  cases delivery.addr <;> rfl

theorem pruneLimiter_suppressed (limiter : RateLimiter L Ip) (transport : RenetTransport L)
    (now : Instant) :
    (transport.pruneLimiter limiter now).suppressedDisconnects =
      transport.suppressedDisconnects := by
  unfold RenetTransport.pruneLimiter
  split
  · rfl
  · rfl

/-- What an event of the server can lead to: the suppressed identifiers afterwards, the events that
are pushed and what is exchanged with renet. -/
inductive Outcome (suppressed : Finset ClientId) :
    Finset ClientId → List (NetworkEvent F) → List Seen → Prop where
  | accept (c : ClientId) :
      Outcome suppressed suppressed [.clientConnected c] [.connected c true]
  | reject (c : ClientId) :
      Outcome suppressed (insert c suppressed) [] [.connected c false, .disconnect c]
  | suppress (c : ClientId) (h : c ∈ suppressed) :
      Outcome suppressed (suppressed.erase c) [] [.disconnected c]
  | disconnect (c : ClientId) (h : c ∉ suppressed) :
      Outcome suppressed suppressed [.clientDisconnected c] [.disconnected c]

theorem handleServerEvent_outcome (limiter : RateLimiter L Ip) (st : PollState L F)
    (delivery : Delivery Ip) :
    ∃ events new,
      Outcome st.transport.suppressedDisconnects
        (st.handleServerEvent limiter delivery).transport.suppressedDisconnects events new ∧
      (st.handleServerEvent limiter delivery).events = st.events ++ events ∧
      (st.handleServerEvent limiter delivery).seen = st.seen ++ new := by
  unfold PollState.handleServerEvent
  split
  · next c _ =>
    have hsame := allows_suppressed limiter st.transport delivery
    dsimp only
    split
    · refine ⟨_, _, ?_, rfl, rfl⟩
      rw [hsame]
      exact .accept c
    · refine ⟨[], _, ?_, (List.append_nil _).symm, rfl⟩
      dsimp only
      rw [hsame]
      exact .reject c
  · next c _ =>
    split
    · next hmem => exact ⟨[], _, .suppress c hmem, (List.append_nil _).symm, rfl⟩
    · next hmem => exact ⟨_, _, .disconnect c hmem, rfl, rfl⟩

variable {events : List (NetworkEvent F)} {poll : Poll Ip} {suppressed : Finset ClientId}

theorem Paired.outcome {suppressed' : Finset ClientId}
    {new : List Seen} (h : Paired c suppressed emitted seen)
    (houtcome : Outcome suppressed suppressed' events new)
    (halternates : Alternates (delivered c (seen ++ new))) :
    Paired c suppressed' (emitted ++ events) (seen ++ new) := by
  -- an outcome of another client says and announces nothing of `c`
  cases houtcome with
  | accept c' =>
    by_cases hc : c' = c
    · subst hc
      exact h.accept halternates
    · refine h.other (by simpa [Seen.client] using hc) ?_ (h.messages.concat nofun) Iff.rfl
      simp [Renet.announced, hc]
  | reject c' =>
    rw [List.append_nil]
    by_cases hc : c' = c
    · subst hc
      exact h.reject halternates
    · refine h.unannounced (by simpa [Seen.client] using hc) ?_
      simp [Ne.symm hc]
  | suppress c' hmem =>
    rw [List.append_nil]
    by_cases hc : c' = c
    · subst hc
      exact h.disconnectSuppressed hmem
    · refine h.unannounced (by simpa [Seen.client] using hc) ?_
      simp [Ne.symm hc]
  | disconnect c' hmem =>
    by_cases hc : c' = c
    · subst hc
      exact h.disconnectAnnounced hmem halternates
    · refine h.other (by simpa [Seen.client] using hc) ?_ (h.messages.concat nofun) Iff.rfl
      simp [Renet.announced, hc]

theorem handleServerEvents_seen (limiter : RateLimiter L Ip) (deliveries : List (Delivery Ip)) :
    ∀ st : PollState L F, ∃ new,
      (deliveries.foldl (PollState.handleServerEvent limiter) st).seen = st.seen ++ new := by
  induction deliveries with
  | nil => exact fun st => ⟨[], (List.append_nil _).symm⟩
  | cons delivery deliveries ih =>
    intro st
    obtain ⟨_, new, -, -, hnew⟩ := handleServerEvent_outcome limiter st delivery
    obtain ⟨rest, hrest⟩ := ih (st.handleServerEvent limiter delivery)
    refine ⟨new ++ rest, ?_⟩
    rw [List.foldl_cons, hrest, hnew, List.append_assoc]

theorem Paired.handleServerEvents (deliveries : List (Delivery Ip)) :
    ∀ {st : PollState L F},
      Paired c st.transport.suppressedDisconnects (emitted ++ st.events) (seen ++ st.seen) →
      Alternates (delivered c
        (seen ++ (deliveries.foldl (PollState.handleServerEvent limiter) st).seen)) →
      Paired c (deliveries.foldl (PollState.handleServerEvent limiter)
          st).transport.suppressedDisconnects
        (emitted ++ (deliveries.foldl (PollState.handleServerEvent limiter) st).events)
        (seen ++ (deliveries.foldl (PollState.handleServerEvent limiter) st).seen) := by
  induction deliveries with
  | nil => exact fun h _ => h
  | cons delivery deliveries ih =>
    intro st h halternates
    obtain ⟨events, new, houtcome, hevents, hnew⟩ :=
      handleServerEvent_outcome limiter st delivery
    refine ih ?_ halternates
    -- what has been delivered by now is a part of what is delivered in the end
    obtain ⟨rest, hrest⟩ := handleServerEvents_seen limiter deliveries
      (st.handleServerEvent limiter delivery)
    have hnow : Alternates (delivered c (seen ++ st.seen ++ new)) := by
      have hall : Alternates (delivered c (seen ++ (deliveries.foldl
          (PollState.handleServerEvent limiter)
            (st.handleServerEvent limiter delivery)).seen)) := halternates
      rw [hrest, hnew, ← List.append_assoc, ← List.append_assoc, delivered_append] at hall
      exact hall.of_append
    rw [hevents, hnew, ← List.append_assoc, ← List.append_assoc]
    exact h.outcome houtcome hnow

/-- Messages of clients that are announced as connected may be added. -/
theorem Follows.append : ∀ {emitted : List (NetworkEvent F)}, Follows c emitted →
      (∀ event ∈ events, Renet.announced c [event] = []) →
      (∀ event ∈ events, IsMessageOf c event →
        (Renet.announced c emitted).getLast? = some true) →
      Follows c (emitted ++ events) := by
  induction events with
  | nil =>
    intro emitted h _ _
    rwa [List.append_nil]
  | cons event events ih =>
    intro emitted h hsilent hmessages
    have hsame : Renet.announced c (emitted ++ [event]) = Renet.announced c emitted := by
      rw [announced_append, hsilent event List.mem_cons_self, List.append_nil]
    rw [List.append_cons]
    refine ih (h.concat (hmessages event List.mem_cons_self))
      (fun e he => hsilent e (List.mem_cons_of_mem _ he)) fun e he => ?_
    rw [hsame]
    exact hmessages e (List.mem_cons_of_mem _ he)

/-- A client that renet knows as connected is announced as connected. -/
theorem Paired.announced_of_connected
    (h : Paired c suppressed emitted seen) (hconnected : status c seen = .connected) :
    (Renet.announced c emitted).getLast? = some true := by
  obtain ⟨xs, hxs⟩ := List.getLast?_eq_some_iff.mp (h.connected hconnected)
  have hlast : Renet.announced c emitted =
      (xs.filter (·.accepted)).flatMap Connection.links ++ [true] := by
    rw [h.announced, hxs, List.filter_append, List.flatMap_append]
    rfl
  rw [hlast, List.getLast?_concat]

theorem mem_messages {maxPayload : Nat} {event : NetworkEvent F}
    (h : event ∈ poll.clientsId.flatMap (poll.messages maxPayload)) :
    ∃ c' ∈ poll.clientsId, ∃ data,
      event = .unreliableMessage c' data ∨ event = .reliableMessage c' data := by
  obtain ⟨c', hc', hevent⟩ := List.mem_flatMap.mp h
  refine ⟨c', hc', ?_⟩
  rcases List.mem_append.mp hevent with hevent | hevent
  · obtain ⟨data, -, rfl⟩ := List.mem_map.mp hevent
    exact ⟨data, .inl rfl⟩
  · obtain ⟨data, -, rfl⟩ := List.mem_map.mp hevent
    exact ⟨data, .inr rfl⟩

theorem Paired.pollEvents {transport : RenetTransport L}
    (h : Paired c transport.suppressedDisconnects emitted seen)
    (hlawful : Lawful (.poll poll)
      (seen ++ (transport.pollEvents limiter poll : PollState L F).seen)) :
    Paired c (transport.pollEvents limiter poll : PollState L F).transport.suppressedDisconnects
      (emitted ++ (transport.pollEvents limiter poll : PollState L F).events)
      (seen ++ (transport.pollEvents limiter poll : PollState L F).seen) := by
  unfold RenetTransport.pollEvents at hlawful ⊢
  dsimp only at hlawful ⊢
  have hstart : Paired c (transport.pruneLimiter limiter poll.now).suppressedDisconnects
      (emitted ++ []) (seen ++ []) := by
    rw [pruneLimiter_suppressed, List.append_nil, List.append_nil]
    exact h
  generalize transport.pruneLimiter limiter poll.now = start at hlawful hstart ⊢
  have hevents : Paired c (poll.deliveries.foldl (PollState.handleServerEvent limiter)
      ⟨start, [], []⟩).transport.suppressedDisconnects _ _ :=
    Paired.handleServerEvents poll.deliveries hstart (hlawful.alternates c)
  generalize poll.deliveries.foldl (PollState.handleServerEvent limiter) ⟨start, [], []⟩ = st
    at hlawful hevents ⊢
  have hsilent : ∀ event : NetworkEvent F,
      event ∈ poll.clientsId.flatMap (poll.messages start.maxPayloadSize) →
        Renet.announced c [event] = [] := by
    intro event hevent
    obtain ⟨c', -, data, rfl | rfl⟩ := mem_messages hevent
    · rfl
    · rfl
  have hfollows := hevents.messages.append hsilent fun event hevent hmessage => by
    refine hevents.announced_of_connected (hlawful.listed c ?_)
    obtain ⟨c', hc', data, rfl | rfl⟩ := mem_messages hevent
    · exact hmessage ▸ hc'
    · exact hmessage ▸ hc'
  have hannounced : Renet.announced (F := F) c
      (poll.clientsId.flatMap (poll.messages start.maxPayloadSize)) = [] :=
    List.filterMap_eq_nil_iff.mpr fun event hevent => by
      have hnone := List.filterMap_eq_nil_iff.mp (hsilent event hevent)
      exact hnone event List.mem_cons_self
  have hnone : ∀ x ∈ ([] : List Seen), x.client ≠ c := nofun
  have hpaired := hevents.other hnone hannounced hfollows Iff.rfl
  rw [List.append_nil, List.append_assoc] at hpaired
  exact hpaired

/-! ## Runs keep it -/

theorem Paired.step {sys : System L F} {op : Op Ip}
    (h : Paired c sys.transport.suppressedDisconnects sys.emitted sys.seen)
    (hlawful : Lawful op (sys.step limiter op).seen) :
    Paired c (sys.step limiter op).transport.suppressedDisconnects (sys.step limiter op).emitted
      (sys.step limiter op).seen := by
  cases op with
  | poll poll => exact h.pollEvents hlawful
  | disconnect c' => exact h.disconnect c'

theorem Paired.run {ops : List (Op Ip)} :
    ∀ {sys : System L F},
      Paired c sys.transport.suppressedDisconnects sys.emitted sys.seen →
      Behaves limiter sys ops →
      Paired c (sys.run limiter ops).transport.suppressedDisconnects (sys.run limiter ops).emitted
        (sys.run limiter ops).seen := by
  induction ops with
  | nil => exact fun h _ => h
  | cons op ops ih => exact fun h hbehaves => ih (h.step hbehaves.1) hbehaves.2

end

/-- However the events of renet fall into polls and whatever the limiter answers: the announcements
of a client alternate, they are those of its accepted connections, its messages come while it is
announced as connected, and it is suppressed exactly while a refused connection of it is open. -/
theorem announcements_paired {L Ip F : Type} (limiter : RateLimiter L Ip) (rateLimiter : L)
    (maxPayloadSize : Nat) (now : Instant) (ops : List (Op Ip)) {sys : System L F}
    (hsys : sys = System.run limiter ⟨.newServer rateLimiter maxPayloadSize now, [], []⟩ ops)
    (hbehaves : Behaves (F := F) limiter ⟨.newServer rateLimiter maxPayloadSize now, [], []⟩ ops)
    (c : ClientId) :
    Alternates (announced c sys.emitted) ∧
      announced c sys.emitted =
        ((connections c sys.seen).filter (·.accepted)).flatMap Connection.links ∧
      (∀ before event after, sys.emitted = before ++ event :: after → IsMessageOf c event →
        (announced c before).getLast? = some true) ∧
      (c ∈ sys.transport.suppressedDisconnects ↔
        (connections c sys.seen).getLast? = some ⟨false, false⟩) := by
  have h : Paired c sys.transport.suppressedDisconnects sys.emitted sys.seen := by
    rw [hsys]
    exact (paired_new c).run hbehaves
  refine ⟨?_, h.announced, ?_, h.suppressed⟩
  · rw [h.announced]
    exact alternates_links (h.closed.filter _)
  · intro before event after heq hmessage
    refine h.messages before event ⟨after, ?_⟩ hmessage
    rw [heq, List.append_assoc]
    rfl

/-! ## A limited address -/

/-- A poll of a server whose clients all have one address. -/
def limitedPoll (now : Instant) (events : List ServerEvent) (clientsId : List ClientId) : Op Unit :=
  .poll ⟨now, events.map (⟨·, some (), now⟩), clientsId, fun c => if c = ⟨2⟩ then [[7]] else [],
    fun _ => []⟩

/-- One connection a second: client 1 is accepted, client 2 is refused, tries again in the same
second and is refused again, and is accepted two seconds later. -/
def limitedOps : List (Op Unit) :=
  [limitedPoll 0 [.clientConnected ⟨1⟩] [⟨1⟩],
    limitedPoll 300000000 [.clientConnected ⟨2⟩] [⟨1⟩],
    limitedPoll 400000000 [.clientDisconnected ⟨2⟩, .clientConnected ⟨2⟩] [⟨1⟩],
    limitedPoll 500000000 [.clientDisconnected ⟨2⟩] [⟨1⟩],
    limitedPoll 2500000000 [.clientConnected ⟨2⟩] [⟨2⟩, ⟨1⟩],
    .disconnect ⟨2⟩,
    limitedPoll 2600000000 [.clientDisconnected ⟨2⟩] [⟨1⟩]]

def limitedStart : System (IpRateLimiter Unit ℚ) ℚ := ⟨.newServer (.new 1) 1200 0, [], []⟩

theorem lawful_of_clients {Ip : Type} {op : Op Ip} {seen : List Seen} (clients : List ClientId)
    (hclients : ∀ x ∈ seen, x.client ∈ clients)
    (halternates : ∀ c ∈ clients, Alternates (delivered c seen))
    (hlisted : ∀ c ∈ op.clientsId, status c seen = .connected) : Lawful op seen := by
  refine ⟨fun c => ?_, hlisted⟩
  by_cases hc : c ∈ clients
  · exact halternates c hc
  · have hnone : ∀ x ∈ seen, x.client ≠ c := fun x hx heq => hc (heq ▸ hclients x hx)
    rw [delivered_of_ne hnone]
    exact List.isChain_singleton _

theorem limited_behaves : Behaves ipRateLimiter limitedStart limitedOps := by
  refine ⟨?_, ?_, ?_, ?_, ?_, ?_, ?_, trivial⟩
  all_goals
    exact lawful_of_clients [⟨1⟩, ⟨2⟩] (by decide +kernel) (by decide +kernel) (by decide +kernel)

/-- Client 2 is announced once, for its last connection, and its message comes then. -/
theorem announcements_paired_limited :
    announced ⟨2⟩ (limitedStart.run ipRateLimiter limitedOps).emitted = [true, false] ∧
      connections ⟨2⟩ (limitedStart.run ipRateLimiter limitedOps).seen =
        [⟨false, true⟩, ⟨false, true⟩, ⟨true, true⟩] ∧
      (limitedStart.run ipRateLimiter limitedOps).emitted.length = 4 ∧
      Alternates (announced ⟨2⟩ (limitedStart.run ipRateLimiter limitedOps).emitted) := by
  refine ⟨by decide +kernel, by decide +kernel, by decide +kernel, ?_⟩
  exact (announcements_paired ipRateLimiter (.new 1) 1200 0 limitedOps rfl limited_behaves ⟨2⟩).1

end Aetheris.Renet
