import Aetheris.Protocol.Types
import Mathlib.Algebra.Group.Nat.Defs
import Mathlib.Data.Finset.Card
import Mathlib.Logic.Relation

/-!
# The WebTransport bridge

Every connection has a task that sets it up and then a reader task. The reader spawns one more task
for each stream it accepts. They share the event queue, the map of connections and the client count,
and a server-side `disconnect` may come at any moment. `Act` lists the atomic sections of all of
them; a run is any interleaving.

Two laws are stated here, and each has a schedule that breaks it.

* The count is the size of the map when nothing is in progress. A `disconnect` takes the entry out
  and counts the client off, and then the reader it has stopped counts it off again
  (`counted_off_twice`). Without such a call the count is right (`count_accurate`).
* The last event of a client is its `ClientDisconnected`. Nobody waits for the stream tasks, so one
  of them may queue its message behind it (`message_after_disconnect`). If they are done by then,
  the order is right (`events_in_order`).
-/

namespace Aetheris.WebTransport

open Function Relation

/-- How far the tasks of a connection have come. -/
inductive Phase where
  /-- Not accepted, or without an identifier yet. -/
  | pending
  /-- In the map. -/
  | inserted
  /-- In the map and counted. -/
  | counted
  /-- Announced; the reader is in its loop. -/
  | reading
  /-- The loop is over. -/
  | ended
  /-- Counted off, the entry still in the map. -/
  | uncounted
  /-- Out of the map, the disconnect still to be queued. -/
  | removed
  | finished
deriving DecidableEq, Repr

structure Bridge (F : Type) where
  events : List (NetworkEvent F)
  connections : Finset ClientId
  connectedClientCount : Nat
  phase : ClientId → Phase
  /-- The stream tasks of a client that are still reading. -/
  streams : ClientId → Nat
  /-- A `disconnect` has removed its entry and not counted it off yet. It holds the lock of the map
  until then. -/
  disconnecting : Bool
  /-- Ghost: every event that was ever queued. -/
  history : List (NetworkEvent F)
  /-- Ghost: the count was decremented at zero. -/
  underflowed : Bool

namespace Bridge

variable {F : Type}

def init : Bridge F := ⟨[], ∅, 0, fun _ => .pending, fun _ => 0, false, [], false⟩

def enter (s : Bridge F) (c : ClientId) (p : Phase) : Bridge F :=
  { s with phase := Function.update s.phase c p }

def push (s : Bridge F) (event : NetworkEvent F) : Bridge F :=
  { s with events := s.events ++ [event], history := s.history ++ [event] }

/-- `fetch_add(1)`. -/
def countUp (s : Bridge F) : Bridge F :=
  { s with connectedClientCount := s.connectedClientCount + 1 }

/-- `fetch_sub(1)` on a `usize`, which wraps. -/
def countDown (s : Bridge F) : Bridge F :=
  { s with
    connectedClientCount :=
      if s.connectedClientCount = 0 then 2 ^ 64 - 1 else s.connectedClientCount - 1
    underflowed := s.underflowed || s.connectedClientCount = 0 }

def endStream (s : Bridge F) (c : ClientId) : Bridge F :=
  { s with streams := Function.update s.streams c (s.streams c - 1) }

end Bridge

open Bridge

/-- The atomic sections: the set-up, the reader loop, the stream tasks, the end of the reader, a
server-side `disconnect`, and the poll. -/
inductive Act where
  | register (c : ClientId)
  | count (c : ClientId)
  | announce (c : ClientId)
  | datagram (c : ClientId) (data : Bytes)
  | datagramFailed (c : ClientId)
  | acceptStream (c : ClientId)
  | acceptFailed (c : ClientId)
  | streamRead (c : ClientId) (data : Bytes)
  | streamFailed (c : ClientId)
  /-- More than the limit: the task ends without an event. -/
  | streamTooLong (c : ClientId)
  | uncount (c : ClientId)
  | unregister (c : ClientId)
  | finalize (c : ClientId)
  | disconnect (c : ClientId)
  | disconnectCount
  | pollEvents
deriving DecidableEq, Repr

namespace Act

variable {F : Type}

/-- An identifier is drawn once, so a connection starts from `pending`. -/
def Enabled (s : Bridge F) : Act → Prop
  | register c => s.phase c = .pending ∧ s.disconnecting = false
  | count c => s.phase c = .inserted
  | announce c => s.phase c = .counted
  | datagram c _ | datagramFailed c | acceptStream c | acceptFailed c => s.phase c = .reading
  | streamRead c _ | streamFailed c | streamTooLong c => 0 < s.streams c
  | uncount c => s.phase c = .ended
  | unregister c => s.phase c = .uncounted ∧ s.disconnecting = false
  | finalize c => s.phase c = .removed
  | disconnect _ => s.disconnecting = false
  | disconnectCount => s.disconnecting = true
  | pollEvents => True

instance (s : Bridge F) (act : Act) : Decidable (act.Enabled s) := by
  cases act <;> unfold Enabled <;> infer_instance

def apply (s : Bridge F) : Act → Bridge F
  | register c => { s with connections := insert c s.connections }.enter c .inserted
  | count c => s.countUp.enter c .counted
  | announce c => (s.push (.clientConnected c)).enter c .reading
  | datagram c data => s.push (.unreliableMessage c data)
  | datagramFailed c => (s.push (.sessionClosed c)).enter c .ended
  | acceptStream c => { s with streams := Function.update s.streams c (s.streams c + 1) }
  | acceptFailed c => s.enter c .ended
  | streamRead c data => (s.endStream c).push (.reliableMessage c data)
  | streamFailed c => (s.endStream c).push (.streamReset c)
  | streamTooLong c => s.endStream c
  | uncount c => s.countDown.enter c .uncounted
  | unregister c => { s with connections := s.connections.erase c }.enter c .removed
  | finalize c => (s.push (.clientDisconnected c)).enter c .finished
  | disconnect c =>
    if c ∈ s.connections then
      { s with connections := s.connections.erase c, disconnecting := true }
    else s
  | disconnectCount => { s.countDown with disconnecting := false }
  | pollEvents => { s with events := [] }

end Act

section Runs

variable {F : Type} (ok : Bridge F → Act → Prop)

/-- A step whose action meets `ok` in the state before it. -/
def Step (s s' : Bridge F) : Prop := ∃ act : Act, act.Enabled s ∧ ok s act ∧ s' = act.apply s

def Reaches (s : Bridge F) : Prop := ReflTransGen (Step ok) .init s

/-- What holds at first and is kept by every action that meets `ok` holds of every state that is
reached. -/
theorem Reaches.invariant {ok : Bridge F → Act → Prop} {I : Bridge F → Prop} {s : Bridge F}
    (h : Reaches ok s) (hinit : I .init)
    (hkeep : ∀ s (act : Act), I s → act.Enabled s → ok s act → I (act.apply s)) : I s := by
  induction h with
  | refl => exact hinit
  | tail _ hstep ih =>
    obtain ⟨act, henabled, hok, rfl⟩ := hstep
    exact hkeep _ act ih henabled hok

/-- Every action of the list is enabled and meets `ok` when its turn comes. -/
def Allowed (s : Bridge F) : List Act → Prop
  | [] => True
  | act :: acts => act.Enabled s ∧ ok s act ∧ Allowed (act.apply s) acts

instance [∀ s act, Decidable (ok s act)] : (s : Bridge F) → (acts : List Act) →
    Decidable (Allowed ok s acts)
  | _, [] => inferInstanceAs (Decidable True)
  | s, act :: acts =>
    have := instDecidableAllowed (act.apply s) acts
    inferInstanceAs (Decidable (act.Enabled s ∧ ok s act ∧ Allowed ok (act.apply s) acts))

theorem Reaches.run {ok : Bridge F → Act → Prop} {s : Bridge F} (h : Reaches ok s)
    {acts : List Act} (hacts : Allowed ok s acts) : Reaches ok (acts.foldl Act.apply s) := by
  induction acts generalizing s with
  | nil => exact h
  | cons act acts ih =>
    obtain ⟨henabled, hok, hrest⟩ := hacts
    exact ih (h.tail ⟨act, henabled, hok, rfl⟩) hrest

end Runs

/-! ## The client count -/

section Count

variable {F : Type}

/-- From the insertion to the removal by the reader. -/
def Phase.isMapped : Phase → Bool
  | .inserted | .counted | .reading | .ended | .uncounted => true
  | _ => false

/-- From `fetch_add` to the `fetch_sub` of the reader. -/
def Phase.isCounted : Phase → Bool
  | .counted | .reading | .ended => true
  | _ => false

/-- No set-up, no tear-down and no `disconnect` is in progress. -/
def Quiescent (s : Bridge F) : Prop :=
  (∀ c, s.phase c = .pending ∨ s.phase c = .reading ∨ s.phase c = .finished) ∧
    s.disconnecting = false

/-- The server calls `disconnect` only for clients that are not in the map any more. -/
def NoKick (s : Bridge F) (act : Act) : Prop := ∀ c, act = .disconnect c → c ∉ s.connections

/-- `S` holds the clients whose phase meets `f`. -/
def Tracks (f : Phase → Bool) (phase : ClientId → Phase) (S : Finset ClientId) : Prop :=
  ∀ c, c ∈ S ↔ f (phase c) = true

section Tracks

variable {f : Phase → Bool} {phase : ClientId → Phase} {S : Finset ClientId} {c : ClientId}
  {p q : Phase}

theorem Tracks.keep (h : Tracks f phase S) (hc : phase c = q) (hf : f p = f q) :
    Tracks f (update phase c p) S := by
  intro c'
  by_cases hc' : c' = c
  · subst hc'
    rw [update_self, hf, ← hc]
    exact h c'
  · rw [update_of_ne hc']
    exact h c'

theorem Tracks.insert (h : Tracks f phase S) (hf : f p = true) :
    Tracks f (update phase c p) (insert c S) := by
  intro c'
  rw [Finset.mem_insert]
  by_cases hc' : c' = c
  · subst hc'
    rw [update_self, hf]
    exact ⟨fun _ => rfl, fun _ => .inl rfl⟩
  · rw [update_of_ne hc', or_iff_right hc']
    exact h c'

theorem Tracks.erase (h : Tracks f phase S) (hf : f p = false) :
    Tracks f (update phase c p) (S.erase c) := by
  intro c'
  rw [Finset.mem_erase]
  by_cases hc' : c' = c
  · subst hc'
    rw [update_self, hf]
    exact ⟨fun hboth => absurd rfl hboth.1, nofun⟩
  · rw [update_of_ne hc', and_iff_right hc']
    exact h c'

end Tracks

/-- The map and the count follow the phases. -/
structure Accurate (s : Bridge F) : Prop where
  idle : s.disconnecting = false
  mapped : Tracks Phase.isMapped s.phase s.connections
  counted : ∃ S, Tracks Phase.isCounted s.phase S ∧ s.connectedClientCount = S.card
  sound : s.underflowed = false

theorem Accurate.init : Accurate (Bridge.init : Bridge F) :=
  ⟨rfl, fun _ => ⟨nofun, nofun⟩, ⟨∅, fun _ => ⟨nofun, nofun⟩, rfl⟩, rfl⟩

variable {c : ClientId} {s : Bridge F}

/-- A move of one connection that touches neither its entry nor its count. -/
theorem Accurate.enter (h : Accurate s) {p q : Phase}
    (hc : s.phase c = q) (hmapped : p.isMapped = q.isMapped)
    (hcounted : p.isCounted = q.isCounted) : Accurate (s.enter c p) := by
  obtain ⟨S, htracks, hcard⟩ := h.counted
  exact ⟨h.idle, h.mapped.keep hc hmapped, ⟨S, htracks.keep hc hcounted, hcard⟩, h.sound⟩

theorem Accurate.push (h : Accurate s) (event : NetworkEvent F) :
    Accurate (s.push event) := ⟨h.idle, h.mapped, h.counted, h.sound⟩

theorem Accurate.withStreams (h : Accurate s) (streams : ClientId → Nat) :
    Accurate { s with streams := streams } := ⟨h.idle, h.mapped, h.counted, h.sound⟩

theorem Accurate.count (h : Accurate s)
    (hc : s.phase c = .inserted) : Accurate (s.countUp.enter c .counted) := by
  obtain ⟨S, htracks, hcard⟩ := h.counted
  have hfresh : c ∉ S := by
    rw [htracks, hc]
    exact Bool.false_ne_true
  refine ⟨h.idle, h.mapped.keep hc rfl, ⟨insert c S, htracks.insert rfl, ?_⟩, h.sound⟩
  rw [Finset.card_insert_of_notMem hfresh, ← hcard]
  rfl

/-- The reader counts off a client that is counted, so the count is not zero. -/
theorem Accurate.uncount (h : Accurate s)
    (hc : s.phase c = .ended) : Accurate (s.countDown.enter c .uncounted) := by
  obtain ⟨S, htracks, hcard⟩ := h.counted
  have hmem : c ∈ S := by
    rw [htracks, hc]
    rfl
  have hpos : s.connectedClientCount ≠ 0 := by
    rw [hcard]
    exact Finset.card_ne_zero_of_mem hmem
  refine ⟨h.idle, h.mapped.keep hc rfl, ⟨S.erase c, htracks.erase rfl, ?_⟩, ?_⟩
  · rw [Finset.card_erase_of_mem hmem, ← hcard]
    exact if_neg hpos
  · show (s.underflowed || decide (s.connectedClientCount = 0)) = false
    rw [h.sound, decide_eq_false hpos]
    rfl

theorem Accurate.step (h : Accurate s) (act : Act) (henabled : act.Enabled s)
    (hkick : NoKick s act) : Accurate (act.apply s) := by
  obtain ⟨S, htracks, hcard⟩ := h.counted
  cases act with
  | register c =>
    exact ⟨h.idle, h.mapped.insert rfl, ⟨S, htracks.keep henabled.1 rfl, hcard⟩, h.sound⟩
  | count c => exact h.count henabled
  | announce c => exact (h.push _).enter henabled rfl rfl
  | datagram c data => exact h.push _
  | datagramFailed c => exact (h.push _).enter henabled rfl rfl
  | acceptStream c => exact h.withStreams _
  | acceptFailed c => exact h.enter henabled rfl rfl
  | streamRead c data => exact (h.withStreams _).push _
  | streamFailed c => exact (h.withStreams _).push _
  | streamTooLong c => exact h.withStreams _
  | uncount c => exact h.uncount henabled
  | unregister c =>
    exact ⟨h.idle, h.mapped.erase rfl, ⟨S, htracks.keep henabled.1 rfl, hcard⟩, h.sound⟩
  | finalize c => exact (h.push _).enter henabled rfl rfl
  | disconnect c =>
    show Accurate (if c ∈ s.connections then _ else s)
    rw [if_neg (hkick c rfl)]
    exact h
  | disconnectCount =>
    -- only a `disconnect` that finds its client gets this far
    rw [Act.Enabled, h.idle] at henabled
    cases henabled
  | pollEvents => exact ⟨h.idle, h.mapped, h.counted, h.sound⟩

/-- Whatever the interleaving, as long as no `disconnect` finds its client in the map: the count does
not underflow, and when nothing is in progress it is the number of entries. -/
theorem count_accurate {s : Bridge F} (h : Reaches NoKick s) :
    s.underflowed = false ∧ (Quiescent s → s.connectedClientCount = s.connections.card) := by
  have haccurate : Accurate s := h.invariant .init fun _ act hs => hs.step act
  refine ⟨haccurate.sound, fun hquiescent => ?_⟩
  obtain ⟨S, htracks, hcard⟩ := haccurate.counted
  rw [hcard]
  -- what is mapped or counted belongs to a reader in its loop
  refine congrArg Finset.card (Finset.ext fun c => ?_)
  rw [htracks, haccurate.mapped]
  rcases hquiescent.1 c with hphase | hphase | hphase
  · rw [hphase]
    exact Iff.rfl
  · rw [hphase]
    exact Iff.rfl
  · rw [hphase]
    exact Iff.rfl

/-- One client that has been set up. -/
def setUp (c : ClientId) : List Act := [.register c, .count c, .announce c]

/-- The reader of a client, from the end of its loop. -/
def tearDown (c : ClientId) : List Act := [.acceptFailed c, .uncount c, .unregister c, .finalize c]

instance (s : Bridge F) : (act : Act) → Decidable (NoKick s act)
  | .disconnect c =>
    decidable_of_iff (c ∉ s.connections)
      ⟨fun h _ heq => Act.disconnect.inj heq ▸ h, fun h => h c rfl⟩
  | .register _ | .count _ | .announce _ | .datagram _ _ | .datagramFailed _ | .acceptStream _
  | .acceptFailed _ | .streamRead _ _ | .streamFailed _ | .streamTooLong _ | .uncount _
  | .unregister _ | .finalize _ | .disconnectCount | .pollEvents => .isTrue nofun

/-- Clients 1 and 2 connect, client 1 leaves, and a late `disconnect` of client 1 finds nothing. -/
def lateDisconnect : List Act :=
  setUp ⟨1⟩ ++ setUp ⟨2⟩ ++ tearDown ⟨1⟩ ++ [Act.disconnect ⟨1⟩]

theorem count_accurate_late_disconnect :
    let s : Bridge Rat := lateDisconnect.foldl Act.apply .init
    s.connections = {⟨2⟩} ∧ s.underflowed = false ∧
      s.connectedClientCount = s.connections.card := by
  intro s
  obtain ⟨hsound, hcount⟩ := count_accurate (s := s) (Reaches.run .refl (by decide))
  refine ⟨by decide, hsound, hcount ⟨fun c => ?_, rfl⟩⟩
  by_cases h₁ : c = ⟨1⟩
  · subst h₁
    exact .inr (.inr rfl)
  · by_cases h₂ : c = ⟨2⟩
    · subst h₂
      exact .inr (.inl rfl)
    · refine .inl ?_
      simp [s, lateDisconnect, setUp, tearDown, Act.apply, enter, push, Bridge.countUp,
        Bridge.countDown, init, update, h₁, h₂]

/-- The server kicks client 1, and then the reader comes to its end. -/
def kickedClient : List Act :=
  setUp ⟨1⟩ ++ [Act.disconnect ⟨1⟩, Act.disconnectCount] ++ tearDown ⟨1⟩

theorem counted_off_twice :
    let s : Bridge Rat := kickedClient.foldl Act.apply .init
    Reaches (fun _ _ => True) s ∧ Quiescent s ∧ s.underflowed = true ∧ s.connections = ∅ ∧
      s.connectedClientCount = 2 ^ 64 - 1 := by
  intro s
  refine ⟨Reaches.run .refl (by decide), ⟨fun c => ?_, rfl⟩, by decide, by decide, by decide⟩
  by_cases h₁ : c = ⟨1⟩
  · subst h₁
    exact .inr (.inr rfl)
  · refine .inl ?_
    simp [s, kickedClient, setUp, tearDown, Act.apply, enter, push, Bridge.countUp,
      Bridge.countDown, init, update, h₁]

end Count

/-! ## The order of events -/

section Order

variable {F : Type}

/-- The events queued for a client, from the first on. -/
def eventsOf (s : Bridge F) (c : ClientId) : List (NetworkEvent F) :=
  s.history.filter fun event => event.sender = some c

/-- A message of `c`, a reset of one of its streams, or the end of its session. -/
def IsMiddle (c : ClientId) : NetworkEvent F → Prop
  | .unreliableMessage c' _ | .reliableMessage c' _ | .streamReset c' | .sessionClosed c' => c' = c
  | _ => False

/-- What has been queued for a client in each phase. -/
def Sequence (c : ClientId) (events : List (NetworkEvent F)) : Phase → Prop
  | .pending | .inserted | .counted => events = []
  | .reading | .ended | .uncounted | .removed =>
    ∃ middle, (∀ event ∈ middle, IsMiddle c event) ∧ events = .clientConnected c :: middle
  | .finished =>
    ∃ middle, (∀ event ∈ middle, IsMiddle c event) ∧
      events = .clientConnected c :: middle ++ [.clientDisconnected c]

/-- When the reader queues the disconnect, the stream tasks of its client are done. -/
def StreamsDone (s : Bridge F) (act : Act) : Prop := ∀ c, act = .finalize c → s.streams c = 0

/-- The phases in which stream tasks may be running. -/
def Phase.mayStream : Phase → Bool
  | .reading | .ended | .uncounted | .removed => true
  | _ => false

structure InOrder (s : Bridge F) (c : ClientId) : Prop where
  sequence : Sequence c (eventsOf s c) (s.phase c)
  streams : 0 < s.streams c → (s.phase c).mayStream = true

variable {c c' : ClientId} {event : NetworkEvent F} {p : Phase} {s : Bridge F}

theorem eventsOf_push_self (s : Bridge F)
    (h : event.sender = some c) : eventsOf (s.push event) c = eventsOf s c ++ [event] := by
  show (s.history ++ [event]).filter _ = _
  rw [List.filter_append, List.filter_cons_of_pos (by simpa using h), List.filter_nil]
  rfl

theorem eventsOf_push_of_ne (s : Bridge F)
    (h : event.sender = some c) (hc : c' ≠ c) : eventsOf (s.push event) c' = eventsOf s c' := by
  have hsender : ¬ event.sender = some c' := fun heq => hc (Option.some.inj (heq.symm.trans h))
  show (s.history ++ [event]).filter _ = _
  rw [List.filter_append, List.filter_cons_of_neg (by simpa using hsender), List.filter_nil,
    List.append_nil]
  rfl

/-- One more event in the middle. -/
theorem Sequence.middle {events : List (NetworkEvent F)}
    (h : Sequence c events p) (hp : p.mayStream = true)
    (hevent : IsMiddle c event) : Sequence c (events ++ [event]) p := by
  have hmore : (∃ middle, (∀ event ∈ middle, IsMiddle c event) ∧
      events = .clientConnected c :: middle) →
      ∃ middle, (∀ event ∈ middle, IsMiddle c event) ∧
        events ++ [event] = .clientConnected c :: middle := by
    rintro ⟨middle, hmiddle, rfl⟩
    refine ⟨middle ++ [event], fun e he => ?_, rfl⟩
    rcases List.mem_append.mp he with he | he
    · exact hmiddle e he
    · exact List.mem_singleton.mp he ▸ hevent
  cases p with
  | reading | ended | uncounted | removed => exact hmore h
  | _ => cases hp

theorem InOrder.init (c : ClientId) : InOrder (Bridge.init : Bridge F) c := ⟨rfl, nofun⟩

/-- What a step does not touch. -/
theorem InOrder.of_eq {s' : Bridge F} (h : InOrder s c)
    (hevents : eventsOf s' c = eventsOf s c) (hphase : s'.phase c = s.phase c)
    (hstreams : s'.streams c = s.streams c) : InOrder s' c := by
  refine ⟨?_, ?_⟩
  · rw [hevents, hphase]
    exact h.sequence
  · rw [hstreams, hphase]
    exact h.streams

/-- An event in the middle that leaves the phase as it is. -/
theorem InOrder.push (h : InOrder s c')
    (hsender : event.sender = some c) (hmiddle : IsMiddle c event)
    (hphase : (s.phase c).mayStream = true) : InOrder (s.push event) c' := by
  by_cases hc : c' = c
  · subst hc
    refine ⟨?_, h.streams⟩
    rw [eventsOf_push_self s hsender]
    exact h.sequence.middle hphase hmiddle
  · exact h.of_eq (eventsOf_push_of_ne s hsender hc) rfl rfl

/-- A move that queues nothing, between phases of the same kind. -/
theorem InOrder.enter {q : Phase} (h : InOrder s c')
    (hc : s.phase c = q) (hsequence : ∀ events : List (NetworkEvent F),
      Sequence c events q → Sequence c events p)
    (hstream : p.mayStream = q.mayStream) : InOrder (s.enter c p) c' := by
  by_cases hc' : c' = c
  · subst hc'
    refine ⟨?_, fun hpos => ?_⟩
    · show Sequence c' (eventsOf s c') (update s.phase c' p c')
      rw [update_self]
      exact hsequence _ (hc ▸ h.sequence)
    · show (update s.phase c' p c').mayStream = true
      rw [update_self, hstream, ← hc]
      exact h.streams hpos
  · exact h.of_eq rfl (update_of_ne hc' ..) rfl

/-- A change in the number of stream tasks while the reader is there. -/
theorem InOrder.withStreams (h : InOrder s c') (n : Nat) (hphase : (s.phase c).mayStream = true) :
    InOrder { s with streams := update s.streams c n } c' := by
  by_cases hc : c' = c
  · subst hc
    exact ⟨h.sequence, fun _ => hphase⟩
  · exact h.of_eq rfl rfl (update_of_ne hc ..)

/-- The first event of a client. -/
theorem InOrder.announce (h : InOrder s c')
    (hc : s.phase c = .counted) : InOrder ((s.push (.clientConnected c)).enter c .reading) c' := by
  by_cases hc' : c' = c
  · subst hc'
    have hnone : eventsOf s c' = [] := by
      have hsequence := h.sequence
      rw [hc] at hsequence
      exact hsequence
    refine ⟨?_, fun _ => ?_⟩
    · show Sequence c' (eventsOf (s.push (.clientConnected c')) c')
        (update s.phase c' .reading c')
      rw [update_self, eventsOf_push_self s rfl, hnone]
      exact ⟨[], nofun, rfl⟩
    · show (update s.phase c' .reading c').mayStream = true
      rw [update_self]
      rfl
  · exact h.of_eq (eventsOf_push_of_ne s rfl hc') (update_of_ne hc' ..) rfl

/-- The last event of a client, when none of its streams can add another. -/
theorem InOrder.finalize (h : InOrder s c') (hc : s.phase c = .removed) (hdone : s.streams c = 0) :
    InOrder ((s.push (.clientDisconnected c)).enter c .finished) c' := by
  by_cases hc' : c' = c
  · subst hc'
    have hsequence := h.sequence
    rw [hc] at hsequence
    obtain ⟨middle, hmiddle, hevents⟩ := hsequence
    refine ⟨?_, fun hpos => ?_⟩
    · show Sequence c' (eventsOf (s.push (.clientDisconnected c')) c')
        (update s.phase c' .finished c')
      rw [update_self, eventsOf_push_self s rfl, hevents]
      exact ⟨middle, hmiddle, rfl⟩
    · exact absurd hdone (Nat.pos_iff_ne_zero.mp hpos)
  · exact h.of_eq (eventsOf_push_of_ne s rfl hc') (update_of_ne hc' ..) rfl

theorem InOrder.step (h : ∀ c, InOrder s c) (act : Act) (henabled : act.Enabled s)
    (hdone : StreamsDone s act) (c' : ClientId) : InOrder (act.apply s) c' := by
  have hstream : ∀ c, s.phase c = .reading → (s.phase c).mayStream = true := fun c hc => by
    rw [hc]
    rfl
  cases act with
  | register c =>
    refine InOrder.enter (p := .inserted) ?_ henabled.1 (fun _ => id) rfl
    exact (h c').of_eq rfl rfl rfl
  | count c =>
    refine InOrder.enter (p := .counted) ?_ henabled (fun _ => id) rfl
    exact (h c').of_eq rfl rfl rfl
  | announce c => exact (h c').announce henabled
  | datagram c data => exact (h c').push rfl rfl (hstream c henabled)
  | datagramFailed c =>
    have hpush : InOrder (s.push (.sessionClosed c)) c' := (h c').push rfl rfl (hstream c henabled)
    exact hpush.enter (p := .ended) henabled (fun _ => id) rfl
  | acceptStream c => exact (h c').withStreams _ (hstream c henabled)
  | acceptFailed c => exact (h c').enter (p := .ended) henabled (fun _ => id) rfl
  | streamRead c data =>
    have hphase := (h c).streams henabled
    exact ((h c').withStreams _ hphase).push rfl rfl hphase
  | streamFailed c =>
    have hphase := (h c).streams henabled
    exact ((h c').withStreams _ hphase).push rfl rfl hphase
  | streamTooLong c => exact (h c').withStreams _ ((h c).streams henabled)
  | uncount c =>
    refine InOrder.enter (p := .uncounted) ?_ henabled (fun _ => id) rfl
    exact (h c').of_eq rfl rfl rfl
  | unregister c =>
    refine InOrder.enter (p := .removed) ?_ henabled.1 (fun _ => id) rfl
    exact (h c').of_eq rfl rfl rfl
  | finalize c => exact (h c').finalize henabled (hdone c rfl)
  | disconnect c =>
    show InOrder (if c ∈ s.connections then _ else s) c'
    split
    · exact (h c').of_eq rfl rfl rfl
    · exact h c'
  | disconnectCount => exact (h c').of_eq rfl rfl rfl
  | pollEvents => exact (h c').of_eq rfl rfl rfl

/-- Whatever the interleaving, as long as a client's stream tasks are done when its reader queues the
disconnect: its events are `ClientConnected`, then messages, resets or the end of the session, and,
once the reader has finished, one `ClientDisconnected` as the last. -/
theorem events_in_order {s : Bridge F} (h : Reaches StreamsDone s) (c : ClientId) :
    Sequence c (eventsOf s c) (s.phase c) := by
  have hall : ∀ c, InOrder s c :=
    h.invariant (I := fun s => ∀ c, InOrder s c) .init fun _ act hs => InOrder.step hs act
  exact (hall c).sequence

instance (s : Bridge F) : (act : Act) → Decidable (StreamsDone s act)
  | .finalize c =>
    decidable_of_iff (s.streams c = 0)
      ⟨fun h _ heq => Act.finalize.inj heq ▸ h, fun h => h c rfl⟩
  | .register _ | .count _ | .announce _ | .datagram _ _ | .datagramFailed _ | .acceptStream _
  | .acceptFailed _ | .streamRead _ _ | .streamFailed _ | .streamTooLong _ | .uncount _
  | .unregister _ | .disconnect _ | .disconnectCount | .pollEvents => .isTrue nofun

/-- Client 1 sends a message over a stream and leaves once it has been read. -/
def readInTime : List Act :=
  setUp ⟨1⟩ ++ [Act.acceptStream ⟨1⟩, Act.streamRead ⟨1⟩ [0]] ++ tearDown ⟨1⟩

theorem events_in_order_read :
    let s : Bridge Rat := readInTime.foldl Act.apply .init
    ∃ middle, (∀ event ∈ middle, IsMiddle ⟨1⟩ event) ∧
      eventsOf s ⟨1⟩ = .clientConnected ⟨1⟩ :: middle ++ [.clientDisconnected ⟨1⟩] := by
  intro s
  have hphase : s.phase ⟨1⟩ = .finished := rfl
  have hsequence := events_in_order (s := s) (Reaches.run .refl (by decide)) ⟨1⟩
  rw [hphase] at hsequence
  exact hsequence

/-- The reader is through before the stream task. -/
def readTooLate : List Act :=
  setUp ⟨1⟩ ++ [Act.acceptStream ⟨1⟩] ++ tearDown ⟨1⟩ ++ [Act.streamRead ⟨1⟩ [0]]

theorem message_after_disconnect :
    let s : Bridge Rat := readTooLate.foldl Act.apply .init
    Reaches (fun _ _ => True) s ∧ s.phase ⟨1⟩ = .finished ∧
      eventsOf s ⟨1⟩ =
        [.clientConnected ⟨1⟩, .clientDisconnected ⟨1⟩, .reliableMessage ⟨1⟩ [0]] :=
  ⟨Reaches.run .refl (by decide), rfl, rfl⟩

end Order

end Aetheris.WebTransport
