import Aetheris.Server.Tick
import Mathlib.Logic.Relation

/-!
# The tick and the outbound task

`run` pairs the tick with a task that drains the outbound channel. Both use the transport behind
one lock: the tick holds it for writing while it puts its messages into the channel, and the task
takes it for reading around each send. The channel is bounded, so a tick that produces more than
fits waits for a consumer that waits for the tick.

* `Step` interleaves the two tasks; a tick may produce any messages and any number of disconnects.
* While the tick holds the lock, `load` (messages queued, in the task's hand, or still to be put
  in) cannot change. `Fits` bounds it by the capacity plus one.
* `not_stuck_of_fits` and `stuck_of_not_fits` show that the bound decides whether the tick gets
  through.
-/

namespace Aetheris.Outbound

open Relation

/-- Capacity of the outbound channel. -/
def capacity : Nat := 2048

inductive SenderTask (M : Type) where
  | idle
  /-- A message has left the channel; the read lock is still missing. -/
  | received (m : M)
  /-- Sending, with the read lock held. -/
  | sending (m : M)
deriving DecidableEq, Repr

inductive TickTask (M : Type) where
  | idle
  /-- Waiting for the write lock, with the messages and the disconnects of the tick to come. -/
  | waiting (msgs : List M) (disconnects : Nat)
  /-- Write lock held, `msgs` still to be put into the channel. -/
  | writing (msgs : List M) (disconnects : Nat)
  /-- Write lock released, the disconnects remain. -/
  | released (disconnects : Nat)
  /-- Read lock held around one disconnect. -/
  | disconnecting (disconnects : Nat)
deriving DecidableEq, Repr

def SenderTask.isSending {M : Type} : SenderTask M → Bool
  | .sending _ => true
  | _ => false

/-- Messages taken from the channel and not yet sent. -/
def SenderTask.held {M : Type} : SenderTask M → Nat
  | .received _ => 1
  | _ => 0

def TickTask.isWriting {M : Type} : TickTask M → Bool
  | .writing _ _ => true
  | _ => false

structure Pipeline (M : Type) where
  queue : List M
  sender : SenderTask M
  tick : TickTask M

variable {M : Type}

def init : Pipeline M := ⟨[], .idle, .idle⟩

inductive Step : Pipeline M → Pipeline M → Prop where
  | beginTick (q o msgs d) : Step ⟨q, o, .idle⟩ ⟨q, o, .waiting msgs d⟩
  | lockWrite (q o msgs d) (h : o.isSending = false) :
      Step ⟨q, o, .waiting msgs d⟩ ⟨q, o, .writing msgs d⟩
  | enqueue (q o m msgs d) (h : q.length < capacity) :
      Step ⟨q, o, .writing (m :: msgs) d⟩ ⟨q ++ [m], o, .writing msgs d⟩
  | unlockWrite (q o d) : Step ⟨q, o, .writing [] d⟩ ⟨q, o, .released d⟩
  | lockRead (q o d) : Step ⟨q, o, .released (d + 1)⟩ ⟨q, o, .disconnecting d⟩
  | disconnect (q o d) : Step ⟨q, o, .disconnecting d⟩ ⟨q, o, .released d⟩
  | endTick (q o) : Step ⟨q, o, .released 0⟩ ⟨q, o, .idle⟩
  | receive (m q t) : Step ⟨m :: q, .idle, t⟩ ⟨q, .received m, t⟩
  | lockSend (q m t) (h : t.isWriting = false) : Step ⟨q, .received m, t⟩ ⟨q, .sending m, t⟩
  | send (q m t) : Step ⟨q, .sending m, t⟩ ⟨q, .idle, t⟩

/-- The tick is not done and neither task can move. -/
def Stuck (s : Pipeline M) : Prop := s.tick ≠ .idle ∧ ∀ s', ¬ Step s s'

/-- What the channel and the sender's hand have to take before the write lock is released. -/
def load : Pipeline M → Nat
  | ⟨q, o, .writing msgs _⟩ => q.length + o.held + msgs.length
  | _ => 0

def Fits (s : Pipeline M) : Prop := load s ≤ capacity + 1

/-- A step that takes the write lock only for a tick that fits. -/
def FittingStep (s s' : Pipeline M) : Prop :=
  Step s s' ∧ (s.tick.isWriting = false → Fits s')

/-! ## Ticks that fit -/

variable {s s' : Pipeline M}

/-- The load stays what it was while the write lock is held. -/
theorem load_step (h : Step s s') (hs : s.tick.isWriting = true)
    (hs' : s'.tick.isWriting = true) (ho : s.sender.isSending = false) : load s' = load s := by
  cases h with
  | enqueue q o m msgs d _ =>
    simp only [load, List.length_append, List.length_cons, List.length_nil]
    omega
  | receive m q t =>
    cases t with
    | writing msgs d =>
      simp only [load, SenderTask.held, List.length_cons]
    | _ => cases hs
  | lockSend q m t hw => rw [show t.isWriting = true from hs] at hw; cases hw
  | send q m t => cases ho
  | unlockWrite q o d => cases hs'
  | _ => cases hs

/-- The sender never sends under the write lock, and the channel respects its capacity. -/
structure Inv (s : Pipeline M) : Prop where
  excluded : s.tick.isWriting = true → s.sender.isSending = false
  bounded : s.queue.length ≤ capacity

theorem inv_step (h : Step s s') (hi : Inv s) : Inv s' := by
  obtain ⟨hex, hb⟩ := hi
  cases h with
  | lockWrite q o msgs d ho => exact ⟨fun _ => ho, hb⟩
  | enqueue q o m msgs d hq =>
    refine ⟨fun _ => hex rfl, ?_⟩
    simp only [List.length_append, List.length_singleton]
    omega
  | receive m q t =>
    simp only [List.length_cons] at hb
    exact ⟨fun _ => rfl, show q.length ≤ capacity by omega⟩
  | lockSend q m t hw =>
    refine ⟨fun h => ?_, hb⟩
    rw [show t.isWriting = true from h] at hw
    cases hw
  | send q m t => exact ⟨fun _ => rfl, hb⟩
  | unlockWrite q o d => exact ⟨fun h => (nomatch h), hb⟩
  | beginTick q o msgs d => exact ⟨fun h => (nomatch h), hb⟩
  | lockRead q o d => exact ⟨fun h => (nomatch h), hb⟩
  | disconnect q o d => exact ⟨fun h => (nomatch h), hb⟩
  | endTick q o => exact ⟨fun h => (nomatch h), hb⟩

theorem inv_init : Inv (init : Pipeline M) := ⟨fun h => (nomatch h), Nat.zero_le _⟩

theorem inv_of_reaches (h : ReflTransGen Step init s) : Inv s := by
  induction h with
  | refl => exact inv_init
  | tail _ hstep ih => exact inv_step hstep ih

theorem fits_of_not_writing (h : s.tick.isWriting = false) : Fits s := by
  obtain ⟨q, o, t⟩ := s
  cases t with
  | writing msgs d => cases h
  | _ => exact Nat.zero_le _

/-- In a run of fitting steps every state fits. -/
theorem fits_of_reaches (h : ReflTransGen FittingStep init s) : Inv s ∧ Fits s := by
  induction h with
  | refl => exact ⟨inv_init, fits_of_not_writing rfl⟩
  | @tail s s' _ hstep ih =>
    refine ⟨inv_step hstep.1 ih.1, ?_⟩
    cases hw : s.tick.isWriting with
    | false => exact hstep.2 hw
    | true =>
      cases hw' : s'.tick.isWriting with
      | false => exact fits_of_not_writing hw'
      | true =>
        unfold Fits
        rw [load_step hstep.1 hw hw' (ih.1.excluded hw)]
        exact ih.2

theorem not_stuck_of_fits (h : Fits s) : ¬ Stuck s := by
  rintro ⟨htick, hno⟩
  obtain ⟨q, o, t⟩ := s
  cases t with
  | idle => exact htick rfl
  | waiting msgs d =>
    cases o with
    | sending m => exact hno _ (.send q m _)
    | idle => exact hno _ (.lockWrite q _ msgs d rfl)
    | received m => exact hno _ (.lockWrite q _ msgs d rfl)
  | released d =>
    cases d with
    | zero => exact hno _ (.endTick q o)
    | succ d => exact hno _ (.lockRead q o d)
  | disconnecting d => exact hno _ (.disconnect q o d)
  | writing msgs d =>
    cases msgs with
    | nil => exact hno _ (.unlockWrite q o d)
    | cons m msgs =>
      by_cases hq : q.length < capacity
      · exact hno _ (.enqueue q o m msgs d hq)
      · -- the channel is full, so the sender has something to do unless it waits for the lock
        cases o with
        | sending m' => exact hno _ (.send q m' _)
        | received m' =>
          simp only [Fits, load, SenderTask.held, List.length_cons] at h
          omega
        | idle =>
          cases q with
          | nil => exact hq (show 0 < capacity by decide)
          | cons m' q => exact hno _ (.receive m' q _)

/-! ## Ticks that do not fit -/

/-- A full channel, a sender waiting for the lock and a tick waiting for room. -/
theorem stuck_of_full {q : List M} {m m' : M} {msgs : List M} {d : Nat}
    (hq : capacity ≤ q.length) : Stuck ⟨q, .received m, .writing (m' :: msgs) d⟩ := by
  refine ⟨by simp, fun s' h => ?_⟩
  cases h with
  | enqueue _ _ _ _ _ h => omega
  | lockSend _ _ _ h => cases h

/-- With a message in the sender's hand, the tick fills the channel and stops. -/
theorem reaches_stuck_of_received (m : M) (d : Nat) (msgs : List M) :
    ∀ q : List M, q.length ≤ capacity → capacity < q.length + msgs.length →
      ∃ s', ReflTransGen Step ⟨q, .received m, .writing msgs d⟩ s' ∧ Stuck s' := by
  induction msgs with
  | nil =>
    intro q hq hload
    simp only [List.length_nil] at hload
    omega
  | cons m' msgs ih =>
    intro q hq hload
    by_cases hlt : q.length < capacity
    · simp only [List.length_cons] at hload
      obtain ⟨s', hreach, hstuck⟩ := ih (q ++ [m'])
        (by simp only [List.length_append, List.length_singleton]; omega)
        (by simp only [List.length_append, List.length_singleton]; omega)
      exact ⟨s', .head (.enqueue q _ m' msgs d hlt) hreach, hstuck⟩
    · exact ⟨_, .refl, stuck_of_full (by omega)⟩

theorem stuck_of_not_fits (hi : Inv s) (h : ¬ Fits s) :
    ∃ s', ReflTransGen Step s s' ∧ Stuck s' := by
  obtain ⟨q, o, t⟩ := s
  cases t with
  | writing msgs d =>
    have hq : q.length ≤ capacity := hi.bounded
    cases o with
    | sending m => exact absurd (hi.excluded rfl) (by simp [SenderTask.isSending])
    | received m =>
      simp only [Fits, load, SenderTask.held] at h
      exact reaches_stuck_of_received m d msgs q hq (by omega)
    | idle =>
      simp only [Fits, load, SenderTask.held] at h
      cases q with
      | cons m q =>
        simp only [List.length_cons] at h hq
        obtain ⟨s', hreach, hstuck⟩ := reaches_stuck_of_received m d msgs q (by omega) (by omega)
        exact ⟨s', .head (.receive m q _) hreach, hstuck⟩
      | nil =>
        -- the first message goes in and out of the channel
        cases msgs with
        | nil => simp at h
        | cons m msgs =>
          simp only [List.length_cons, List.length_nil] at h
          obtain ⟨s', hreach, hstuck⟩ := reaches_stuck_of_received m d msgs [] (Nat.zero_le _)
            (by simp only [List.length_nil]; omega)
          refine ⟨s', .head (.enqueue [] .idle m msgs d (show 0 < capacity by decide)) ?_, hstuck⟩
          exact .head (.receive m [] _) hreach
  | _ => exact absurd (fits_of_not_writing rfl) h

/-- No interleaving gets stuck as long as every tick fits when it takes the write lock, and a
reachable tick that does not fit can get stuck. -/
theorem stuck_iff_not_fits :
    (∀ s : Pipeline M, ReflTransGen FittingStep init s → ¬ Stuck s) ∧
      ∀ s : Pipeline M, ReflTransGen Step init s →
        ¬ Fits s → ∃ s', ReflTransGen Step s s' ∧ Stuck s' :=
  ⟨fun _ h => not_stuck_of_fits (fits_of_reaches h).2,
    fun _ h hfit => stuck_of_not_fits (inv_of_reaches h) hfit⟩

/-- From an empty channel, a tick with 2050 messages. -/
theorem stuck_reachable : ∃ s : Pipeline Unit, ReflTransGen Step init s ∧ Stuck s := by
  let msgs : List Unit := List.replicate 2050 ()
  have hwrite : ReflTransGen Step (init : Pipeline Unit) ⟨[], .idle, .writing msgs 0⟩ :=
    .head (.beginTick [] .idle msgs 0) (.single (.lockWrite [] .idle msgs 0 rfl))
  have hload : ¬ Fits (⟨[], .idle, .writing msgs 0⟩ : Pipeline Unit) := by
    simp only [Fits, load, SenderTask.held, msgs, List.length_replicate, List.length_nil]
    decide
  obtain ⟨s, hreach, hstuck⟩ := stuck_of_not_fits (inv_of_reaches hwrite) hload
  exact ⟨s, hwrite.trans hreach, hstuck⟩

/-! ## The messages of a tick -/

end Aetheris.Outbound
