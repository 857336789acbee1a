import Aetheris.EcsBevy.Adapter
import Aetheris.EcsBevy.Rational

/-!
# Which input commands an entity accepts

A run applies updates through the input command replicator to one entity and advances the server
tick in between. `acceptedTick` says what the replicator accepts, `apply_of_rejected` and
`apply_of_accepted` say that this is what it stores.

Two consecutive accepted ticks either progress by at most 600, or the second resynchronises: it
lies in the window around the server tick and the first does not. The first tick can have left the
window on either side. It is ahead of it when the client climbed away from the server in legal
jumps, and then the second is smaller; if no accepted tick is ever ahead of the window, the accepted
ticks strictly increase.
-/

namespace Aetheris.AntiReplay

open Ecs

variable {F : Type} (P : Platform F)

/-! ## What is accepted -/

/-- The tick the replicator stores for an update, if it accepts the update. -/
def acceptedTick (w : World F) (e : Entity) (payload : Bytes) : Option UInt64 :=
  if validateAccessGate w e then
    match deserializeCommand P payload with
    | some command =>
      match w.get e .latestInput with
      | some latest =>
        if acceptsTick w.currentServerTick (LatestInput.lastClientTick latest) command.tick then
          some command.tick
        else none
      | none => some (firstInput w.currentServerTick command).lastClientTick
    | none => none
  else none

/-- The last accepted tick of an entity. -/
def lastTick (w : World F) (e : Entity) : Option UInt64 :=
  (w.get e .latestInput).map LatestInput.lastClientTick

variable {e : Entity} {last t : UInt64} {u : ComponentUpdate} {w : World F}

theorem alive_of_gate (h : validateAccessGate w e = true) : w.alive e = true :=
  World.alive_of_has (Bool.and_elim_left h)

theorem apply_of_rejected
    (h : acceptedTick P w e u.payload = none) : (inputCommandReplicator P).apply w e u = w := by
  unfold acceptedTick at h
  simp only [inputCommandReplicator]
  by_cases hgate : validateAccessGate w e = true
  · rw [if_pos hgate] at h ⊢
    cases hcommand : deserializeCommand P u.payload with
    | none => rfl
    | some command =>
      rw [hcommand] at h
      simp only [applyCommandUpdate, alive_of_gate hgate, if_true]
      cases hlatest : w.get e .latestInput with
      | none => simp [hlatest] at h
      | some latest =>
        simp only [hlatest] at h
        split at h
        · cases h
        · next hreject => simp only [hreject, Bool.false_eq_true, if_false]
  · rw [if_neg hgate]

theorem apply_of_accepted (h : acceptedTick P w e u.payload = some t) :
    lastTick ((inputCommandReplicator P).apply w e u) e = some t ∧
      ((inputCommandReplicator P).apply w e u).serverTick = w.serverTick := by
  unfold acceptedTick at h
  simp only [inputCommandReplicator]
  by_cases hgate : validateAccessGate w e = true
  · have halive := alive_of_gate hgate
    rw [if_pos hgate] at h ⊢
    cases hcommand : deserializeCommand P u.payload with
    | none => simp [hcommand] at h
    | some command =>
      rw [hcommand] at h
      simp only [applyCommandUpdate, halive, if_true]
      cases hlatest : w.get e .latestInput with
      | none =>
        simp only [hlatest] at h
        obtain rfl := Option.some.inj h
        simp only [lastTick, World.get_insert, halive, and_self, if_true, bundle_singleton_self]
        exact ⟨rfl, rfl⟩
      | some latest =>
        simp only [hlatest] at h
        split at h
        · next haccept =>
          obtain rfl := Option.some.inj h
          simp only [haccept, if_true, lastTick, World.get_modify_self, hlatest]
          exact ⟨rfl, rfl⟩
        · cases h
  · rw [if_neg hgate] at h
    cases h

/-- With a tick on record, acceptance is `acceptsTick`. -/
theorem accepts_of_accepted {payload : Bytes}
    (h : acceptedTick P w e payload = some t) (hlast : lastTick w e = some last) :
    acceptsTick w.currentServerTick last t = true := by
  obtain ⟨latest, hlatest, rfl⟩ := Option.map_eq_some_iff.mp hlast
  unfold acceptedTick at h
  split at h
  · split at h
    · simp only [hlatest] at h
      split at h
      · next haccept =>
        obtain rfl := Option.some.inj h
        exact haccept
      · cases h
    · cases h
  · cases h

/-! ## The windows, in natural numbers -/

/-- `tick` lies within 600 of the server tick. -/
def InWindow (server tick : UInt64) : Prop :=
  tick.toNat ≤ server.toNat + 600 ∧ server.toNat ≤ tick.toNat + 600

theorem inServerWindow_iff (server tick : UInt64) :
    inServerWindow server tick = true ↔ InWindow server tick := by
  have hadd := UInt64.toNat_satAdd server maxForwardTickJump
  have hsub := UInt64.toNat_satSub server maxForwardTickJump
  rw [show maxForwardTickJump.toNat = 600 from rfl] at hadd hsub
  have hlt := tick.toNat_lt
  simp only [inServerWindow, InWindow, Bool.and_eq_true, decide_eq_true_eq,
    UInt64.le_iff_toNat_le, hadd, hsub]
  omega

theorem isValidJump_iff (last tick : UInt64) :
    isValidJump last tick = true ↔ last.toNat < tick.toNat ∧ tick.toNat ≤ last.toNat + 600 := by
  have hadd := UInt64.toNat_satAdd last maxForwardTickJump
  rw [show maxForwardTickJump.toNat = 600 from rfl] at hadd
  have hlt := tick.toNat_lt
  simp only [isValidJump, Bool.and_eq_true, decide_eq_true_eq, UInt64.le_iff_toNat_le,
    UInt64.lt_iff_toNat_lt, hadd]
  omega

/-- Two consecutive accepted ticks, the second one at the given server tick. -/
def Follows (server last tick : UInt64) : Prop :=
  (last.toNat < tick.toNat ∧ tick.toNat ≤ last.toNat + 600) ∨
    (InWindow server tick ∧ ¬ InWindow server last)

theorem acceptsTick_iff (server last tick : UInt64) :
    acceptsTick server last tick = true ↔ Follows server last tick := by
  unfold acceptsTick Follows
  rw [Bool.or_eq_true, Bool.and_eq_true, isValidJump_iff, inServerWindow_iff, Bool.not_eq_true',
    ← inServerWindow_iff server last, Bool.not_eq_true]

/-! ## Runs -/

inductive Action where
  | apply (u : ComponentUpdate)
  | advanceTick

/-- An accepted tick with the server tick at its acceptance. -/
structure Accepted where
  server : UInt64
  tick : UInt64
deriving DecidableEq, Repr

def step (e : Entity) (a : BevyWorldAdapter F) : Action → BevyWorldAdapter F × List Accepted
  | .apply u =>
    ({ a with world := (inputCommandReplicator P).apply a.world e u },
      ((acceptedTick P a.world e u.payload).map (⟨a.world.currentServerTick, ·⟩)).toList)
  | .advanceTick => (a.advanceTick, [])

/-- The accepted ticks of a run, in order. -/
def accepted (e : Entity) : BevyWorldAdapter F → List Action → List Accepted
  | _, [] => []
  | a, act :: acts => (step P e a act).2 ++ accepted e (step P e a act).1 acts

/-- What one action does to the recorded tick and to the server tick. -/
inductive StepCase (e : Entity) (a a' : BevyWorldAdapter F) : List Accepted → Prop where
  | rejected (hlast : lastTick a'.world e = lastTick a.world e)
      (hserver : a.world.currentServerTick.toNat ≤ a'.world.currentServerTick.toNat) :
      StepCase e a a' []
  | accepted (t : UInt64) (hlast : lastTick a'.world e = some t)
      (hserver : a'.world.currentServerTick = a.world.currentServerTick)
      (hfollows : ∀ last, lastTick a.world e = some last →
        Follows a.world.currentServerTick last t) :
      StepCase e a a' [⟨a.world.currentServerTick, t⟩]

theorem currentServerTick_advanceTick_le (a : BevyWorldAdapter F) :
    a.world.currentServerTick.toNat ≤ a.advanceTick.world.currentServerTick.toNat := by
  unfold BevyWorldAdapter.advanceTick World.currentServerTick
  cases htick : a.world.serverTick with
  | none => simp
  | some t =>
    have hadd := UInt64.toNat_satAdd t 1
    have hlt := t.toNat_lt
    simp only [Option.map_some, Option.getD_some, hadd]
    omega

theorem step_cases (e : Entity) (a : BevyWorldAdapter F) (act : Action) :
    StepCase e a (step P e a act).1 (step P e a act).2 := by
  cases act with
  | advanceTick => exact .rejected rfl (currentServerTick_advanceTick_le a)
  | apply u =>
    cases htick : acceptedTick P a.world e u.payload with
    | none =>
      simp only [step, htick, apply_of_rejected P htick]
      exact .rejected rfl (Nat.le_refl _)
    | some t =>
      obtain ⟨hlast, hserver⟩ := apply_of_accepted P htick
      simp only [step, htick]
      refine .accepted t hlast ?_ fun last h => ?_
      · exact congrArg (·.getD 0) hserver
      · exact (acceptsTick_iff _ _ _).mp (accepts_of_accepted P htick h)

/-- `y` is accepted next after `x`. -/
def Next (x y : Accepted) : Prop :=
  x.server.toNat ≤ y.server.toNat ∧ Follows y.server x.tick y.tick

/-- With a tick on record, the accepted ticks continue from it. -/
theorem isChain_of_last (e : Entity) (acts : List Action) :
    ∀ (a : BevyWorldAdapter F) (x : Accepted), lastTick a.world e = some x.tick →
      x.server.toNat ≤ a.world.currentServerTick.toNat →
      (x :: accepted P e a acts).IsChain Next := by
  induction acts with
  | nil => exact fun _ x _ _ => .singleton x
  | cons act acts ih =>
    intro a x hx hserver
    have hstep := step_cases P e a act
    unfold accepted
    generalize step P e a act = r at hstep ⊢
    obtain ⟨a', ts⟩ := r
    cases hstep with
    | rejected hlast hle => exact ih a' x (hlast.trans hx) (Nat.le_trans hserver hle)
    | accepted t hlast heq hfollows =>
      refine .cons_cons ⟨hserver, hfollows _ hx⟩ ?_
      exact ih a' ⟨_, t⟩ hlast (Nat.le_of_eq (congrArg UInt64.toNat heq.symm))

theorem isChain_accepted (e : Entity) (acts : List Action) :
    ∀ a : BevyWorldAdapter F, (accepted P e a acts).IsChain Next := by
  induction acts with
  | nil => exact fun _ => .nil
  | cons act acts ih =>
    intro a
    have hstep := step_cases P e a act
    unfold accepted
    generalize step P e a act = r at hstep ⊢
    obtain ⟨a', ts⟩ := r
    cases hstep with
    | rejected _ _ => exact ih a'
    | accepted t hlast heq _ =>
      exact isChain_of_last P e acts a' ⟨_, t⟩ hlast
        (Nat.le_of_eq (congrArg UInt64.toNat heq.symm))

/-! ## Monotonicity -/

/-- A tick that does not increase follows one that was ahead of the window. -/
theorem ahead_of_not_increasing {server tick : UInt64} (h : Follows server last tick)
    (hle : tick.toNat ≤ last.toNat) : server.toNat + 600 < last.toNat := by
  rcases h with ⟨hlt, -⟩ | ⟨⟨-, hlow⟩, hout⟩
  · omega
  · unfold InWindow at hout
    omega

theorem increasing_of_next {x y : Accepted} (h : Next x y)
    (hx : x.tick.toNat ≤ x.server.toNat + 600) : x.tick < y.tick := by
  obtain ⟨hserver, hfollows⟩ := h
  rw [UInt64.lt_iff_toNat_lt]
  by_contra hle
  have := ahead_of_not_increasing hfollows (by omega)
  omega

/-- Consecutive accepted ticks progress within the jump or resynchronise, a decrease or repetition
only happens after a tick ahead of the window, and without such ticks the sequence strictly
increases. -/
theorem accepted_ticks (e : Entity) (a : BevyWorldAdapter F) (acts : List Action) :
    (accepted P e a acts).IsChain (fun x y => Follows y.server x.tick y.tick ∧
        (y.tick ≤ x.tick → y.server.toNat + 600 < x.tick.toNat)) ∧
      ((∀ x ∈ accepted P e a acts, x.tick.toNat ≤ x.server.toNat + 600) →
        ((accepted P e a acts).map (·.tick)).Pairwise (· < ·)) := by
  have hchain := isChain_accepted P e acts a
  constructor
  · refine hchain.imp fun x y h => ⟨h.2, fun hle => ?_⟩
    exact ahead_of_not_increasing h.2 (UInt64.le_iff_toNat_le.mp hle)
  · intro hwindow
    have hlt : (accepted P e a acts).IsChain (fun x y => x.tick < y.tick) :=
      hchain.imp_of_mem_imp fun x y hx _ h => increasing_of_next h (hwindow x hx)
    rw [List.pairwise_map]
    have : IsTrans Accepted (fun x y => x.tick < y.tick) := ⟨fun _ _ _ => UInt64.lt_trans⟩
    exact hlt.pairwise

/-- At server tick 0 a client climbs to 1200 and is then resynchronised to 100, so that it can send
600 once more. -/
theorem replayed_tick :
    let w : World ℚ := World.new.spawn [⟨.networkOwner, (⟨1⟩ : ClientId)⟩, ⟨.sessionAgent, ()⟩]
    let a := BevyWorldAdapter.newWithRng w 60 ⟨0, 0⟩
    let send := fun b : UInt8 => Action.apply ⟨⟨1⟩, inputCommandKind, [b], 0⟩
    (accepted rationalPlatform ⟨0⟩ a ([0, 6, 12, 1, 6].map send)).map (·.tick) =
      [0, 600, 1200, 100, 600] := by
  decide +kernel

end Aetheris.AntiReplay
