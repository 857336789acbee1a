import Aetheris.Server.Auth.Lapse
import Aetheris.Server.Matchmaking

/-!
# Who gets a connect token

Connect tokens are issued by the gRPC method and by the tasks of the queue. The method does not look
at the session token of its request. `join_queue` checks it when it enters, and the task issues a
second later: whatever has become of the session by then, the token goes out
(`connect_token_unverified`).

A `State` is the auth service together with the matchmaking service; the check of a join is a call to
the former. A session that a join relies on is `Held`: nobody has removed its activity since the
check, and whatever is still to be written is not older than the check. While tokens are issued
through the queue only, the sessions that joins rely on are neither logged out nor exchanged, and a
task issues within the hour, every token that is issued is issued to a session that verifies
(`connect_token_verified`).
-/

open Function

namespace Aetheris.Auth


/-! ## Sessions that are kept -/

/-- The session that the next section of the call removes. -/
def Call.revokes (env : AuthEnv) (r : Reading) : Call → Option String
  | .start (.logout authorization sessionToken) =>
    ((logoutToken authorization sessionToken).bind (env.parse r.now)).bind (·.jti)
  | .refreshRemove jti _ => some jti
  | _ => none

section

variable (env : AuthEnv) (r : Reading) {svc : AuthServiceImpl} {jti : String}

theorem mint_keeps {new : String} {svc' : AuthServiceImpl} {token : Option String}
    (hmint : Mint env r svc new svc' token) (h : svc.sessionActivity jti ≠ none) :
    svc'.sessionActivity jti ≠ none := by
  rcases hmint.cases jti with hsame | ⟨hnew, -⟩
  · rwa [hsame]
  · rw [hnew]
    exact nofun

theorem touch_keeps (jti' : String) (nowTs : Int) (h : svc.sessionActivity jti ≠ none) :
    (svc.touch jti' nowTs).sessionActivity jti ≠ none := by
  by_cases hjti : jti' = jti
  · subst hjti
    rw [touch_activity]
    simpa using h
  · rwa [AuthServiceImpl.touch_of_ne svc nowTs (Ne.symm hjti)]

theorem revoke_keeps {jti' : String} (hne : jti ≠ jti') (h : svc.sessionActivity jti ≠ none) :
    (svc.revoke jti').sessionActivity jti ≠ none := by
  have hsame : (svc.revoke jti').sessionActivity jti = svc.sessionActivity jti :=
    update_of_ne hne _ _
  rwa [hsame]

/-- Only a logout and an exchange remove an activity. -/
theorem next_keeps {c : Call} (hkeep : c.revokes env r ≠ some jti)
    (h : svc.sessionActivity jti ≠ none) :
    (c.next env r svc).1.sessionActivity jti ≠ none := by
  have hcases := Call.next_cases env r svc c
  generalize c.next env r svc = out at hcases ⊢
  cases hcases with
  | loginOtp id code =>
    obtain ⟨new, -, hmint⟩ := otpSection_mint env r svc id code
    exact mint_keeps env r hmint h
  | @logout _ _ jti' heq => exact revoke_keeps (fun hjti => hkeep (hjti ▸ heq)) h
  | googleMint handle subject hmint => exact mint_keeps env r hmint h
  | touch jti' nowTs asker => exact touch_keeps jti' nowTs h
  | refreshRemove jti' sub => exact revoke_keeps (fun hjti => hkeep (congrArg some hjti.symm)) h
  | refreshMint jti' sub hmint => exact mint_keeps env r hmint h
  | _ => exact h

end

/-- Since second `since` the session has an activity, and no older reading is still to be written. -/
structure Alive (jti : String) (since : Int) (st : State) : Prop where
  clock : since ≤ st.clock.timestamp
  activity : st.svc.sessionActivity jti ≠ none
  pending : ∀ i nowTs asker, st.calls i = some (.touch jti nowTs asker) → since ≤ nowTs

/-- The activity itself is from that second or later. -/
structure Held (jti : String) (since : Int) (st : State) : Prop extends Alive jti since st where
  recent : ∀ activity, st.svc.sessionActivity jti = some activity → since ≤ activity

section

variable {env : AuthEnv} {jti : String} {since : Int} {st : State} {i : Nat} {c : Call}
  {r : Reading}

theorem Alive.arrive (h : Alive jti since st) (i : Nat) (request : AuthRequest) :
    Alive jti since
      { st with calls := update st.calls i (some (.start request)) } := by
  refine ⟨h.clock, h.activity, fun k nowTs asker hk => ?_⟩
  rcases of_update_some hk with ⟨-, heq⟩ | ⟨-, hold⟩
  · cases heq
  · exact h.pending k nowTs asker hold

theorem Alive.advance (h : Alive jti since st) (hclock : st.clock ≤ r.now)
    (hkeep : c.revokes env r ≠ some jti) :
    Alive jti since ⟨(c.next env r st.svc).1,
      update st.calls i (some (c.next env r st.svc).2.1), r.now,
      r.ulid :: st.drawn⟩ := by
  have hlater : since ≤ r.now.timestamp := h.clock.trans (DateTime.timestamp_mono hclock)
  refine ⟨hlater, next_keeps env r hkeep h.activity, fun k nowTs asker hk => ?_⟩
  rcases of_update_some hk with ⟨-, heq⟩ | ⟨-, hold⟩
  · rw [((next_pending env r st.svc jti c).2 nowTs asker heq.symm).1]
    exact hlater
  · exact h.pending k nowTs asker hold

theorem Held.arrive (h : Held jti since st) (i : Nat) (request : AuthRequest) :
    Held jti since
      { st with calls := update st.calls i (some (.start request)) } :=
  ⟨h.toAlive.arrive i request, h.recent⟩

theorem Alive.later (h : Alive jti since st) {now : DateTime} (hclock : st.clock ≤ now) :
    Alive jti since { st with clock := now } :=
  ⟨h.clock.trans (DateTime.timestamp_mono hclock), h.activity, h.pending⟩

theorem Held.later (h : Held jti since st) {now : DateTime} (hclock : st.clock ≤ now) :
    Held jti since { st with clock := now } :=
  ⟨h.toAlive.later hclock, h.recent⟩

theorem Held.advance (h : Held jti since st) (hi : st.calls i = some c) (hclock : st.clock ≤ r.now)
    (hkeep : c.revokes env r ≠ some jti) :
    Held jti since ⟨(c.next env r st.svc).1,
      update st.calls i (some (c.next env r st.svc).2.1), r.now,
      r.ulid :: st.drawn⟩ := by
  refine ⟨h.toAlive.advance hclock hkeep, fun activity hactivity => ?_⟩
  rcases of_next hactivity with hold | ⟨rfl, -⟩ | ⟨asker, rfl⟩
  · exact h.recent activity hold
  · exact h.clock.trans (DateTime.timestamp_mono hclock)
  · exact h.pending i activity asker hi

/-- The second half of a check writes the time that its first half has read. -/
theorem Alive.touched (h : Alive jti since st) (i : Nat) (asker : Asker)
    (hclock : st.clock ≤ r.now) :
    Held jti since ⟨st.svc.touch jti since,
      update st.calls i (some (asker.finish jti true)), r.now, r.ulid :: st.drawn⟩ := by
  refine ⟨⟨?_, touch_keeps jti since h.activity, fun k nowTs asker' hk => ?_⟩,
    fun activity hactivity => ?_⟩
  · exact h.clock.trans (DateTime.timestamp_mono hclock)
  · rcases of_update_some hk with ⟨-, heq⟩ | ⟨-, hold⟩
    · exact absurd heq.symm (asker.finish_ne jti jti true nowTs asker')
    · exact h.pending k nowTs asker' hold
  · have hwritten : (st.svc.touch jti since).sessionActivity jti = some activity := hactivity
    rw [touch_activity] at hwritten
    obtain ⟨old, -, rfl⟩ := Option.map_eq_some_iff.mp hwritten
    exact Int.le_refl since

end

end Aetheris.Auth

namespace Aetheris.Connect

open Auth (AuthEnv AuthServiceImpl DateTime Reading Call Alive Held)
open Matchmaking (MatchEnv ConnectReading Phase Task issueConnectToken)

/-! ## Both services -/

/-- Whether `verify_session` passes, by the activities and the clock of this moment. -/
def verifies (env : AuthEnv) (svc : AuthServiceImpl) (now : DateTime) (token : String) : Bool :=
  match env.parse now token with
  | some ⟨some jti, some _⟩ =>
    match svc.readActivity jti none now with
    | .live _ _ => true
    | _ => false
  | _ => false

/-- That is, its first half does. -/
theorem verifies_iff (env : AuthEnv) (r : Reading) (svc : AuthServiceImpl) (token : String) :
    verifies env svc r.now token = true ↔
      ∃ jti, .verified token jti ∈ (Auth.verifySession env r svc token none).2 := by
  unfold verifies Auth.verifySession
  cases env.parse r.now token with
  | none => simp
  | some claims =>
    obtain ⟨jti, sub⟩ := claims
    cases jti with
    | none => simp
    | some jti =>
      cases sub with
      | none => simp
      | some sub =>
        dsimp only
        unfold Auth.beginCheck
        cases svc.readActivity jti none r.now with
        | live needsUpdate nowTs => cases needsUpdate <;> simp [Auth.Asker.passed]
        | idle => simp
        | revoked => simp

/-- A call of `join_queue` whose check is in progress. -/
structure Join where
  token : String
  /-- When the check has read the activity of the session. -/
  checkedAt : Option DateTime

structure State where
  auth : Auth.State
  matching : Matchmaking.State
  /-- The joins by the call that their check is. -/
  joins : Nat → Option Join
  /-- When the check for the join of a task has read the activity. -/
  vouched : Nat → Option DateTime

def State.new (bypassEnabled : Bool) (clock : DateTime) (now : Instant) : State :=
  ⟨.new bypassEnabled clock, .new now, fun _ => none, fun _ => none⟩

inductive Event where
  | auth (e : Auth.Event)
  | matching (e : Matchmaking.Event)
  /-- A connect token goes out for a session token, which verifies at this moment or not. -/
  | connect (sessionToken : String) (verified : Bool)

inductive Action where
  /-- A section of a call to the auth service. -/
  | auth (a : Auth.Action)
  /-- A call of `join_queue`, whose first act is to check the session. -/
  | enter (call : Nat) (token : String)
  | check (call : Nat) (r : Reading)
  /-- The check is answered: the join is refused, or its task is spawned. -/
  | join (call task : Nat)
  /-- A section of the matchmaking service that issues nothing. -/
  | work (a : Matchmaking.Action)
  /-- A task has its connect token issued. -/
  | issue (task : Nat) (r : ConnectReading)
  /-- A call of `issue_connect_token`. -/
  | direct (r : ConnectReading) (sessionToken serverAddress : String)

/-- The actions of the matchmaking service that are no actions of their own here. -/
def isOwn : Matchmaking.Action → Bool
  | .join _ _ _ => false
  | .proceed _ (.issue _) => false
  | _ => true

def Admissible (st : State) : Action → Prop
  | .auth (.arrive call request) => Auth.Admissible st.auth (.arrive call request)
  | .auth (.advance call r) =>
    (st.joins call).isNone ∧ Auth.Admissible st.auth (.advance call r)
  | .enter call token => Auth.Admissible st.auth (.arrive call (.verifySession token none))
  | .check call r => Auth.Admissible st.auth (.advance call r)
  | .join _ task => (st.matching.tasks task).isNone
  | .work a => isOwn a ∧ Matchmaking.Admissible st.matching a
  | .issue _ r => st.auth.clock ≤ r.now
  | .direct r _ _ => st.auth.clock ≤ r.now

section

variable (env : AuthEnv) (menv : MatchEnv)

/-- The tokens among the events of a task. -/
def connects (svc : AuthServiceImpl) (now : DateTime) : Matchmaking.Event → Option Event
  | .issued _ token (.ok _) => some (.connect token (verifies env svc now token))
  | _ => none

def fire (st : State) : Action → State × List Event
  | .auth a =>
    let (auth, events) := Auth.fire env st.auth a
    ({ st with auth := auth }, events.map .auth)
  | .enter call token =>
    let (auth, events) := Auth.fire env st.auth (.arrive call (.verifySession token none))
    ({ st with auth := auth, joins := Function.update st.joins call (some ⟨token, none⟩) },
      events.map .auth)
  | .check call r =>
    match st.joins call with
    | some join =>
      let (auth, events) := Auth.fire env st.auth (.advance call r)
      let join := { join with checkedAt := join.checkedAt.or (some r.now) }
      ({ st with auth := auth, joins := Function.update st.joins call (some join) },
        events.map .auth)
    | none => (st, [])
  | .join call task =>
    match st.joins call, st.auth.calls call with
    | some join, some (.done (.session result)) =>
      let (matching, events) :=
        Matchmaking.fire menv st.matching (.join task join.token result.isOk)
      ({ st with
          matching := matching
          joins := Function.update st.joins call none
          vouched := Function.update st.vouched task join.checkedAt }, events.map .matching)
    | _, _ => (st, [])
  | .work a =>
    let (matching, events) := Matchmaking.fire menv st.matching a
    ({ st with matching := matching }, events.map .matching)
  | .issue task r =>
    let (matching, events) := Matchmaking.fire menv st.matching (.proceed task (.issue r))
    ({ st with matching := matching, auth := { st.auth with clock := r.now } },
      events.map .matching ++ events.filterMap (connects env st.auth.svc r.now))
  | .direct r sessionToken serverAddress =>
    ({ st with auth := { st.auth with clock := r.now } },
      match issueConnectToken menv r sessionToken serverAddress with
      | .ok _ => [.connect sessionToken (verifies env st.auth.svc r.now sessionToken)]
      | .error _ => [])

end

/-! ## The condition -/

/-- What a token says does not depend on when it is opened. -/
def Timeless (env : AuthEnv) : Prop :=
  ∀ now now' token claims claims', env.parse now token = some claims →
    env.parse now' token = some claims' → claims = claims'

/-- The token is one of this session. -/
def Opens (env : AuthEnv) (token jti : String) : Prop :=
  ∃ now sub, env.parse now token = some ⟨some jti, sub⟩

/-- The task may still come to issue a token. -/
def awaits : Phase → Bool
  | .spawned | .waiting _ | .woken | .chosen (some _) => true
  | _ => false

/-- A join that has been checked, or a task, relies on the session. -/
def State.Relies (env : AuthEnv) (st : State) (jti : String) : Prop :=
  (∃ i join, st.joins i = some join ∧ join.checkedAt ≠ none ∧ Opens env join.token jti) ∨
    ∃ t task, st.matching.tasks t = some task ∧ awaits task.phase = true ∧ Opens env task.token jti

/-- Tokens are issued through the queue only. No session is removed while the queue relies on it, a
join is checked when no other check of its session is between its halves, and a task issues within
an hour of that check, with a token that has not expired. -/
def Undisturbed (env : AuthEnv) (st : State) : Action → Prop
  | .auth (.advance i r) => ∀ c jti, st.auth.calls i = some c → c.revokes env r = some jti →
    ¬ st.Relies env jti
  | .check i _ => ∀ join, st.joins i = some join → join.checkedAt = none →
    ∀ jti, Opens env join.token jti → ∀ j nowTs asker,
      st.auth.calls j ≠ some (.touch jti nowTs asker)
  | .issue t r => ∀ task checkedAt, st.matching.tasks t = some task →
    st.vouched t = some checkedAt → (env.parse r.now task.token).isSome = true ∧
      r.now.timestamp - checkedAt.timestamp ≤ 3600
  | .direct _ _ _ => False
  | _ => True

/-! ## The invariant -/

/-- The session of the token has been kept since the check. -/
def Vouched (env : AuthEnv) (auth : Auth.State) (token : String) (checkedAt : DateTime) : Prop :=
  ∃ jti sub, env.parse checkedAt token = some ⟨some jti, some sub⟩ ∧
    Held jti checkedAt.timestamp auth

/-- Where the check of a join is that has read the activity. -/
inductive Checked (env : AuthEnv) (auth : Auth.State) (token : String) (checkedAt : DateTime) :
    Call → Prop where
  | reading {jti sub asked : String} {session : VerifiedSession}
      (hparse : env.parse checkedAt token = some ⟨some jti, some sub⟩)
      (halive : Alive jti checkedAt.timestamp auth) :
      Checked env auth token checkedAt (.touch jti checkedAt.timestamp (.verify asked session))
  | passed {session : VerifiedSession} (h : Vouched env auth token checkedAt) :
      Checked env auth token checkedAt (.done (.session (.ok session)))
  | failed (e : AuthError) : Checked env auth token checkedAt (.done (.session (.error e)))

/-- The call of a join is where the join says it is. -/
def Stands (env : AuthEnv) (auth : Auth.State) (i : Nat) (join : Join) : Prop :=
  match join.checkedAt with
  | none => auth.calls i = some (.start (.verifySession join.token none))
  | some checkedAt => ∃ c, auth.calls i = some c ∧ Checked env auth join.token checkedAt c

structure Safe (env : AuthEnv) (st : State) : Prop where
  joins : ∀ i join, st.joins i = some join → Stands env st.auth i join
  tasks : ∀ t task, st.matching.tasks t = some task → awaits task.phase = true →
    ∃ checkedAt, st.vouched t = some checkedAt ∧ Vouched env st.auth task.token checkedAt

section

variable {env : AuthEnv} {menv : MatchEnv} {st st' : State} {events : List Event}

theorem safe_new (env : AuthEnv) (bypassEnabled : Bool) (clock : DateTime) (now : Instant) :
    Safe env (.new bypassEnabled clock now) := by
  refine ⟨fun i join hi => ?_, fun t task ht => ?_⟩
  · cases hi
  · cases ht

theorem Vouched.verifies {auth : Auth.State} {token : String} {checkedAt now : DateTime}
    (h : Vouched env auth token checkedAt) (htimeless : Timeless env)
    (hparse : (env.parse now token).isSome = true)
    (hnow : now.timestamp - checkedAt.timestamp ≤ 3600) :
    verifies env auth.svc now token = true := by
  obtain ⟨jti, sub, hclaims, hheld⟩ := h
  obtain ⟨claims, hopen⟩ := Option.isSome_iff_exists.mp hparse
  obtain rfl := htimeless _ _ _ _ _ hclaims hopen
  obtain ⟨activity, hactivity⟩ := Option.ne_none_iff_exists'.mp hheld.activity
  have hrecent := hheld.recent activity hactivity
  have hlive : ¬ now.timestamp - activity > 3600 := by omega
  unfold Connect.verifies
  rw [hopen]
  simp only [AuthServiceImpl.readActivity, hactivity, if_neg hlive]

/-- What the queue relies on is kept, and the calls of the joins stay or stand anew. -/
theorem Safe.change (h : Safe env st) {auth' : Auth.State} {joins' : Nat → Option Join}
    (hjoins : ∀ i join, joins' i = some join →
      (st.joins i = some join ∧ auth'.calls i = st.auth.calls i) ∨ Stands env auth' i join)
    (halive : ∀ jti since, st.Relies env jti → Alive jti since st.auth → Alive jti since auth')
    (hheld : ∀ jti since, st.Relies env jti → Held jti since st.auth → Held jti since auth') :
    Safe env { st with auth := auth', joins := joins' } := by
  have hvouched : ∀ token checkedAt, (∀ jti, Opens env token jti → st.Relies env jti) →
      Vouched env st.auth token checkedAt → Vouched env auth' token checkedAt := by
    rintro token checkedAt hrelies ⟨jti, sub, hparse, hkept⟩
    exact ⟨jti, sub, hparse, hheld jti _ (hrelies jti ⟨checkedAt, some sub, hparse⟩) hkept⟩
  refine ⟨fun i join hi => ?_, fun t task ht hawaits => ?_⟩
  · rcases hjoins i join hi with ⟨hold, hcalls⟩ | hstands
    · have hstands := h.joins i join hold
      unfold Stands at hstands ⊢
      dsimp only
      rw [hcalls]
      cases hchecked : join.checkedAt with
      | none =>
        rw [hchecked] at hstands
        exact hstands
      | some checkedAt =>
        rw [hchecked] at hstands
        obtain ⟨c, hc, hcase⟩ := hstands
        have hrelies : ∀ jti, Opens env join.token jti → st.Relies env jti := fun jti hopens =>
          Or.inl ⟨i, join, hold, by rw [hchecked]; exact nofun, hopens⟩
        refine ⟨c, hc, ?_⟩
        cases hcase with
        | reading hparse hlive =>
          exact .reading hparse (halive _ _ (hrelies _ ⟨checkedAt, _, hparse⟩) hlive)
        | passed hkept => exact .passed (hvouched _ _ hrelies hkept)
        | failed e => exact .failed e
    · exact hstands
  · obtain ⟨checkedAt, hat, hkept⟩ := h.tasks t task ht hawaits
    exact ⟨checkedAt, hat, hvouched _ _ (fun jti hopens => Or.inr ⟨t, task, ht, hawaits, hopens⟩)
      hkept⟩

theorem Stands.call {auth : Auth.State} {i : Nat} {join : Join} (h : Stands env auth i join) :
    auth.calls i ≠ none := by
  unfold Stands at h
  split at h
  · rw [h]
    exact nofun
  · obtain ⟨c, hc, -⟩ := h
    rw [hc]
    exact nofun

/-! ## Steps of the auth service -/

theorem Safe.arrive (h : Safe env st) {i : Nat} (hi : st.auth.calls i = none)
    (request : Auth.AuthRequest) :
    Safe env { st with auth := { st.auth with
      calls := update st.auth.calls i (some (.start request)) } } := by
  refine h.change (fun k join hk => Or.inl ⟨hk, ?_⟩) (fun _ _ _ hlive => hlive.arrive i request)
    (fun _ _ _ hkept => hkept.arrive i request)
  refine update_of_ne ?_ _ _
  rintro rfl
  exact (h.joins k join hk).call hi

theorem Safe.enter (h : Safe env st) {i : Nat} (hi : st.auth.calls i = none) (token : String) :
    Safe env { st with
      auth := { st.auth with
        calls := update st.auth.calls i (some (.start (.verifySession token none))) }
      joins := update st.joins i (some ⟨token, none⟩) } := by
  refine h.change (fun k join hk => ?_) (fun _ _ _ hlive => hlive.arrive i _)
    (fun _ _ _ hkept => hkept.arrive i _)
  rcases of_update_some hk with ⟨rfl, rfl⟩ | ⟨hne, hold⟩
  · exact Or.inr (update_self ..)
  · exact Or.inl ⟨hold, update_of_ne hne _ _⟩

theorem Safe.advance (h : Safe env st) {i : Nat} {c : Call} {r : Reading}
    (hi : st.auth.calls i = some c) (hjoin : st.joins i = none) (hclock : st.auth.clock ≤ r.now)
    (hkeep : ∀ jti, c.revokes env r = some jti → ¬ st.Relies env jti) :
    Safe env { st with auth := ⟨(c.next env r st.auth.svc).1,
      update st.auth.calls i (some (c.next env r st.auth.svc).2.1), r.now,
      r.ulid :: st.auth.drawn⟩ } := by
  refine h.change (fun k join hk => Or.inl ⟨hk, ?_⟩)
    (fun jti _ hrelies hlive => hlive.advance hclock fun heq => hkeep jti heq hrelies)
    (fun jti _ hrelies hkept => hkept.advance hi hclock fun heq => hkeep jti heq hrelies)
  refine update_of_ne ?_ _ _
  rintro rfl
  rw [hjoin] at hk
  cases hk

/-! ## The check of a join -/

/-- A check without a tick always goes on to its second half. -/
theorem readActivity_none {svc : AuthServiceImpl} {jti : String} {now : DateTime}
    {needsUpdate : Bool} {nowTs : Int}
    (h : svc.readActivity jti none now = .live needsUpdate nowTs) : needsUpdate = true := by
  unfold AuthServiceImpl.readActivity at h
  split at h
  · split at h
    · cases h
    · cases h
      rfl
  · cases h

/-- The first half of the check. -/
theorem checked_verifySession {auth : Auth.State} {i : Nat} {token : String} {r : Reading}
    (hquiet : ∀ jti, Opens env token jti → ∀ j nowTs asker,
      auth.calls j ≠ some (.touch jti nowTs asker)) :
    Checked env ⟨auth.svc, update auth.calls i
      (some (Auth.verifySession env r auth.svc token none).1), r.now, r.ulid :: auth.drawn⟩
      token r.now (Auth.verifySession env r auth.svc token none).1 := by
  unfold Auth.verifySession
  split
  · exact .failed _
  · exact .failed _
  · exact .failed _
  · next jti sub hparse =>
    have hread := auth.svc.readActivity_spec jti none r.now
    unfold Auth.beginCheck
    cases hcheck : auth.svc.readActivity jti none r.now with
    | revoked => exact .failed _
    | idle => exact .failed _
    | live needsUpdate nowTs =>
      rw [hcheck] at hread
      obtain ⟨rfl, activity, hactivity, -⟩ := hread
      obtain rfl := readActivity_none hcheck
      refine .reading hparse ⟨Int.le_refl _, ?_, fun k nowTs asker hk => ?_⟩
      · show auth.svc.sessionActivity jti ≠ none
        rw [hactivity]
        exact nofun
      · -- this is the only check of the session between its halves
        rcases of_update_some hk with ⟨-, heq⟩ | ⟨-, hold⟩
        · cases heq
          exact Int.le_refl _
        · exact absurd hold (hquiet jti ⟨r.now, some sub, hparse⟩ k nowTs asker)

/-- A section of the check leaves the join where it says it is. -/
theorem Stands.advance {auth : Auth.State} {i : Nat} {join : Join} {c : Call} {r : Reading}
    (h : Stands env auth i join) (hi : auth.calls i = some c) (hclock : auth.clock ≤ r.now)
    (hquiet : join.checkedAt = none → ∀ jti, Opens env join.token jti → ∀ j nowTs asker,
      auth.calls j ≠ some (.touch jti nowTs asker)) :
    c.revokes env r = none ∧
      Stands env ⟨(c.next env r auth.svc).1,
        update auth.calls i (some (c.next env r auth.svc).2.1), r.now,
        r.ulid :: auth.drawn⟩ i
        { join with checkedAt := join.checkedAt.or (some r.now) } := by
  unfold Stands at h ⊢
  cases hchecked : join.checkedAt with
  | none =>
    rw [hchecked] at h
    obtain rfl := Option.some.inj (hi.symm.trans h)
    exact ⟨rfl, _, update_self .., checked_verifySession (hquiet hchecked)⟩
  | some checkedAt =>
    rw [hchecked] at h
    obtain ⟨c', hc', hcase⟩ := h
    obtain rfl := Option.some.inj (hi.symm.trans hc')
    cases hcase with
    | @reading jti sub asked session hparse hlive =>
      exact ⟨rfl, _, update_self ..,
        .passed ⟨jti, sub, hparse, hlive.touched i (.verify asked session) hclock⟩⟩
    | passed hkept =>
      obtain ⟨jti, sub, hparse, hheld⟩ := hkept
      exact ⟨rfl, _, update_self ..,
        .passed ⟨jti, sub, hparse, hheld.advance hi hclock nofun⟩⟩
    | failed e => exact ⟨rfl, _, update_self .., .failed e⟩

theorem Safe.check (h : Safe env st) {i : Nat} {join : Join} {c : Call} {r : Reading}
    (hjoin : st.joins i = some join) (hi : st.auth.calls i = some c)
    (hclock : st.auth.clock ≤ r.now)
    (hquiet : join.checkedAt = none → ∀ jti, Opens env join.token jti → ∀ j nowTs asker,
      st.auth.calls j ≠ some (.touch jti nowTs asker)) :
    Safe env { st with
      auth := ⟨(c.next env r st.auth.svc).1,
        update st.auth.calls i (some (c.next env r st.auth.svc).2.1), r.now,
        r.ulid :: st.auth.drawn⟩
      joins := update st.joins i
        (some { join with checkedAt := join.checkedAt.or (some r.now) }) } := by
  obtain ⟨hrevokes, hstands⟩ := (h.joins i join hjoin).advance hi hclock hquiet
  have hkeep : ∀ jti, c.revokes env r ≠ some jti := fun jti => by
    rw [hrevokes]
    exact nofun
  refine h.change (fun k join' hk => ?_) (fun jti _ _ hlive => hlive.advance hclock (hkeep jti))
    (fun jti _ _ hkept => hkept.advance hi hclock (hkeep jti))
  rcases of_update_some hk with ⟨rfl, rfl⟩ | ⟨hne, hold⟩
  · exact Or.inr hstands
  · exact Or.inl ⟨hold, update_of_ne hne _ _⟩

/-! ## Steps of the matchmaking service -/

/-- A task that may still issue a token might do so before the step. -/
theorem progress_awaits {m : Matchmaking.State} {t : Nat} {task : Task}
    {mevents : List Matchmaking.Event} {phase : Phase}
    (h : Matchmaking.Progress menv m t task mevents phase) (hawaits : awaits phase = true) :
    awaits task.phase = true := by
  cases h with
  | stays _ => exact hawaits
  | ends _ _ => cases hawaits
  | moves hmoves =>
    cases hmoves with
    | start hphase | sleep hphase _ | choose hphase _ => rw [hphase]; rfl
    | signal _ _ | issue _ _ | cancel _ | exhausted _ | matched _ | failed _ => cases hawaits

/-- A step of the matchmaking service that spawns no task. -/
theorem Safe.matching (h : Safe env st) {matching' : Matchmaking.State}
    {mevents : List Matchmaking.Event}
    (hcase : Matchmaking.StepCase menv st.matching mevents matching')
    (hjoined : ∀ t token, .joined t token ∉ mevents) :
    Safe env { st with matching := matching' } := by
  refine ⟨h.joins, fun t task' ht' hawaits => ?_⟩
  rcases hcase.of_task ht' with ⟨token, rfl, -⟩ | ⟨task, ht, htoken, hprogress⟩
  · exact absurd List.mem_cons_self (hjoined t token)
  · obtain ⟨checkedAt, hat, hkept⟩ := h.tasks t task ht (progress_awaits hprogress hawaits)
    rw [htoken]
    exact ⟨checkedAt, hat, hkept⟩

/-- The check of a join has been answered. -/
theorem Safe.join (h : Safe env st) {i t : Nat} {join : Join}
    {result : Except AuthError VerifiedSession} (hjoin : st.joins i = some join)
    (hi : st.auth.calls i = some (.done (.session result)))
    (ht : st.matching.tasks t = none) :
    Safe env { st with
      matching := (Matchmaking.fire menv st.matching (.join t join.token result.isOk)).1
      joins := update st.joins i none
      vouched := update st.vouched t join.checkedAt } := by
  have hnew : Matchmaking.Admissible st.matching (.join t join.token result.isOk) :=
    Option.isNone_iff_eq_none.mpr ht
  have hcase : Matchmaking.StepCase menv st.matching
      (Matchmaking.fire menv st.matching (.join t join.token result.isOk)).2
      (Matchmaking.fire menv st.matching (.join t join.token result.isOk)).1 :=
    Matchmaking.Step.cases ⟨_, hnew, rfl⟩
  refine ⟨fun k join' hk => h.joins k join' (Function.of_update_none hk),
    fun k task' hk hawaits => ?_⟩
  rcases hcase.of_task hk with ⟨token, hevents, rfl⟩ | ⟨task, htask, htoken, hprogress⟩
  · -- the new task: its join was authorized, so the check has passed
    have hjoined : Matchmaking.Action.join t join.token result.isOk = .join k token true := by
      have hmem : .joined k token ∈
          (Matchmaking.fire menv st.matching (.join t join.token result.isOk)).2 := by
        rw [hevents]
        exact List.mem_cons_self
      exact Matchmaking.joined_of_fire hnew hmem
    obtain ⟨rfl, rfl, hok⟩ := Matchmaking.Action.join.inj hjoined
    have hstands := h.joins i join hjoin
    unfold Stands at hstands
    split at hstands
    · cases hi.symm.trans hstands
    · next checkedAt hchecked =>
      obtain ⟨c, hc, hcall⟩ := hstands
      obtain rfl := Option.some.inj (hi.symm.trans hc)
      refine ⟨checkedAt, (update_self ..).trans hchecked, ?_⟩
      cases hcall with
      | passed hkept => exact hkept
      | failed e => cases hok
  · have hne : k ≠ t := by
      rintro rfl
      rw [ht] at htask
      cases htask
    obtain ⟨checkedAt, hat, hkept⟩ := h.tasks k task htask (progress_awaits hprogress hawaits)
    rw [htoken]
    exact ⟨checkedAt, (update_of_ne hne _ _).trans hat, hkept⟩

theorem Safe.later (h : Safe env st) {now : DateTime} (hclock : st.auth.clock ≤ now) :
    Safe env { st with auth := { st.auth with clock := now } } :=
  h.change (fun _ _ hk => Or.inl ⟨hk, rfl⟩) (fun _ _ _ hlive => hlive.later hclock)
    (fun _ _ _ hkept => hkept.later hclock)

/-- What a task reports when its token is issued. -/
theorem issued_of_fire {m : Matchmaking.State} {t : Nat} {r : ConnectReading}
    {e : Matchmaking.Event} (he : e ∈ (Matchmaking.fire menv m (.proceed t (.issue r))).2) :
    ∃ task server, m.tasks t = some task ∧ task.phase = .chosen (some server) ∧
      e = .issued t task.token (issueConnectToken menv r task.token server.addr) := by
  simp only [Matchmaking.fire, Matchmaking.Task.next] at he
  split at he
  · next task htask =>
    cases hphase : task.phase with
    | chosen server =>
      rw [hphase] at he
      cases server with
      | some server => exact ⟨task, server, htask, hphase, List.mem_singleton.mp he⟩
      | none => cases he
    | spawned | waiting _ | cancelling | woken | issued _ _ | leaving | ended =>
      rw [hphase] at he
      cases he
  · cases he

/-! ## Every step -/

/-- A token that a task has issued is for the session that its join was checked for. -/
theorem Safe.issued (h : Safe env st) (htimeless : Timeless env) {t : Nat} {r : ConnectReading}
    (hgood : Undisturbed env st (.issue t r)) {sessionToken : String} {verified : Bool}
    (hconnect : .connect sessionToken verified ∈
      (Matchmaking.fire menv st.matching (.proceed t (.issue r))).2.filterMap
        (connects env st.auth.svc r.now)) : verified = true := by
  obtain ⟨e, he, hconnects⟩ := List.mem_filterMap.mp hconnect
  obtain ⟨task, server, htask, hphase, rfl⟩ := issued_of_fire he
  obtain ⟨checkedAt, hat, hkept⟩ := h.tasks t task htask (by rw [hphase]; rfl)
  obtain ⟨hparse, hnow⟩ := hgood task checkedAt htask hat
  generalize issueConnectToken menv r task.token server.addr = result at hconnects
  cases result with
  | ok token =>
    cases hconnects
    exact hkept.verifies htimeless hparse hnow
  | error e => cases hconnects

/-- A step under the condition keeps the invariant, and the tokens that it issues go to sessions
that verify. -/
theorem Safe.step (h : Safe env st) (htimeless : Timeless env) {a : Action}
    (hadmissible : Admissible st a) (hgood : Undisturbed env st a)
    (hfire : fire env menv st a = (st', events)) :
    Safe env st' ∧ ∀ sessionToken verified, .connect sessionToken verified ∈ events →
      verified = true := by
  -- the events of the services themselves are none of ours
  have hauth : ∀ (l : List Auth.Event) sessionToken verified,
      .connect sessionToken verified ∈ l.map Event.auth → verified = true := by
    intro l sessionToken verified hconnect
    obtain ⟨e, -, heq⟩ := List.mem_map.mp hconnect
    cases heq
  have hmatching : ∀ (l : List Matchmaking.Event) sessionToken verified,
      .connect sessionToken verified ∈ l.map Event.matching → verified = true := by
    intro l sessionToken verified hconnect
    obtain ⟨e, -, heq⟩ := List.mem_map.mp hconnect
    cases heq
  cases a with
  | auth action =>
    obtain ⟨rfl, rfl⟩ := Prod.mk.inj hfire
    refine ⟨?_, hauth _⟩
    cases action with
    | arrive i request => exact h.arrive hadmissible request
    | advance i r =>
      dsimp only
      split
      · exact h
      · next c hi =>
        exact h.advance hi (Option.isNone_iff_eq_none.mp hadmissible.1) hadmissible.2.1
          fun jti => hgood c jti hi
  | enter i token =>
    obtain ⟨rfl, rfl⟩ := Prod.mk.inj hfire
    exact ⟨h.enter hadmissible token, hauth _⟩
  | check i r =>
    simp only [fire] at hfire
    split at hfire
    · next join hjoin =>
      obtain ⟨rfl, rfl⟩ := Prod.mk.inj hfire
      refine ⟨?_, hauth _⟩
      obtain ⟨c, hi⟩ := Option.ne_none_iff_exists'.mp (h.joins i join hjoin).call
      simp only [Auth.fire, hi]
      exact h.check hjoin hi hadmissible.1 (hgood join hjoin)
    · obtain ⟨rfl, rfl⟩ := Prod.mk.inj hfire
      exact ⟨h, fun _ _ hconnect => nomatch hconnect⟩
  | join i t =>
    simp only [fire] at hfire
    split at hfire
    · next join result hjoin hi =>
      obtain ⟨rfl, rfl⟩ := Prod.mk.inj hfire
      exact ⟨h.join hjoin hi (Option.isNone_iff_eq_none.mp hadmissible), hmatching _⟩
    · obtain ⟨rfl, rfl⟩ := Prod.mk.inj hfire
      exact ⟨h, fun _ _ hconnect => nomatch hconnect⟩
  | work action =>
    obtain ⟨rfl, rfl⟩ := Prod.mk.inj hfire
    refine ⟨h.matching (Matchmaking.Step.cases ⟨action, hadmissible.2, rfl⟩) ?_, hmatching _⟩
    intro t token hjoined
    obtain rfl := Matchmaking.joined_of_fire hadmissible.2 hjoined
    cases hadmissible.1
  | issue t r =>
    obtain ⟨rfl, rfl⟩ := Prod.mk.inj hfire
    refine ⟨?_, fun sessionToken verified hconnect => ?_⟩
    · refine (h.matching (Matchmaking.Step.cases ⟨.proceed t (.issue r), trivial, rfl⟩) ?_).later
        hadmissible
      intro k token hjoined
      cases Matchmaking.joined_of_fire (a := .proceed t (.issue r)) trivial hjoined
    · rcases List.mem_append.mp hconnect with hconnect | hconnect
      · exact hmatching _ _ _ hconnect
      · exact h.issued htimeless hgood hconnect
  | direct r sessionToken serverAddress => exact hgood.elim

/-- While tokens are issued through the queue only and nothing disturbs the sessions it relies on,
every connect token is issued at a moment when the session token of its request verifies. -/
theorem connect_token_verified (htimeless : Timeless env) {bypassEnabled : Bool}
    {clock : DateTime} {now : Instant} {trace : List Event}
    (h : Run (Fires (fun st a => Admissible st a ∧ Undisturbed env st a) (fire env menv))
      (.new bypassEnabled clock now) trace st) {sessionToken : String} {verified : Bool}
    (hconnect : .connect sessionToken verified ∈ trace) : verified = true := by
  have hrun := h.forall_events (I := Safe env)
    (P := fun e => ∀ sessionToken verified, e = .connect sessionToken verified → verified = true)
    (safe_new env bypassEnabled clock now) fun st events st' hsafe hstep => by
      obtain ⟨a, ⟨hadmissible, hgood⟩, hfire⟩ := hstep
      obtain ⟨hsafe', hverified⟩ := hsafe.step htimeless hadmissible hgood hfire
      refine ⟨hsafe', fun e he sessionToken verified heq => ?_⟩
      exact hverified sessionToken verified (heq ▸ he)
  exact hrun.2 _ hconnect sessionToken verified rfl

end

/-! ## Two small runs -/

instance decidableAdmissible (st : State) : ∀ a : Action, Decidable (Admissible st a)
  | .auth (.arrive call request) =>
    inferInstanceAs (Decidable (Auth.Admissible st.auth (.arrive call request)))
  | .auth (.advance call r) => inferInstanceAs
    (Decidable ((st.joins call).isNone = true ∧ Auth.Admissible st.auth (.advance call r)))
  | .enter call token =>
    inferInstanceAs (Decidable (Auth.Admissible st.auth (.arrive call (.verifySession token none))))
  | .check call r => inferInstanceAs (Decidable (Auth.Admissible st.auth (.advance call r)))
  | .join _ task => inferInstanceAs (Decidable ((st.matching.tasks task).isNone = true))
  | .work a =>
    inferInstanceAs (Decidable (isOwn a = true ∧ Matchmaking.Admissible st.matching a))
  | .issue _ r => inferInstanceAs (Decidable (st.auth.clock ≤ r.now))
  | .direct r _ _ => inferInstanceAs (Decidable (st.auth.clock ≤ r.now))

/-- A connect token goes out for this session token, which verifies or does not. -/
def Event.isConnect (sessionToken : String) (verified : Bool) : Event → Bool
  | .connect sessionToken' verified' => sessionToken' = sessionToken && verified' = verified
  | _ => false

theorem mem_of_isConnect {sessionToken : String} {verified : Bool} {trace : List Event}
    (h : trace.any (·.isConnect sessionToken verified) = true) :
    .connect sessionToken verified ∈ trace := by
  obtain ⟨e, he, hconnect⟩ := List.any_eq_true.mp h
  cases e with
  | connect sessionToken' verified' =>
    simp only [Event.isConnect, Bool.and_eq_true, decide_eq_true_eq] at hconnect
    rw [← hconnect.1, ← hconnect.2]
    exact he
  | auth _ => cases hconnect
  | matching _ => cases hconnect

/-- A player logs in and joins the queue. -/
def queued : List Action :=
  Auth.loggedInActions.map .auth ++
    [.enter 2 Auth.loggedInToken, .check 2 (Auth.plainReading 5), .check 2 (Auth.plainReading 6),
      .join 2 0]

/-- The task of the player picks a server. -/
def picked : List Action :=
  [.work (.register (some Matchmaking.plainServer)), .work (.proceed 0 .start),
    .work (.advance 1000000000), .work (.proceed 0 (.wake true)),
    .work (.proceed 0 (.choose ["s"]))]

def plainConnect (n : Nat) : ConnectReading := ⟨.ofSeconds n, 7, []⟩

/-- Nothing relies on a session before the first join. -/
theorem undisturbed_auth {env : AuthEnv} {menv : MatchEnv} (actions : List Auth.Action) :
    ∀ {st : State}, (∀ i, st.joins i = none) → (∀ t, st.matching.tasks t = none) →
      Allows (Undisturbed env) (fire env menv) (fun _ _ => True) st (actions.map .auth) := by
  induction actions with
  | nil => exact fun _ _ => trivial
  | cons a actions ih =>
    intro st hjoins htasks
    refine ⟨?_, trivial, ih hjoins htasks⟩
    cases a with
    | arrive i request => trivial
    | advance i r =>
      rintro c jti - - (⟨k, join, hk, -⟩ | ⟨t, task, ht, -⟩)
      · cases (hjoins k).symm.trans hk
      · cases (htasks t).symm.trans ht

theorem fires_auth {env : AuthEnv} {menv : MatchEnv} (actions : List Auth.Action) (st : State) :
    (fires (fire env menv) st (actions.map .auth)).1 =
      { st with auth := (Auth.fireAll env st.auth actions).1 } := by
  induction actions generalizing st with
  | nil => rfl
  | cons a actions ih => exact ih _

/-- The calls of the login have ended. -/
theorem loggedIn_calls (i : Nat) (jti : String) (nowTs : Int) (asker : Auth.Asker) :
    (Auth.fireAll Auth.plainEnv (.new false 0) Auth.loggedInActions).1.calls i ≠
      some (.touch jti nowTs asker) := by
  intro hcall
  have hended : ∀ i ∈ Auth.loggedInActions.map Auth.Action.call,
      ((Auth.fireAll Auth.plainEnv (.new false 0) Auth.loggedInActions).1.calls i).all
        (·.session.isNone) := by
    decide +kernel
  by_cases hmem : i ∈ Auth.loggedInActions.map Auth.Action.call
  · have hnone := hended i hmem
    rw [hcall] at hnone
    cases hnone
  · rw [Auth.fireAll_calls _ hmem] at hcall
    cases hcall

/-- Nobody disturbs the session while its player waits. -/
theorem undisturbed_queued :
    Allows (Undisturbed Auth.plainEnv) (fire Auth.plainEnv Matchmaking.plainEnv) (fun _ _ => True)
      (.new false 0 0) (queued ++ picked ++ [.issue 0 (plainConnect 7)]) := by
  unfold queued picked
  rw [List.append_assoc, List.append_assoc, allows_append, fires_auth]
  refine ⟨undisturbed_auth _ (fun _ => rfl) (fun _ => rfl), trivial, trivial, ?_, trivial, ?_,
    trivial, trivial, trivial, trivial, trivial, trivial, trivial, trivial, trivial, trivial,
    trivial, trivial, trivial, ?_, trivial, trivial⟩
  · -- the check of the join is the only one
    intro join hjoin hnone jti hopens i nowTs asker hcall
    rcases of_update_some hcall with ⟨-, heq⟩ | ⟨-, hold⟩
    · cases heq
    · exact loggedIn_calls i jti nowTs asker hold
  · intro join hjoin hnone
    cases hjoin
    cases hnone
  · intro task checkedAt htask hat
    refine ⟨rfl, ?_⟩
    have hfive : some checkedAt = some (DateTime.ofSeconds 5) :=
      hat.symm.trans (by decide +kernel)
    cases hfive
    decide

theorem connect_token_verified_queue :
    ∃ trace st, Run (Fires (fun st a => Admissible st a ∧ Undisturbed Auth.plainEnv st a)
        (fire Auth.plainEnv Matchmaking.plainEnv)) (.new false 0 0) trace st ∧
      ∃ verified, .connect Auth.loggedInToken verified ∈ trace ∧ verified = true := by
  have hallows : Allows Admissible (fire Auth.plainEnv Matchmaking.plainEnv) (fun _ _ => True)
      (.new false 0 0) (queued ++ picked ++ [.issue 0 (plainConnect 7)]) := by
    decide +kernel
  have hrun := (run_fires (allows_and hallows undisturbed_queued)).mono fun _ _ _ h => h.1
  have hconnect : .connect Auth.loggedInToken true ∈
      (fires (fire Auth.plainEnv Matchmaking.plainEnv) (.new false 0 0)
        (queued ++ picked ++ [.issue 0 (plainConnect 7)])).2 :=
    mem_of_isConnect (by decide +kernel)
  exact ⟨_, _, hrun, true, hconnect, connect_token_verified (fun _ _ _ _ _ h h' => by
    cases h
    cases h'
    rfl) hrun hconnect⟩

/-- The player logs out in the meantime. -/
def loggedOut : List Action :=
  [.auth (.arrive 3 (.logout none Auth.loggedInToken)), .auth (.advance 3 (Auth.plainReading 7))]

/-- Neither way to a connect token looks at the session when the token goes out: the gRPC method
issues one for any text, and a task for a session that was logged out while it waited. -/
theorem connect_token_unverified :
    (∃ trace st, Run (Fires Admissible (fire Auth.plainEnv Matchmaking.plainEnv)) (.new false 0 0)
      trace st ∧ .connect "no session" false ∈ trace) ∧
    ∃ trace st, Run (Fires Admissible (fire Auth.plainEnv Matchmaking.plainEnv)) (.new false 0 0)
      trace st ∧ .connect Auth.loggedInToken false ∈ trace := by
  have hdirect : Allows Admissible (fire Auth.plainEnv Matchmaking.plainEnv) (fun _ _ => True)
      (.new false 0 0) [.direct (plainConnect 1) "no session" "10.0.0.1:7000"] := by
    decide +kernel
  have hqueue : Allows Admissible (fire Auth.plainEnv Matchmaking.plainEnv) (fun _ _ => True)
      (.new false 0 0) (queued ++ picked ++ loggedOut ++ [.issue 0 (plainConnect 8)]) := by
    decide +kernel
  refine ⟨⟨_, _, (run_fires hdirect).mono fun _ _ _ h => h.1, mem_of_isConnect ?_⟩,
    ⟨_, _, (run_fires hqueue).mono fun _ _ _ h => h.1, mem_of_isConnect ?_⟩⟩
  · decide +kernel
  · decide +kernel

end Aetheris.Connect
