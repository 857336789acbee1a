import Aetheris.Server.Auth.IdleWindow
import Aetheris.Server.Auth.Verifier

/-!
# Sessions that lapse

A session nobody asks about keeps the activity it has: `of_next` says how an activity can change, and
`Lapsing` that it does not get newer. The tick loop asks about the sessions of its clients by
questions of its own. `Abandoned` says that these do not renew the session either, as long as none of
them comes on a refreshing tick of the session within the hour; after the hour the answer is no
(`Abandoned.refused`).
-/

namespace Aetheris.Auth

open Function

/-! ## How an activity changes -/

section

variable {env : AuthEnv} {r : Reading} {svc : AuthServiceImpl} {jti : String} {activity : Int}

variable {jti' playerId : String} {new : Option String}

/-- Minting writes the time of the section. -/
theorem of_mint {new : String} {svc' : AuthServiceImpl} {token : Option String}
    (hmint : Mint env r svc new svc' token) (h : svc'.sessionActivity jti = some activity) :
    svc.sessionActivity jti = some activity ∨ activity = r.now.timestamp ∧ jti = new := by
  rcases hmint.cases jti with hsame | ⟨hnew, hjti⟩
  · exact .inl (hsame.symm.trans h)
  · exact .inr ⟨Option.some.inj (h.symm.trans hnew), hjti⟩

theorem of_touch {nowTs : Int} (h : (svc.touch jti' nowTs).sessionActivity jti = some activity) :
    svc.sessionActivity jti = some activity ∨ jti' = jti ∧ nowTs = activity := by
  by_cases hjti : jti' = jti
  · subst hjti
    rw [touch_activity] at h
    obtain ⟨old, -, rfl⟩ := Option.map_eq_some_iff.mp h
    exact .inr ⟨rfl, rfl⟩
  · rw [AuthServiceImpl.touch_of_ne svc nowTs (Ne.symm hjti)] at h
    exact .inl h

theorem of_revoke (h : (svc.revoke jti').sessionActivity jti = some activity) :
    svc.sessionActivity jti = some activity := by
  have h : update svc.sessionActivity jti' none jti = some activity := h
  by_cases hjti : jti = jti'
  · rw [hjti, update_self] at h
    cases h
  · rwa [update_of_ne hjti] at h

/-- An activity on record after a section was there before, is that of a session minted by the
section, or is what a check between its halves had still to write. -/
theorem of_next {c : Call} (h : (c.next env r svc).1.sessionActivity jti = some activity) :
    svc.sessionActivity jti = some activity ∨
      activity = r.now.timestamp ∧ (jti = r.ulid ∨ jti = "admin") ∨
      ∃ asker, c = .touch jti activity asker := by
  have hcases := Call.next_cases env r svc c
  generalize c.next env r svc = out at hcases h
  cases hcases with
  | loginOtp id code =>
    obtain ⟨new, hnew, hmint⟩ := otpSection_mint env r svc id code
    refine (of_mint hmint h).imp_right fun hminted => .inl ⟨hminted.1, ?_⟩
    rw [hminted.2]
    exact hnew.imp_right And.left
  | googleMint handle subject hmint =>
    exact (of_mint hmint h).imp_right fun hminted => .inl ⟨hminted.1, .inl hminted.2⟩
  | touch jti' nowTs asker =>
    refine (of_touch h).imp_right ?_
    rintro ⟨rfl, rfl⟩
    exact .inr ⟨asker, rfl⟩
  | logout _ => exact .inl (of_revoke h)
  | refreshRemove jti' sub => exact .inl (of_revoke h)
  | refreshMint jti' sub hmint =>
    refine (of_mint hmint h).imp_right fun hminted => .inl ⟨hminted.1, ?_⟩
    obtain ⟨-, hnew⟩ := hminted
    split at hnew
    · exact .inr hnew
    · exact .inl hnew
  | _ => exact .inl h

end

/-! ## Sessions nobody asks about -/

/-- The request checks the session, and may renew it. -/
def AuthRequest.AsksAbout (env : AuthEnv) (jti : String) : AuthRequest → Prop
  | .refreshToken token | .verifySession token _ =>
    ∃ now parsed, env.parse now token = some parsed ∧ parsed.jti = some jti
  | .isSessionAuthorized jti' _ => jti' = jti
  | _ => False

section

variable {env : AuthEnv} {r : Reading} {svc : AuthServiceImpl} {jti : String}

theorem Asker.finish_ne_start (asker : Asker) (jti : String) (ok : Bool) (request : AuthRequest) :
    asker.finish jti ok ≠ .start request := by
  cases asker <;> cases ok <;> exact nofun

theorem Asker.finish_ne (asker : Asker) (jti jti' : String) (ok : Bool) (nowTs : Int)
    (asker' : Asker) : asker.finish jti ok ≠ .touch jti' nowTs asker' := by
  cases asker <;> cases ok <;> exact nofun

/-- A check leaves at most a write of its own session pending, with the time it has read. -/
theorem beginCheck_pending (r : Reading) (svc : AuthServiceImpl) (jti jti' : String)
    (tick : Option UInt64) (asker : Asker) :
    (∀ request, (beginCheck r svc jti' tick asker).1 ≠ .start request) ∧
      ∀ nowTs asker', (beginCheck r svc jti' tick asker).1 = .touch jti nowTs asker' →
        nowTs = r.now.timestamp ∧ jti' = jti := by
  have hread := svc.readActivity_spec jti' tick r.now
  unfold beginCheck
  split
  · next nowTs heq =>
    rw [heq] at hread
    refine ⟨nofun, fun nowTs' asker' htouch => ?_⟩
    cases htouch
    exact ⟨hread.1, rfl⟩
  all_goals
    refine ⟨asker.finish_ne_start _ _, fun nowTs asker' heq => ?_⟩
    exact absurd heq (asker.finish_ne _ _ _ nowTs asker')

/-- Only the first section of a request about a session leaves a write of it pending. -/
theorem next_pending (env : AuthEnv) (r : Reading) (svc : AuthServiceImpl) (jti : String)
    (c : Call) :
    (∀ request, (c.next env r svc).2.1 ≠ .start request) ∧
      ∀ nowTs asker, (c.next env r svc).2.1 = .touch jti nowTs asker →
        nowTs = r.now.timestamp ∧ ∃ request, c = .start request ∧ request.AsksAbout env jti := by
  have hcases := Call.next_cases env r svc c
  generalize c.next env r svc = out at hcases ⊢
  cases hcases with
  | @plain _ c' limiter _ hc' =>
    cases c' with
    | start _ => cases hc'
    | touch _ _ _ => cases hc'
    | _ => exact ⟨nofun, nofun⟩
  | loginOtp id code =>
    unfold loginOtp
    dsimp only
    split <;> exact ⟨nofun, nofun⟩
  | @check request jti' asker' tick hasks =>
    obtain ⟨hstart, htouch⟩ := beginCheck_pending r svc jti jti' tick asker'
    refine ⟨hstart, fun nowTs asker heq => ?_⟩
    obtain ⟨hnow, rfl⟩ := htouch nowTs asker heq
    refine ⟨hnow, request, rfl, ?_⟩
    cases hasks with
    | refresh hparse => exact ⟨r.now, _, hparse, rfl⟩
    | verify tick hparse => exact ⟨r.now, _, hparse, rfl⟩
    | authorized tick => exact rfl
  | touch jti' nowTs asker =>
    exact ⟨asker.finish_ne_start _ _, fun _ _ => (asker.finish_ne _ _ _ _ _).elim⟩
  | _ => exact ⟨nofun, nofun⟩

/-- No write of the session is later than the clock. -/
structure Recent (jti : String) (st : State) : Prop where
  activity : ∀ activity, st.svc.sessionActivity jti = some activity →
    activity ≤ st.clock.timestamp
  pending : ∀ i nowTs asker, st.calls i = some (.touch jti nowTs asker) →
    nowTs ≤ st.clock.timestamp

theorem Recent.step {st st' : State} {events : List Event} (h : Recent jti st)
    (hs : Step env st events st') : Recent jti st' := by
  cases hs.cases with
  | idle => exact h
  | arrive request hi =>
    refine ⟨h.activity, fun k nowTs asker hk => ?_⟩
    rcases of_update_some hk with ⟨-, heq⟩ | ⟨-, hold⟩
    · cases heq
    · exact h.pending k nowTs asker hold
  | @advance i c c' r svc' _ hi hclock hulid hlength hnext =>
    have hlater := DateTime.timestamp_mono hclock
    have hsvc : (c.next env r st.svc).1 = svc' := by rw [hnext]
    have hc' : (c.next env r st.svc).2.1 = c' := by rw [hnext]
    refine ⟨fun activity hactivity => ?_, fun k nowTs asker hk => ?_⟩
    · show activity ≤ r.now.timestamp
      rcases of_next (hsvc ▸ hactivity) with hold | ⟨rfl, -⟩ | ⟨asker, rfl⟩
      · exact Int.le_trans (h.activity activity hold) hlater
      · exact Int.le_refl _
      · exact Int.le_trans (h.pending i activity asker hi) hlater
    · show nowTs ≤ r.now.timestamp
      rcases of_update_some hk with ⟨-, heq⟩ | ⟨-, hold⟩
      · exact Int.le_of_eq ((next_pending env r st.svc jti c).2 nowTs asker
          (hc'.trans heq.symm)).1
      · exact Int.le_trans (h.pending k nowTs asker hold) hlater

/-- Since second `since` nobody has asked about the session, and nobody is about to. -/
structure Lapsing (env : AuthEnv) (jti : String) (since : Int) (st : State) : Prop where
  drawn : jti ∈ st.drawn
  activity : ∀ activity, st.svc.sessionActivity jti = some activity → activity ≤ since
  pending : ∀ i nowTs asker, st.calls i = some (.touch jti nowTs asker) → nowTs ≤ since
  unasked : ∀ i request, st.calls i = some (.start request) → ¬ request.AsksAbout env jti

/-- No request about the session arrives. -/
def Action.Quiet (env : AuthEnv) (jti : String) : Action → Prop
  | .arrive _ request => ¬ request.AsksAbout env jti
  | .advance _ _ => True

variable {since : Int} {st : State}

theorem Lapsing.arrive (h : Lapsing env jti since st) (i : Nat) {request : AuthRequest}
    (hrequest : ¬ request.AsksAbout env jti) :
    Lapsing env jti since
      { st with calls := update st.calls i (some (.start request)) } := by
  refine ⟨h.drawn, h.activity, fun k nowTs asker hk => ?_, fun k request' hk => ?_⟩
  · rcases of_update_some hk with ⟨-, heq⟩ | ⟨-, hold⟩
    · cases heq
    · exact h.pending k nowTs asker hold
  · rcases of_update_some hk with ⟨-, heq⟩ | ⟨-, hold⟩
    · cases heq
      exact hrequest
    · exact h.unasked k request' hold

/-- A section that neither writes the session nor leaves a write of it pending. -/
theorem Lapsing.advance (hadmin : jti ≠ "admin") (h : Lapsing env jti since st) (i : Nat)
    {c : Call} (hulid : r.ulid ∉ st.drawn)
    (hc : ∀ nowTs asker, c = .touch jti nowTs asker → nowTs ≤ since)
    (hc' : ∀ nowTs asker, (c.next env r st.svc).2.1 ≠ .touch jti nowTs asker) :
    Lapsing env jti since ⟨(c.next env r st.svc).1,
      update st.calls i (some (c.next env r st.svc).2.1), r.now,
      r.ulid :: st.drawn⟩ := by
  refine ⟨List.mem_cons_of_mem _ h.drawn, fun activity hactivity => ?_,
    fun k nowTs asker hk => ?_, fun k request hk => ?_⟩
  · rcases of_next hactivity with hold | ⟨-, hjti⟩ | ⟨asker, heq⟩
    · exact h.activity activity hold
    · -- the session is not minted again
      exact absurd (hjti.resolve_right hadmin ▸ h.drawn) hulid
    · exact hc activity asker heq
  · rcases of_update_some hk with ⟨-, heq⟩ | ⟨-, hold⟩
    · exact absurd heq.symm (hc' nowTs asker)
    · exact h.pending k nowTs asker hold
  · rcases of_update_some hk with ⟨-, heq⟩ | ⟨-, hold⟩
    · exact absurd heq.symm ((next_pending env r st.svc jti c).1 request)
    · exact h.unasked k request hold

theorem Lapsing.fire (hadmin : jti ≠ "admin") (h : Lapsing env jti since st) {a : Action}
    (hadm : Admissible st a) (ha : a.Quiet env jti) :
    Lapsing env jti since (Auth.fire env st a).1 := by
  cases a with
  | arrive i request => exact h.arrive i ha
  | advance i r =>
    unfold Auth.fire
    dsimp only
    split
    · exact h
    · next c hi =>
      refine h.advance hadmin i hadm.2.1 (fun nowTs asker heq => ?_) fun nowTs asker heq => ?_
      · exact h.pending i nowTs asker (heq ▸ hi)
      · obtain ⟨-, request, rfl, hasks⟩ :=
          (next_pending env r st.svc jti c).2 nowTs asker heq
        exact h.unasked i request hi hasks

theorem Lapsing.fireAll (hadmin : jti ≠ "admin") {actions : List Action}
    (hquiet : ∀ a ∈ actions, a.Quiet env jti) :
    ∀ {st : State}, Permits env (fun _ _ => True) st actions → Lapsing env jti since st →
      Lapsing env jti since (Auth.fireAll env st actions).1 := by
  induction actions with
  | nil => exact fun _ h => h
  | cons a actions ih =>
    rintro st ⟨hadm, -, hrest⟩ h
    exact ih (fun a' ha' => hquiet a' (List.mem_cons_of_mem _ ha')) hrest
      (h.fire hadmin hadm (hquiet a List.mem_cons_self))

end

/-! ## Questions of the tick loop -/

section

variable {env : AuthEnv} {st₀ st : State} {sh : Shared}

variable {a : Action} {actions : List Action} {c : Call} {i : Nat} {reply : Reply}
  {request : AuthRequest} {session : VerifiedSession}

theorem fire_done (hadm : Admissible st a) (hi : st.calls i = some (.done reply)) :
    (fire env st a).1.calls i = some (.done reply) := by
  cases a with
  | arrive k request =>
    have hne : i ≠ k := fun heq => by rw [heq, hadm] at hi; cases hi
    exact (update_of_ne hne _ _).trans hi
  | advance k r =>
    unfold fire
    dsimp only
    split
    · exact hi
    · next c hk =>
      by_cases heq : i = k
      · subst heq
        obtain rfl := Option.some.inj (hi.symm.trans hk)
        exact update_self ..
      · exact (update_of_ne heq _ _).trans hi

/-- The answer of a call stays. -/
theorem fireAll_done : ∀ {st : State}, Permits env (fun _ _ => True) st actions →
      st.calls i = some (.done reply) →
      (fireAll env st actions).1.calls i = some (.done reply) := by
  induction actions with
  | nil => exact fun _ hi => hi
  | cons a actions ih =>
    rintro st ⟨hadm, -, hrest⟩ hi
    exact ih hrest (fire_done hadm hi)

theorem fire_accepted (hadm : Admissible st a) (hi : st.calls i = some c)
    (hc : c.accepted = some session) :
    ∃ c', (fire env st a).1.calls i = some c' ∧ c'.accepted = some session := by
  cases a with
  | arrive k request =>
    have hne : i ≠ k := fun heq => by rw [heq, hadm] at hi; cases hi
    exact ⟨c, (update_of_ne hne _ _).trans hi, hc⟩
  | advance k r =>
    unfold fire
    dsimp only
    split
    · exact ⟨c, hi, hc⟩
    · next c' hk =>
      by_cases heq : i = k
      · subst heq
        obtain rfl := Option.some.inj (hi.symm.trans hk)
        refine ⟨_, update_self .., ?_⟩
        -- either half of the check, or the answer
        cases c with
        | touch jti nowTs asker =>
          cases asker with
          | verify token session' => exact hc
          | _ => cases hc
        | done reply => exact hc
        | _ => cases hc
      · exact ⟨c, (update_of_ne heq _ _).trans hi, hc⟩

theorem fireAll_accepted : ∀ {st : State} {c : Call}, Permits env (fun _ _ => True) st actions →
      st.calls i = some c → c.accepted = some session →
      ∃ c', (fireAll env st actions).1.calls i = some c' ∧ c'.accepted = some session := by
  induction actions with
  | nil => exact fun _ hi hc => ⟨_, hi, hc⟩
  | cons a actions ih =>
    rintro st c ⟨hadm, -, hrest⟩ hi hc
    obtain ⟨c', hi', hc'⟩ := fire_accepted hadm hi hc
    exact ih hrest hi' hc'

/-- An accepted session is the answer after one more section. -/
theorem fire_advance_accepted {r : Reading}
    (hi : st.calls i = some c) (hc : c.accepted = some session) :
    (fire env st (.advance i r)).1.calls i = some (.done (.session (.ok session))) := by
  unfold fire
  simp only [hi]
  refine (update_self ..).trans (congrArg some ?_)
  cases c with
  | touch jti nowTs asker =>
    cases asker with
    | verify token session' =>
      obtain rfl := Option.some.inj hc
      rfl
    | _ => cases hc
  | done reply =>
    cases reply with
    | session result =>
      cases result with
      | ok session' =>
        obtain rfl := Option.some.inj hc
        rfl
      | error e => cases hc
    | _ => cases hc
  | _ => cases hc

/-- The service when a question of the tick loop comes to its turn. -/
def Shared.poised (env : AuthEnv) (st₀ : State) (sh : Shared) : State :=
  (fireAll env (sh.state env st₀) (sh.turns 0).before).1

/-- The service after the first section of a question. -/
def Shared.begun (env : AuthEnv) (st₀ : State) (sh : Shared) (request : AuthRequest) : State :=
  let st := sh.poised env st₀
  let r := (sh.turns 0).first
  ⟨(begin env r st.svc request).1,
    Function.update st.calls (sh.turns 0).call (some (begin env r st.svc request).2.1), r.now,
    r.ulid :: st.drawn⟩

/-- What runs after the first section of a question. -/
def Turn.rest (turn : Turn) : List Action := turn.between ++ [.advance turn.call turn.second]

theorem fireAll_question (st : State) (i : Nat) (r : Reading) (request : AuthRequest) :
    (fireAll env st [.arrive i request, .advance i r]).1 =
      ⟨(begin env r st.svc request).1,
        update st.calls i (some (begin env r st.svc request).2.1), r.now,
        r.ulid :: st.drawn⟩ := by
  show (fire env { st with calls := update st.calls i (some (.start request)) }
    (.advance i r)).1 = _
  have hi : update st.calls i (some (.start request)) i = some (.start request) :=
    update_self ..
  unfold fire
  simp only [hi, Call.next, update_idem]

theorem ask_state (request : AuthRequest) :
    (sh.ask env st₀ request).1.state env st₀ =
      (fireAll env (sh.begun env st₀ request) (sh.turns 0).rest).1 := by
  show (fireAll env st₀ (sh.log ++ (sh.turns 0).actions request)).1 = _
  unfold Turn.actions
  rw [fireAll_append st₀, fireAll_append _ ((sh.turns 0).before ++ _),
    fireAll_append _ (sh.turns 0).before, fireAll_question]
  rfl

/-- What it means for the sections of a question to be admissible. -/
theorem Shared.Admitted.question (h : (sh.ask env st₀ request).1.Admitted env st₀) :
    Permits env (fun _ _ => True) (sh.state env st₀) (sh.turns 0).before ∧
      (sh.turns 0).first.ulid ∉ (sh.poised env st₀).drawn ∧
      Permits env (fun _ _ => True) (sh.begun env st₀ request) (sh.turns 0).rest := by
  have hactions : Permits env (fun _ _ => True) (sh.state env st₀)
      ((sh.turns 0).actions request) := ((permits_append _ _ _).mp h).2
  unfold Turn.actions at hactions
  obtain ⟨hfirst, hrest⟩ := (permits_append _ _ _).mp hactions
  obtain ⟨hbefore, -, -, hadvance, -⟩ := (permits_append _ _ _).mp hfirst
  rw [fireAll_append, fireAll_question] at hrest
  exact ⟨hbefore, hadvance.2.1, hrest⟩

/-- A question that is answered by its first section. -/
theorem ask_of_done (h : (sh.ask env st₀ request).1.Admitted env st₀)
    (hdone : (begin env (sh.turns 0).first (sh.poised env st₀).svc request).2.1 = .done reply) :
    (sh.ask env st₀ request).2 = some reply := by
  obtain ⟨-, -, hrest⟩ := h.question
  have hcall : (sh.begun env st₀ request).calls (sh.turns 0).call = some (.done reply) :=
    (update_self ..).trans (congrArg some hdone)
  have hanswer := fireAll_done hrest hcall
  rw [← ask_state] at hanswer
  unfold Shared.ask at hanswer ⊢
  dsimp only at hanswer ⊢
  rw [hanswer]

/-- A question that accepts a session answers with it. -/
theorem ask_of_accepted (h : (sh.ask env st₀ request).1.Admitted env st₀)
    (haccepted : (begin env (sh.turns 0).first (sh.poised env st₀).svc request).2.1.accepted =
      some session) :
    (sh.ask env st₀ request).2 = some (.session (.ok session)) := by
  obtain ⟨-, -, hrest⟩ := h.question
  have hcall : (sh.begun env st₀ request).calls (sh.turns 0).call = some
      (begin env (sh.turns 0).first (sh.poised env st₀).svc request).2.1 :=
    update_self ..
  obtain ⟨hbetween, -⟩ := (permits_append _ _ _).mp hrest
  obtain ⟨c, hc, hsession⟩ := fireAll_accepted hbetween hcall haccepted
  have hanswer : (fire env (fireAll env (sh.begun env st₀ request) (sh.turns 0).between).1
      (.advance (sh.turns 0).call (sh.turns 0).second)).1.calls (sh.turns 0).call =
        some (.done (.session (.ok session))) := fire_advance_accepted hc hsession
  have hstate : (sh.ask env st₀ request).1.state env st₀ = (fire env
      (fireAll env (sh.begun env st₀ request) (sh.turns 0).between).1
      (.advance (sh.turns 0).call (sh.turns 0).second)).1 := by
    rw [ask_state]
    exact fireAll_append _ _ _
  rw [← hstate] at hanswer
  unfold Shared.ask at hanswer ⊢
  dsimp only at hanswer ⊢
  rw [hanswer]

/-- No request about the session arrives around the question. -/
def Turn.Quiet (env : AuthEnv) (jti : String) (turn : Turn) : Prop :=
  ∀ a ∈ turn.before ++ turn.between, a.Quiet env jti

/-- Nobody but the tick loop has asked about the session since second `since`, or will. -/
structure Abandoned (env : AuthEnv) (st₀ : State) (jti : String) (since : Int) (sh : Shared) :
    Prop where
  state : sh.Admitted env st₀ → Lapsing env jti since (sh.state env st₀)
  turns : ∀ n, (sh.turns n).Quiet env jti

variable {jti jti' : String} {since : Int} {tick : UInt64}

theorem Abandoned.poised (hadmin : jti ≠ "admin") (h : Abandoned env st₀ jti since sh)
    (hadmitted : (sh.ask env st₀ request).1.Admitted env st₀) :
    Lapsing env jti since (sh.poised env st₀) :=
  (h.state hadmitted.of_ask).fireAll hadmin
    (fun a ha => h.turns 0 a (List.mem_append_left _ ha)) hadmitted.question.1

/-- A question that leaves no write of the session pending. -/
theorem Abandoned.ask (hadmin : jti ≠ "admin") (h : Abandoned env st₀ jti since sh)
    (hpending : (sh.ask env st₀ request).1.Admitted env st₀ → ∀ nowTs asker,
      (begin env (sh.turns 0).first (sh.poised env st₀).svc request).2.1 ≠
        .touch jti nowTs asker) :
    Abandoned env st₀ jti since (sh.ask env st₀ request).1 := by
  refine ⟨fun hadmitted => ?_, fun n => h.turns (n + 1)⟩
  obtain ⟨-, hulid, hrest⟩ := hadmitted.question
  have hbegun : Lapsing env jti since (sh.begun env st₀ request) :=
    (h.poised hadmin hadmitted).advance hadmin _ (c := .start request) hulid nofun
      (hpending hadmitted)
  rw [ask_state]
  refine hbegun.fireAll hadmin (fun a ha => ?_) hrest
  rcases List.mem_append.mp ha with hbetween | hlast
  · exact h.turns 0 a (List.mem_append_right _ hbetween)
  · rw [List.mem_singleton.mp hlast]
    trivial

/-- A check of the session by the tick loop does not renew it, unless it comes within the hour and on a
refreshing tick. -/
theorem Abandoned.isSessionAuthorized (hadmin : jti ≠ "admin")
    (h : Abandoned env st₀ jti since sh)
    (htick : jti' = jti → refreshes jti tick = false ∨
      since + 3600 < (sh.turns 0).first.now.timestamp) :
    Abandoned env st₀ jti since
      ((sharedVerifier env st₀).isSessionAuthorized sh jti' (some tick)).1 := by
  rw [sharedVerifier_isSessionAuthorized]
  refine h.ask hadmin fun hadmitted nowTs asker heq => ?_
  obtain ⟨-, rfl⟩ := (beginCheck_pending (sh.turns 0).first (sh.poised env st₀).svc jti jti'
    (some tick) .authorized).2 nowTs asker heq
  have heq : (beginCheck (sh.turns 0).first (sh.poised env st₀).svc jti' (some tick)
    .authorized).1 = .touch jti' nowTs asker := heq
  have hread := (sh.poised env st₀).svc.readActivity_spec jti' (some tick)
    (sh.turns 0).first.now
  unfold beginCheck at heq
  split at heq
  · next hlive =>
    rcases htick rfl with hresidue | hlate
    · have hneeds := AuthServiceImpl.readActivity_needsUpdate hlive
      rw [hresidue] at hneeds
      cases hneeds
    · rw [hlive] at hread
      obtain ⟨-, activity, hactivity, hnow⟩ := hread
      have hold := (h.poised hadmin hadmitted).activity activity hactivity
      omega
  all_goals cases heq

/-- A token that the tick loop verifies renews the session only if it is accepted for it. -/
theorem Abandoned.verifySession (hadmin : jti ≠ "admin") (h : Abandoned env st₀ jti since sh)
    (token : String) (tick : UInt64) :
    Abandoned env st₀ jti since
        ((sharedVerifier env st₀).verifySession sh token (some tick)).1 ∨
      ∃ session, ((sharedVerifier env st₀).verifySession sh token (some tick)).2 = .ok session ∧
        session.jti = jti := by
  rw [sharedVerifier_verifySession]
  by_cases hadmitted : (sh.ask env st₀ (.verifySession token (some tick))).1.Admitted env st₀
  · by_cases htouch : ∃ nowTs asker, (begin env (sh.turns 0).first (sh.poised env st₀).svc
        (.verifySession token (some tick))).2.1 = .touch jti nowTs asker
    · -- the check is about to renew the session, so it has accepted it
      obtain ⟨nowTs, asker, htouch⟩ := htouch
      have haccepted : ∃ session, (begin env (sh.turns 0).first (sh.poised env st₀).svc
          (.verifySession token (some tick))).2.1.accepted = some session ∧
            session.jti = jti := by
        rw [htouch]
        simp only [begin, Auth.verifySession] at htouch
        split at htouch
        case h_4 jti' sub _ =>
          obtain ⟨-, rfl⟩ := (beginCheck_pending (sh.turns 0).first (sh.poised env st₀).svc jti
            jti' (some tick) (.verify token ⟨sub, jti'⟩)).2 nowTs asker htouch
          unfold beginCheck at htouch
          split at htouch
          · cases htouch
            exact ⟨_, rfl, rfl⟩
          all_goals cases htouch
        all_goals cases htouch
      obtain ⟨session, haccepted, hjti⟩ := haccepted
      refine .inr ⟨session, ?_, hjti⟩
      have hanswer := ask_of_accepted hadmitted haccepted
      unfold sharedVerifier
      dsimp only
      generalize sh.ask env st₀ (.verifySession token (some tick)) = result at hanswer
      obtain ⟨sh', reply⟩ := result
      obtain rfl : reply = some (.session (.ok session)) := hanswer
      rfl
    · exact .inl (h.ask hadmin fun _ nowTs asker heq => htouch ⟨nowTs, asker, heq⟩)
  · exact .inl ⟨fun hadmitted' => absurd hadmitted' hadmitted, fun n => h.turns (n + 1)⟩

/-- An hour later the tick loop is told that the session is not authorized. -/
theorem Abandoned.refused (hadmin : jti ≠ "admin") (h : Abandoned env st₀ jti since sh)
    (hlate : since + 3600 < (sh.turns 0).first.now.timestamp)
    (hadmitted : ((sharedVerifier env st₀).isSessionAuthorized sh jti
      (some tick)).1.Admitted env st₀) :
    ((sharedVerifier env st₀).isSessionAuthorized sh jti (some tick)).2 = false := by
  rw [sharedVerifier_isSessionAuthorized] at hadmitted
  have hlapsing := h.poised hadmin hadmitted
  have hdone : (begin env (sh.turns 0).first (sh.poised env st₀).svc
      (.isSessionAuthorized jti (some tick))).2.1 = .done (.authorized false) := by
    have hread := (sh.poised env st₀).svc.readActivity_spec jti (some tick)
      (sh.turns 0).first.now
    show (beginCheck (sh.turns 0).first (sh.poised env st₀).svc jti (some tick) .authorized).1 = _
    unfold beginCheck
    generalize (sh.poised env st₀).svc.readActivity jti (some tick) (sh.turns 0).first.now =
      check at hread
    cases check with
    | live needsUpdate nowTs =>
      obtain ⟨-, activity, hactivity, hnow⟩ := hread
      have hold := hlapsing.activity activity hactivity
      omega
    | idle => rfl
    | revoked => rfl
  have hanswer := ask_of_done hadmitted hdone
  unfold sharedVerifier
  dsimp only
  generalize sh.ask env st₀ (.isSessionAuthorized jti (some tick)) = result at hanswer
  obtain ⟨sh', reply⟩ := result
  obtain rfl : reply = some (.authorized false) := hanswer
  rfl

end

/-! ## Sessions that were accepted -/

section

variable {env : AuthEnv} {st st' : State} {events : List Event}

theorem Step.drawn_subset (hs : Step env st events st') : st.drawn ⊆ st'.drawn := by
  cases hs.cases with
  | idle => exact List.Subset.refl _
  | arrive => exact List.Subset.refl _
  | advance => exact List.subset_cons_self ..

/-- The identifier of an accepted session was drawn, unless it is the shared one. -/
def Drawn (st : State) (session : VerifiedSession) : Prop :=
  session.jti = "admin" ∨ session.jti ∈ st.drawn

theorem Drawn.step {session : VerifiedSession} (h : Drawn st session)
    (hs : Step env st events st') : Drawn st' session :=
  h.imp_right fun hmem => hs.drawn_subset hmem

structure AcceptedDrawn (st : State) : Prop where
  sessions : ∀ jti, jti ≠ "admin" → SessionInv jti st
  accepted : ∀ i c session, st.calls i = some c → c.accepted = some session → Drawn st session

theorem acceptedDrawn_new (bypassEnabled : Bool) (clock : DateTime) :
    AcceptedDrawn (.new bypassEnabled clock) :=
  ⟨fun _ _ => ⟨fun hne => absurd rfl hne, nofun, nofun⟩, nofun⟩

theorem AcceptedDrawn.step (h : AcceptedDrawn st) (hs : Step env st events st') :
    AcceptedDrawn st' := by
  refine ⟨fun jti hadmin => (h.sessions jti hadmin).step hadmin hs, fun i c session hi hc => ?_⟩
  have hstep := hs
  cases hs.cases with
  | idle => exact h.accepted i c session hi hc
  | arrive =>
    rcases of_update_some hi with ⟨-, rfl⟩ | ⟨-, hold⟩
    · cases hc
    · exact h.accepted i c session hold hc
  | @advance k d d' r svc' _ hk hclock hulid hlength hnext =>
    rcases of_update_some hi with ⟨-, rfl⟩ | ⟨-, hold⟩
    · have hd : (d.next env r st.svc).2.1.accepted = some session := by rw [hnext]; exact hc
      rcases next_accepted hd with hbefore | hactivity
      · exact (h.accepted k d session hk hbefore).step hstep
      · by_cases hadmin : session.jti = "admin"
        · exact .inl hadmin
        · exact .inr (hstep.drawn_subset ((h.sessions _ hadmin).store hactivity))
    · exact (h.accepted i c session hold hc).step hstep

/-- `Drawn` of the state that the log leads to. -/
def Shared.Draws (env : AuthEnv) (st₀ : State) (sh : Shared) (session : VerifiedSession) : Prop :=
  sh.Admitted env st₀ → Drawn (sh.state env st₀) session

theorem sharedVerifier_draws (env : AuthEnv) (bypassEnabled : Bool) (clock : DateTime) :
    (sharedVerifier env (.new bypassEnabled clock)).Vets (fun _ => True)
      (Shared.Draws env (.new bypassEnabled clock)) := by
  have hlater : ∀ (sh : Shared) (request : AuthRequest) (session : VerifiedSession),
      sh.Draws env (.new bypassEnabled clock) session →
      (sh.ask env (.new bypassEnabled clock) request).1.Draws env (.new bypassEnabled clock)
        session := by
    intro sh request session h hadmitted
    obtain ⟨trace, hrun⟩ := hadmitted.ask_run
    exact hrun.invariant (I := fun st => Drawn st session) (h hadmitted.of_ask)
      fun _ _ _ hdrawn hs => hdrawn.step hs
  refine ⟨fun sh jti tick _ => ⟨trivial, fun session h => ?_⟩,
    fun sh token tick _ => ⟨trivial, fun session h => ?_, fun session hok => ?_⟩⟩
  · rw [sharedVerifier_isSessionAuthorized]
    exact hlater sh _ session h
  · rw [sharedVerifier_verifySession]
    exact hlater sh _ session h
  · rw [sharedVerifier_verifySession]
    intro hadmitted
    obtain ⟨i, c, hi, hc⟩ := verifySession_accepted hok
    have haccepted : AcceptedDrawn ((sh.ask env (.new bypassEnabled clock)
        (.verifySession token tick)).1.state env (.new bypassEnabled clock)) :=
      hadmitted.run.invariant (acceptedDrawn_new bypassEnabled clock) fun _ _ _ h hs => h.step hs
    exact haccepted.accepted i c session hi hc

end

end Aetheris.Auth
