import Aetheris.Server.Auth.Records

/-!
# One login for each record

A login that passes its check takes the record away in a later section of its own. As long as no
other login passes its check in between, a record is `free`, then `held` by one login, then `spent`.
Two logins that both pass before either removes the record are both granted.
-/

namespace Aetheris.Auth

open Function

/-- A login that has passed its check and has not answered yet. -/
def Call.granted (id : String) : Call → Prop
  | .otpRemove id' (.accepted _) => id' = id
  | .googleRemove id' _ => id' = id
  | .googleMint id' _ => id' = id
  | _ => False

/-- A login that has passed its check and still has to remove the record. -/
def Call.willRemove (id : String) : Call → Prop
  | .otpRemove id' (.accepted _) => id' = id
  | .googleRemove id' _ => id' = id
  | _ => False

theorem Call.record_of_granted {id : String} {c : Call} (h : c.granted id) :
    c.record = some id := by
  cases c with
  | otpRemove id' outcome =>
    cases outcome with
    | accepted response => exact congrArg some h
    | _ => cases h
  | googleRemove id' subject => exact congrArg some h
  | googleMint id' subject => exact congrArg some h
  | _ => cases h

/-- A login passes its check only while the record is stored and no other login that passed its
check has yet to remove it. -/
def Exclusive (id : String) (st : State) (events : List Event) : Prop :=
  .accepted id ∈ events →
    st.svc.otpStore id ≠ none ∧ ∀ i c, st.calls i = some c → ¬ c.willRemove id

/-- The life of a record, as far as logins are concerned. -/
inductive Phase (id : String) (trace : List Event) (st : State) : Prop where
  | free (hnone : ∀ i c, st.calls i = some c → ¬ c.granted id) (hlog : .loggedIn id ∉ trace)
  | held {i : Nat} {c : Call} (hi : st.calls i = some c) (hc : c.granted id)
      (hothers : ∀ j c', st.calls j = some c' → c'.granted id → j = i)
      (hstore : st.svc.otpStore id = none ∨ c.willRemove id) (hlog : .loggedIn id ∉ trace)
  | spent (hnone : ∀ i c, st.calls i = some c → ¬ c.granted id)
      (hdrawn : id ∈ st.drawn) (hstore : st.svc.otpStore id = none)
      (hlog : trace.count (.loggedIn id) ≤ 1)

section

variable {id : String} {trace events : List Event} {st : State} {i : Nat} {c c' : Call}
  {r : Reading} {svc' : AuthServiceImpl}

theorem not_granted_wrong {status : Status} {attempts : UInt8} :
    ¬ (if attempts ≥ 3 then .otpRemove id (.wrong attempts status)
      else .done (.status status) : Call).granted id := by
  split
  · exact not_false
  · exact not_false

/-- As long as no login was granted, the first one takes the record. -/
theorem Phase.of_free (hnone : ∀ i c, st.calls i = some c → ¬ c.granted id)
    (hlog : .loggedIn id ∉ trace) (hi : st.calls i = some c)
    (hs : RecordStep id r st.svc c (svc', c', events)) :
    Phase id (trace ++ events)
      ⟨svc', update st.calls i (some c'), r.now, r.ulid :: st.drawn⟩ := by
  have hc := hnone i c hi
  have hfree : ¬ c'.granted id → .loggedIn id ∉ events → Phase id (trace ++ events)
      ⟨svc', update st.calls i (some c'), r.now, r.ulid :: st.drawn⟩ := by
    intro hc' hevents
    exact .free (Function.forall_update hnone hc') (by simp [hlog, hevents])
  have hheld : c'.granted id → c'.willRemove id → .loggedIn id ∉ events →
      Phase id (trace ++ events)
        ⟨svc', update st.calls i (some c'), r.now, r.ulid :: st.drawn⟩ := by
    intro hc' hremove hevents
    refine .held (update_self ..) hc' (fun j d hj hd => ?_) (Or.inr hremove)
      (by simp [hlog, hevents])
    rcases of_update_some hj with ⟨rfl, -⟩ | ⟨-, hold⟩
    · rfl
    · exact absurd hd (hnone j d hold)
  cases hs with
  | aside hc hc' hstore hevents =>
    exact hfree (fun h => hc' (Call.record_of_granted h)) fun h => hevents _ h rfl
  | inserted hc hid hstore hattempts => exact hfree not_false (by simp)
  | accepted hc hrecord hstore => exact hheld rfl rfl (by simp)
  | expired hc hrecord hstore => exact hfree not_false (by simp)
  | wrong status hc hrecord hstore hc' => exact hfree (hc' ▸ not_granted_wrong) (by simp)
  | removed hstore hevents =>
    subst hevents
    refine hfree not_false ?_
    split
    · exact absurd rfl hc
    · simp
  | nonceRead hc hrecord hstore => exact hfree not_false (by simp)
  | idTokenAccepted hstore => exact hheld rfl rfl (by simp)
  | idTokenRefused hstore => exact hfree not_false (by simp)
  | nonceRemoved hstore => exact absurd rfl hc
  | minted hstore hevents => exact absurd rfl hc

/-- While a login holds the record, no other is granted, and its end spends the record. -/
theorem Phase.of_held {k : Nat} {d : Call} (hk : Known id st) (hd : st.calls k = some d)
    (hgranted : d.granted id) (hothers : ∀ j c', st.calls j = some c' → c'.granted id → j = k)
    (hstore : st.svc.otpStore id = none ∨ d.willRemove id) (hlog : .loggedIn id ∉ trace)
    (hi : st.calls i = some c) (hulid : r.ulid ∉ st.drawn)
    (hs : RecordStep id r st.svc c (svc', c', events)) (hex : Exclusive id st events) :
    Phase id (trace ++ events)
      ⟨svc', update st.calls i (some c'), r.now, r.ulid :: st.drawn⟩ := by
  have hdrawn : id ∈ st.drawn := hk.call k d hd (Call.record_of_granted hgranted)
  have hnotAccepted : .accepted id ∉ events := by
    intro hmem
    obtain ⟨hstored, hfree⟩ := hex hmem
    rcases hstore with hstore | hremove
    · exact hstored hstore
    · exact hfree k d hd hremove
  by_cases hik : i = k
  · -- the login that holds the record moves
    subst hik
    obtain rfl : d = c := Option.some.inj (hd.symm.trans hi)
    have hrecord := Call.record_of_granted hgranted
    have hspent : svc'.otpStore id = none → ¬ c'.granted id → events.count (.loggedIn id) ≤ 1 →
        Phase id (trace ++ events)
          ⟨svc', update st.calls i (some c'), r.now, r.ulid :: st.drawn⟩ := by
      intro hnone hc' hcount
      refine .spent (fun j e hj he => ?_) (List.mem_cons_of_mem _ hdrawn) hnone ?_
      · rcases of_update_some hj with ⟨-, rfl⟩ | ⟨hne, hold⟩
        · exact hc' he
        · exact hne (hothers j e hold he)
      · rw [List.count_append, List.count_eq_zero_of_not_mem hlog]
        omega
    cases hs with
    | aside hc => exact absurd hrecord hc
    | removed hnone hevents =>
      refine hspent hnone not_false ?_
      subst hevents
      split <;> simp
    | idTokenAccepted => exact absurd List.mem_cons_self hnotAccepted
    | idTokenRefused => exact absurd hgranted not_false
    | nonceRemoved hnone =>
      refine .held (update_self ..) rfl (fun j e hj he => ?_) (Or.inl hnone)
        (by simpa using hlog)
      rcases of_update_some hj with ⟨rfl, -⟩ | ⟨-, hold⟩
      · rfl
      · exact hothers j e hold he
    | minted hsame hevents =>
      refine hspent (hsame.trans (hstore.resolve_right not_false)) not_false ?_
      rcases hevents with rfl | rfl <;> simp
    | inserted hc => exact absurd (hc.symm.trans hrecord) nofun
    | accepted hc => exact absurd (hc.symm.trans hrecord) nofun
    | expired hc => exact absurd (hc.symm.trans hrecord) nofun
    | wrong _ hc => exact absurd (hc.symm.trans hrecord) nofun
    | nonceRead hc => exact absurd (hc.symm.trans hrecord) nofun
  · -- another call moves: it is not granted, and cannot be now
    have hc : ¬ c.granted id := fun h => hik (hothers i c hi h)
    have hheld : ¬ c'.granted id → (svc'.otpStore id = none ∨ d.willRemove id) →
        .loggedIn id ∉ events → Phase id (trace ++ events)
          ⟨svc', update st.calls i (some c'), r.now, r.ulid :: st.drawn⟩ := by
      intro hc' hstore' hevents
      refine .held ((update_of_ne (Ne.symm hik) _ _).trans hd) hgranted
        (fun j e hj he => ?_) hstore' (by simp [hlog, hevents])
      rcases of_update_some hj with ⟨-, rfl⟩ | ⟨-, hold⟩
      · exact absurd he hc'
      · exact hothers j e hold he
    cases hs with
    | aside hc hc' hsame hevents =>
      exact hheld (fun h => hc' (Call.record_of_granted h)) (hsame ▸ hstore)
        fun h => hevents _ h rfl
    | inserted hc hid => exact absurd (hid ▸ hdrawn) hulid
    | accepted => exact absurd List.mem_cons_self hnotAccepted
    | idTokenAccepted => exact absurd List.mem_cons_self hnotAccepted
    | expired hc hrecord hsame => exact hheld not_false (hsame ▸ hstore) (by simp)
    | nonceRead hc hrecord hsame => exact hheld not_false (hsame ▸ hstore) (by simp)
    | idTokenRefused hsame => exact hheld not_false (hsame ▸ hstore) (by simp)
    | wrong _ hc hrecord _ hc' =>
      refine hheld (hc' ▸ not_granted_wrong) (Or.inr ?_) (by simp)
      exact hstore.resolve_left (by rw [hrecord]; exact nofun)
    | removed hnone hevents =>
      refine hheld not_false (Or.inl hnone) ?_
      subst hevents
      split
      · exact absurd rfl hc
      · simp
    | nonceRemoved => exact absurd rfl hc
    | minted => exact absurd rfl hc

/-- Nothing is left of a spent record. -/
theorem Phase.of_spent (hnone : ∀ i c, st.calls i = some c → ¬ c.granted id)
    (hdrawn : id ∈ st.drawn) (hstore : st.svc.otpStore id = none)
    (hlog : trace.count (.loggedIn id) ≤ 1) (hi : st.calls i = some c)
    (hulid : r.ulid ∉ st.drawn) (hs : RecordStep id r st.svc c (svc', c', events))
    (hex : Exclusive id st events) :
    Phase id (trace ++ events)
      ⟨svc', update st.calls i (some c'), r.now, r.ulid :: st.drawn⟩ := by
  have hc := hnone i c hi
  have hspent : ¬ c'.granted id → svc'.otpStore id = none → .loggedIn id ∉ events →
      Phase id (trace ++ events)
        ⟨svc', update st.calls i (some c'), r.now, r.ulid :: st.drawn⟩ := by
    intro hc' hstore' hevents
    refine .spent (Function.forall_update hnone hc') (List.mem_cons_of_mem _ hdrawn) hstore' ?_
    rw [List.count_append, List.count_eq_zero_of_not_mem hevents]
    omega
  have hgone : ∀ record, st.svc.otpStore id ≠ some record := by
    intro record h
    rw [hstore] at h
    cases h
  cases hs with
  | aside hc hc' hsame hevents =>
    exact hspent (fun h => hc' (Call.record_of_granted h)) (hsame.trans hstore)
      fun h => hevents _ h rfl
  | inserted hc hid => exact absurd (hid ▸ hdrawn) hulid
  | accepted hc hrecord => exact absurd hrecord (hgone _)
  | expired hc hrecord => exact absurd hrecord (hgone _)
  | wrong _ hc hrecord => exact absurd hrecord (hgone _)
  | nonceRead hc hrecord => exact absurd hrecord (hgone _)
  | idTokenAccepted => exact absurd hstore (hex List.mem_cons_self).1
  | idTokenRefused hsame => exact hspent not_false (hsame.trans hstore) (by simp)
  | removed hstore' hevents =>
    refine hspent not_false hstore' ?_
    subst hevents
    split
    · exact absurd rfl hc
    · simp
  | nonceRemoved => exact absurd rfl hc
  | minted => exact absurd rfl hc

end

/-- A step on which every login passes its check alone. -/
def ExclusiveStep (env : AuthEnv) (id : String) (st : State) (events : List Event) (st' : State) :
    Prop :=
  Step env st events st' ∧ Exclusive id st events

theorem Phase.step {env : AuthEnv} {id : String} {trace events : List Event} {st st' : State}
    (hk : Known id st) (hp : Phase id trace st) (h : ExclusiveStep env id st events st') :
    Known id st' ∧ Phase id (trace ++ events) st' := by
  obtain ⟨hstep, hex⟩ := h
  cases hstep.cases with
  | idle => exact ⟨hk, by rwa [List.append_nil]⟩
  | @arrive i request hi =>
    -- a request that has just arrived is no login in progress
    have hstart : ¬ (Call.start request).granted id := not_false
    rw [List.append_nil]
    refine ⟨hk.arrive request, ?_⟩
    cases hp with
    | free hnone hlog => exact .free (Function.forall_update hnone hstart) hlog
    | @held k d hd hgranted hothers hstore hlog =>
      have hki : k ≠ i := by
        rintro rfl
        rw [hi] at hd
        cases hd
      refine .held ((update_of_ne hki _ _).trans hd) hgranted (fun j e hj he => ?_)
        hstore hlog
      rcases of_update_some hj with ⟨-, rfl⟩ | ⟨-, hold⟩
      · exact absurd he hstart
      · exact hothers j e hold he
    | spent hnone hdrawn hstore hlog =>
      exact .spent (Function.forall_update hnone hstart) hdrawn hstore hlog
  | @advance i c c' r svc' _ hi hclock hulid hlength hnext =>
    have hs : RecordStep id r st.svc c (svc', c', events) := hnext ▸ next_recordStep env c
    refine ⟨hk.advance hi hs, ?_⟩
    cases hp with
    | free hnone hlog => exact .of_free hnone hlog hi hs
    | held hd hgranted hothers hstore hlog =>
      exact .of_held hk hd hgranted hothers hstore hlog hi hulid hs hex
    | spent hnone hdrawn hstore hlog => exact .of_spent hnone hdrawn hstore hlog hi hulid hs hex

/-- In every interleaving in which each login passes its check alone, a record grants at most one
`LoginResponse`. -/
theorem single_login {env : AuthEnv} {bypassEnabled : Bool} {clock : DateTime} {id : String}
    {trace : List Event} {st : State}
    (h : Run (ExclusiveStep env id) (.new bypassEnabled clock) trace st) :
    trace.count (.loggedIn id) ≤ 1 := by
  have hinv : Known id st ∧ Phase id trace st := by
    refine h.history (I := fun trace st => Known id st ∧ Phase id trace st) ⟨?_, ?_⟩ ?_
    · exact known_new id bypassEnabled clock
    · exact .free nofun (by simp)
    · exact fun trace st events st' hi hstep => Phase.step hi.1 hi.2 hstep
  cases hinv.2 with
  | free _ hlog => rw [List.count_eq_zero_of_not_mem hlog]; exact Nat.zero_le 1
  | held _ _ _ _ hlog => rw [List.count_eq_zero_of_not_mem hlog]; exact Nat.zero_le 1
  | spent _ _ _ hlog => exact hlog

/-- A request for a code and a login with it. -/
def aloneActions : List Action :=
  otpRequested ++ [.arrive 1 (.login (.otp (plainUlid 2) "123456")), .advance 1 (plainReading 3),
    .advance 1 (plainReading 4)]

/-- A login that has the record to itself. -/
theorem single_login_alone :
    .loggedIn (plainUlid 2) ∈ (fireAll plainEnv (.new false 0) aloneActions).2 ∧
      (fireAll plainEnv (.new false 0) aloneActions).2.count (.loggedIn (plainUlid 2)) ≤ 1 := by
  have hquiet : ∀ {st events}, .accepted (plainUlid 2) ∉ events →
      Exclusive (plainUlid 2) st events := fun h hmem => absurd hmem h
  -- when the code is checked, the request is answered and the login is the only other call
  have hcalls : ∀ i c, (fireAll plainEnv (.new false 0) (otpRequested ++
      [.arrive 1 (.login (.otp (plainUlid 2) "123456"))])).1.calls i = some c →
      ¬ c.willRemove (plainUlid 2) := by
    rintro (_ | _ | i) c hi
    · obtain rfl := Option.some.inj hi
      exact not_false
    · obtain rfl := Option.some.inj hi
      exact not_false
    · exact absurd hi nofun
  refine ⟨by decide +kernel, single_login (run_fireAll ?_)⟩
  exact ⟨by decide, hquiet (by decide +kernel), by decide +kernel, hquiet (by decide +kernel),
    by decide +kernel, hquiet (by decide +kernel), by decide +kernel, hquiet (by decide +kernel),
    by decide +kernel, hquiet (by decide +kernel), by decide +kernel,
    fun _ => ⟨by decide +kernel, hcalls⟩, by decide +kernel, hquiet (by decide +kernel), trivial⟩

/-- Two logins with the right code, and two with one id token: both get in each time. -/
theorem two_logins :
    (∃ trace st, Run (Step plainEnv) (.new false 0) trace st ∧
      trace.count (.loggedIn (plainUlid 2)) = 2) ∧
    ∃ trace st, Run (Step plainEnv) (.new false 0) trace st ∧
      trace.count (.loggedIn (plainUlid 0)) = 2 := by
  constructor
  · let actions : List Action := otpRequested ++
      [.arrive 1 (.login (.otp (plainUlid 2) "123456")),
        .arrive 2 (.login (.otp (plainUlid 2) "123456")),
        .advance 1 (plainReading 3), .advance 2 (plainReading 4),
        .advance 1 (plainReading 5), .advance 2 (plainReading 6)]
    have hpermits : Permits plainEnv (fun _ _ => True) (.new false 0) actions := by
      decide +kernel
    exact ⟨_, _, run_script hpermits, by decide +kernel⟩
  · let actions : List Action :=
      [.arrive 0 .createGoogleLoginNonce, .advance 0 (plainReading 0),
        .arrive 1 (.login (.google (plainUlid 0) "alice")),
        .arrive 2 (.login (.google (plainUlid 0) "alice")),
        .advance 1 (plainReading 1), .advance 2 (plainReading 2), .advance 1 (plainReading 3),
        .advance 2 (plainReading 4), .advance 1 (plainReading 5), .advance 2 (plainReading 6),
        .advance 1 (plainReading 7), .advance 2 (plainReading 8)]
    have hpermits : Permits plainEnv (fun _ _ => True) (.new false 0) actions := by
      decide +kernel
    exact ⟨_, _, run_script hpermits, by decide +kernel⟩

end Aetheris.Auth
