import Aetheris.Server.Auth.Sections

/-!
# What a section means for one session

A session lives as long as its activity is in the map and recent enough. `SessionStep` says once
what any section of any call can mean for a fixed session: what becomes of its activity, whether the
call goes on with it, and which events are reported.
-/

namespace Aetheris.Auth

open Function

/-- The session an event is about. -/
def Event.session : Event → Option String
  | .loggedOut jti => some jti
  | .exchanged jti => some jti
  | .idled jti _ => some jti
  | .verified _ jti => some jti
  | _ => none

/-- The session that a call in progress is about. -/
def Call.session : Call → Option String
  | .touch jti _ _ => some jti
  | .refreshRemove jti _ => some jti
  | .refreshMint jti _ => some jti
  | _ => none

inductive SessionStep (jti : String) (r : Reading) (svc : AuthServiceImpl) :
    Call → AuthServiceImpl × Call × List Event → Prop where
  /-- The section is about something else. -/
  | aside {c c' : Call} {svc' : AuthServiceImpl} {events : List Event}
      (hc' : c'.session ≠ some jti)
      (hactivity : svc'.sessionActivity jti = svc.sessionActivity jti)
      (hevents : ∀ e ∈ events, e.session ≠ some jti) : SessionStep jti r svc c (svc', c', events)
  /-- The session is minted, or another one of the same identifier. -/
  | minted {c c' : Call} {svc' : AuthServiceImpl} {events : List Event}
      (hjti : jti = r.ulid ∨ jti = "admin") (hc' : c'.session = none) :
      SessionStep jti r svc c (svc', c', events)
  | passed {c c' : Call} {activity : Int} {events : List Event}
      (hactivity : svc.sessionActivity jti = some activity)
      (hnow : r.now.timestamp - activity ≤ 3600)
      (hc' : ∀ nowTs asker, c' = .touch jti nowTs asker → nowTs = r.now.timestamp)
      (hmint : ∀ sub, c' ≠ .refreshMint jti sub)
      (hevents : ∀ e ∈ events, ∃ token, e = .verified token jti) :
      SessionStep jti r svc c (svc, c', events)
  | idled {c c' : Call} {activity : Int} (hactivity : svc.sessionActivity jti = some activity)
      (hnow : r.now.timestamp - activity > 3600) (hc' : c'.session ≠ some jti) :
      SessionStep jti r svc c (svc, c', [.idled jti r.now.timestamp])
  | touched {nowTs : Int} {asker : Asker} :
      SessionStep jti r svc (.touch jti nowTs asker)
        (svc.touch jti nowTs, asker.finish jti true, [])
  | loggedOut {c : Call} {reply : Reply} {svc' : AuthServiceImpl}
      (hactivity : svc'.sessionActivity jti = none) :
      SessionStep jti r svc c (svc', .done reply, [.loggedOut jti])
  | removed {sub : String} {svc' : AuthServiceImpl} (hactivity : svc'.sessionActivity jti = none) :
      SessionStep jti r svc (.refreshRemove jti sub) (svc', .refreshMint jti sub, [])
  | exchanged {sub : String} {reply : Reply} {svc' : AuthServiceImpl} {events : List Event}
      (hactivity : svc'.sessionActivity jti = svc.sessionActivity jti)
      (hevents : ∀ e ∈ events, e = .exchanged jti) :
      SessionStep jti r svc (.refreshMint jti sub) (svc', .done reply, events)

section

variable {jti : String} {r : Reading} {svc : AuthServiceImpl}

theorem SessionStep.of_unrelated {c c' : Call} {svc' : AuthServiceImpl} {events : List Event}
    (hc' : c'.session = none) (hactivity : svc'.sessionActivity = svc.sessionActivity)
    (hevents : ∀ e ∈ events, e.session = none) : SessionStep jti r svc c (svc', c', events) := by
  refine .aside ?_ (by rw [hactivity]) fun e he => ?_
  · rw [hc']; exact nofun
  · rw [hevents e he]; exact nofun

namespace AuthServiceImpl

variable (svc)

/-- What the optimistic read says about the activity on record. -/
theorem readActivity_spec (jti : String) (tick : Option UInt64) (now : DateTime) :
    match svc.readActivity jti tick now with
    | .revoked => svc.sessionActivity jti = none
    | .idle => ∃ activity, svc.sessionActivity jti = some activity ∧
        now.timestamp - activity > 3600
    | .live _ nowTs => nowTs = now.timestamp ∧ ∃ activity,
        svc.sessionActivity jti = some activity ∧ now.timestamp - activity ≤ 3600 := by
  unfold readActivity
  cases hactivity : svc.sessionActivity jti with
  | none => exact rfl
  | some activity =>
    by_cases hnow : now.timestamp - activity > 3600
    · simp only [hnow, if_true]
      exact ⟨activity, rfl, hnow⟩
    · simp only [hnow, if_false]
      exact ⟨trivial, activity, rfl, Int.not_lt.mp hnow⟩

theorem touch_of_ne {jti' : String} (nowTs : Int) (hne : jti ≠ jti') :
    (svc.touch jti' nowTs).sessionActivity jti = svc.sessionActivity jti := by
  unfold touch
  split
  · exact update_of_ne hne _ _
  · rfl

end AuthServiceImpl

theorem Asker.finish_session {jti' : String} (asker : Asker) (ok : Bool) (hne : jti' ≠ jti) :
    (asker.finish jti' ok).session ≠ some jti := by
  cases asker <;> cases ok <;> simp [Asker.finish, Call.session, hne]

theorem beginCheck_sessionStep (c : Call) (jti' : String) (tick : Option UInt64) (asker : Asker) :
    SessionStep jti r svc c (svc, beginCheck r svc jti' tick asker) := by
  by_cases hjti : jti' = jti
  · subst hjti
    have hread := svc.readActivity_spec jti' tick r.now
    unfold beginCheck
    generalize svc.readActivity jti' tick r.now = check at hread ⊢
    cases check with
    | revoked =>
      refine .aside ?_ rfl (by simp)
      cases asker <;> exact nofun
    | idle =>
      obtain ⟨activity, hactivity, hnow⟩ := hread
      refine .idled hactivity hnow ?_
      cases asker <;> exact nofun
    | live needsUpdate nowTs =>
      obtain ⟨rfl, activity, hactivity, hnow⟩ := hread
      have hpassed : ∀ e ∈ asker.passed jti', ∃ token, e = .verified token jti' := by
        cases asker <;> simp [Asker.passed]
      cases needsUpdate with
      | true =>
        refine .passed hactivity hnow (fun nowTs asker' h => ?_) (fun sub h => ?_) hpassed
        · cases h
          rfl
        · cases h
      | false =>
        refine .passed hactivity hnow (fun nowTs asker' h => ?_) (fun sub h => ?_) hpassed
        · cases asker <;> cases h
        · cases asker <;> cases h
  · -- the check is about another session
    have hpassed : ∀ e ∈ asker.passed jti', e.session ≠ some jti := by
      cases asker <;> simp [Asker.passed, Event.session, hjti]
    unfold beginCheck
    split
    · exact .aside (fun h => hjti (Option.some.inj h)) rfl hpassed
    · exact .aside (asker.finish_session true hjti) rfl hpassed
    · exact .aside (asker.finish_session false hjti) rfl (by simp [Event.session, hjti])
    · exact .aside (asker.finish_session false hjti) rfl (by simp)

theorem loginOtp_sessionStep (env : AuthEnv) (requestId code : String) (c : Call) :
    SessionStep jti r svc c (loginOtp env r svc requestId code) := by
  by_cases hmint : jti = r.ulid ∨ jti = "admin"
  · unfold loginOtp
    generalize svc.otpSection env r requestId code = result
    refine .minted hmint ?_
    split <;> rfl
  · obtain ⟨jti', hjti', hminted⟩ := otpSection_mint env r svc requestId code
    have hne : jti ≠ jti' := fun heq => hmint (heq ▸ hjti'.imp_right And.left)
    have hactivity := hminted.of_ne hne
    unfold loginOtp
    generalize svc.otpSection env r requestId code = result at hactivity ⊢
    refine .aside ?_ hactivity fun e he => ?_
    · split <;> exact nofun
    · generalize result.2 = outcome at he
      cases outcome with
      | accepted response => simp_all [otpEvents, Event.session]
      | wrong attempts status => simp_all [otpEvents, Event.session]
      | _ => simp [otpEvents] at he

theorem next_sessionStep (env : AuthEnv) (c : Call) :
    SessionStep jti r svc c (c.next env r svc) := by
  have hcases := Call.next_cases env r svc c
  generalize c.next env r svc = out at hcases ⊢
  cases hcases with
  | @plain _ c' limiter _ hc' =>
    refine .of_unrelated ?_ rfl (by simp)
    cases c' <;> first | rfl | cases hc'
  | insertOtp email => exact .of_unrelated rfl rfl (by simp)
  | createNonce => exact .of_unrelated rfl rfl (by simp)
  | loginOtp requestId code => exact loginOtp_sessionStep env requestId code _
  | readNonce idToken h => exact .of_unrelated rfl rfl (by simp)
  | @logout _ _ jti' h =>
    by_cases hjti : jti' = jti
    · subst hjti
      exact .loggedOut (update_self ..)
    · exact .aside nofun (update_of_ne (Ne.symm hjti) _ _) (by simp [Event.session, hjti])
  | check tick h => exact beginCheck_sessionStep _ _ _ _
  | otpRemove requestId outcome =>
    refine .of_unrelated rfl rfl ?_
    cases outcome <;> simp [Event.session]
  | idToken handle idToken nonce subject => exact .of_unrelated rfl rfl (by simp [Event.session])
  | idTokenRefused handle idToken nonce status => exact .of_unrelated rfl rfl (by simp)
  | googleRemove handle subject => exact .of_unrelated rfl rfl (by simp)
  | googleMint handle subject hmint _ _ hevents =>
    by_cases hne : jti = r.ulid
    · exact .minted (Or.inl hne) rfl
    · refine .aside nofun (hmint.of_ne hne) ?_
      rcases hevents with rfl | rfl <;> simp [Event.session]
  | touch jti' nowTs asker =>
    by_cases hjti : jti' = jti
    · subst hjti
      exact .touched
    · exact .aside (asker.finish_session true hjti)
        (AuthServiceImpl.touch_of_ne svc nowTs (Ne.symm hjti)) (by simp)
  | refreshRemove jti' sub =>
    by_cases hjti : jti' = jti
    · subst hjti
      exact .removed (update_self ..)
    · exact .aside (fun h => hjti (Option.some.inj h))
        (update_of_ne (Ne.symm hjti) _ _) (by simp)
  | refreshMint jti' sub hminted _ _ hevents =>
    by_cases hmint : jti = r.ulid ∨ jti = "admin"
    · exact .minted hmint rfl
    · obtain ⟨hne, hadmin⟩ := not_or.mp hmint
      -- neither identifier the new token can have is that of the session
      have hnew : jti ≠ if jti' = "admin" then "admin" else r.ulid := by
        split
        · exact hadmin
        · exact hne
      have hactivity := hminted.of_ne hnew
      by_cases hjti : jti' = jti
      · subst hjti
        exact .exchanged hactivity hevents
      · refine .aside nofun hactivity fun e he => ?_
        rw [hevents e he]
        exact fun h => hjti (Option.some.inj h)
  | done reply => exact .of_unrelated rfl rfl (by simp)

end

end Aetheris.Auth
