import Aetheris.Server.Auth.Sections

/-!
# What a section means for one record

A login looks a record up in one section and removes it in a later one. `RecordStep` says once what
any section of any call can mean for a fixed record: which calls are about it before and after, what
becomes of the entry, and which events are reported. The results about whole runs only use that.
-/

namespace Aetheris.Auth

open Function

/-! ## Calls and events of a record -/

/-- The record that a login in progress is about. -/
def Call.record : Call → Option String
  | .otpRemove id _ => some id
  | .googleVerify id _ _ => some id
  | .googleRemove id _ => some id
  | .googleMint id _ => some id
  | _ => none

def Event.record : Event → Option String
  | .compared id _ => some id
  | .accepted id => some id
  | .loggedIn id => some id
  | _ => none

/-- What one section can mean for the record `id`, with the call before and after it. -/
inductive RecordStep (id : String) (r : Reading) (svc : AuthServiceImpl) :
    Call → AuthServiceImpl × Call × List Event → Prop where
  /-- The section is about something else. -/
  | aside {c c' : Call} {svc' : AuthServiceImpl} {events : List Event}
      (hc : c.record ≠ some id) (hc' : c'.record ≠ some id)
      (hstore : svc'.otpStore id = svc.otpStore id)
      (hevents : ∀ e ∈ events, e.record ≠ some id) : RecordStep id r svc c (svc', c', events)
  | inserted {c : Call} {reply : Reply} {svc' : AuthServiceImpl} {record : OtpRecord}
      (hc : c.record = none) (hid : id = r.ulid) (hstore : svc'.otpStore id = some record)
      (hattempts : record.attempts = 0) : RecordStep id r svc c (svc', .done reply, [])
  | accepted {c : Call} {svc' : AuthServiceImpl} {record : OtpRecord} {response : LoginResponse}
      (hc : c.record = none) (hrecord : svc.otpStore id = some record)
      (hstore : svc'.otpStore id = svc.otpStore id) :
      RecordStep id r svc c (svc', .otpRemove id (.accepted response), [.accepted id])
  | expired {c : Call} {svc' : AuthServiceImpl} {record : OtpRecord}
      (hc : c.record = none) (hrecord : svc.otpStore id = some record)
      (hstore : svc'.otpStore id = svc.otpStore id) :
      RecordStep id r svc c (svc', .otpRemove id .expired, [])
  | wrong {c c' : Call} {svc' : AuthServiceImpl} {record : OtpRecord} (status : Status)
      (hc : c.record = none) (hrecord : svc.otpStore id = some record)
      (hstore : svc'.otpStore id = some { record with attempts := record.attempts + 1 })
      (hc' : c' = if record.attempts + 1 ≥ 3 then
          .otpRemove id (.wrong (record.attempts + 1) status) else .done (.status status)) :
      RecordStep id r svc c (svc', c', [.compared id (record.attempts + 1)])
  | removed {svc' : AuthServiceImpl} {outcome : AuthServiceImpl.OtpOutcome}
      {events : List Event} (hstore : svc'.otpStore id = none)
      (hevents : events = match outcome with
        | .accepted _ => [.loggedIn id]
        | _ => []) :
      RecordStep id r svc (.otpRemove id outcome) (svc', .done (otpReply outcome), events)
  | nonceRead {c : Call} {svc' : AuthServiceImpl} {record : OtpRecord} {idToken nonce : String}
      (hc : c.record = none) (hrecord : svc.otpStore id = some record)
      (hstore : svc'.otpStore id = svc.otpStore id) :
      RecordStep id r svc c (svc', .googleVerify id idToken nonce, [])
  | idTokenAccepted {svc' : AuthServiceImpl} {idToken nonce subject : String}
      (hstore : svc'.otpStore id = svc.otpStore id) :
      RecordStep id r svc (.googleVerify id idToken nonce)
        (svc', .googleRemove id subject, [.accepted id])
  | idTokenRefused {svc' : AuthServiceImpl} {idToken nonce : String} {reply : Reply}
      (hstore : svc'.otpStore id = svc.otpStore id) :
      RecordStep id r svc (.googleVerify id idToken nonce) (svc', .done reply, [])
  | nonceRemoved {svc' : AuthServiceImpl} {subject : String} (hstore : svc'.otpStore id = none) :
      RecordStep id r svc (.googleRemove id subject) (svc', .googleMint id subject, [])
  | minted {svc' : AuthServiceImpl} {subject : String} {reply : Reply} {events : List Event}
      (hstore : svc'.otpStore id = svc.otpStore id)
      (hevents : events = [.loggedIn id] ∨ events = []) :
      RecordStep id r svc (.googleMint id subject) (svc', .done reply, events)

/-! ## What the sections leave alone -/

namespace AuthServiceImpl

variable (env : AuthEnv) (r : Reading) (svc : AuthServiceImpl)

theorem touch_otpStore (jti : String) (nowTs : Int) :
    (svc.touch jti nowTs).otpStore = svc.otpStore := by
  unfold touch
  split <;> rfl

/-- How the section of an OTP login can end. -/
inductive OtpCase (id : String) : AuthServiceImpl × OtpOutcome → Prop where
  | unknown (h : svc.otpStore id = none) : OtpCase id (svc, .unknown)
  | accepted {record : OtpRecord} {svc' : AuthServiceImpl} {response : LoginResponse}
      (h : svc.otpStore id = some record) (hstore : svc'.otpStore = svc.otpStore) :
      OtpCase id (svc', .accepted response)
  | failed {record : OtpRecord} {svc' : AuthServiceImpl} {status : Status}
      (h : svc.otpStore id = some record) (hstore : svc'.otpStore = svc.otpStore) :
      OtpCase id (svc', .failed status)
  | expired {record : OtpRecord} (h : svc.otpStore id = some record) : OtpCase id (svc, .expired)
  | wrong {record : OtpRecord} (message : String) (h : svc.otpStore id = some record) :
      OtpCase id (svc.countAttempt id record message)

theorem grantOtp_cases {id : String} {record : OtpRecord} (h : svc.otpStore id = some record)
    (jti : Option String) : svc.OtpCase id (svc.grantOtp env r record jti) := by
  have hstore := grant_otpStore env r svc (derivePlayerId env "email" record.email) jti .emailOtp
  unfold grantOtp
  split
  · next heq =>
    rw [heq] at hstore
    exact .accepted h hstore
  · next heq =>
    rw [heq] at hstore
    exact .failed h hstore

theorem otpSection_cases (id code : String) :
    svc.OtpCase id (svc.otpSection env r id code) := by
  unfold otpSection
  split
  · next h => exact .unknown h
  · next record h =>
    split
    · exact grantOtp_cases env r svc h _
    · split
      · exact .wrong _ h
      · unfold checkCode
        split
        · exact .expired h
        · split
          · exact grantOtp_cases env r svc h _
          · exact .wrong _ h

end AuthServiceImpl

/-! ## One section -/

section

variable {id : String} {r : Reading} {svc : AuthServiceImpl}

/-- A section that neither comes from nor leads to a login in progress. -/
theorem RecordStep.of_unrelated {c c' : Call} {svc' : AuthServiceImpl} {events : List Event}
    (hc : c.record = none) (hc' : c'.record = none) (hstore : svc'.otpStore = svc.otpStore)
    (hevents : ∀ e ∈ events, e.record = none) : RecordStep id r svc c (svc', c', events) := by
  refine .aside ?_ ?_ (by rw [hstore]) fun e he => ?_
  · rw [hc]; exact nofun
  · rw [hc']; exact nofun
  · rw [hevents e he]; exact nofun

theorem Asker.finish_record (jti : String) (asker : Asker) (ok : Bool) :
    (asker.finish jti ok).record = none := by
  cases asker <;> cases ok <;> rfl

theorem beginCheck_unrelated (r : Reading) (svc : AuthServiceImpl) (jti : String)
    (tick : Option UInt64) (asker : Asker) :
    (beginCheck r svc jti tick asker).1.record = none ∧
      ∀ e ∈ (beginCheck r svc jti tick asker).2, e.record = none := by
  have hpassed : ∀ e ∈ asker.passed jti, e.record = none := by
    cases asker <;> simp [Asker.passed, Event.record]
  unfold beginCheck
  split
  · exact ⟨rfl, hpassed⟩
  · exact ⟨asker.finish_record jti true, hpassed⟩
  · exact ⟨asker.finish_record jti false, by simp [Event.record]⟩
  · exact ⟨asker.finish_record jti false, by simp⟩

theorem loginOtp_recordStep (env : AuthEnv) (requestId code : String) :
    RecordStep id r svc (.start (.login (.otp requestId code)))
      (loginOtp env r svc requestId code) := by
  have hcases := AuthServiceImpl.otpSection_cases env r svc requestId code
  unfold loginOtp
  generalize svc.otpSection env r requestId code = result at hcases ⊢
  by_cases hid : requestId = id
  · subst hid
    cases hcases with
    | unknown h => exact .of_unrelated rfl rfl rfl (by simp [otpEvents])
    | accepted h hstore => exact .accepted rfl h (by rw [hstore])
    | failed h hstore => exact .of_unrelated rfl rfl hstore (by simp [otpEvents])
    | expired h => exact .expired rfl h rfl
    | wrong message h =>
      refine .wrong (.unauthenticated message) rfl h (update_self ..) ?_
      simp [otpRemoves, otpReply]
  · -- the code is checked against another record
    have hne : ¬ some requestId = some id := fun h => hid (Option.some.inj h)
    refine .aside nofun ?_ ?_ ?_
    · split
      · exact hne
      · exact nofun
    · cases hcases with
      | unknown h => rfl
      | accepted h hstore => exact congrFun hstore id
      | failed h hstore => exact congrFun hstore id
      | expired h => rfl
      | wrong message h => exact update_of_ne (Ne.symm hid) _ _
    · generalize result.2 = outcome
      cases outcome <;> simp [otpEvents, Event.record, hid]

theorem next_recordStep (env : AuthEnv) (c : Call) :
    RecordStep id r svc c (c.next env r svc) := by
  have hcases := Call.next_cases env r svc c
  generalize c.next env r svc = out at hcases ⊢
  have hne : ∀ {handle : String}, handle ≠ id → ¬ some handle = some id :=
    fun hid h => hid (Option.some.inj h)
  cases hcases with
  | @plain _ c' limiter hc hc' =>
    refine .of_unrelated ?_ ?_ rfl (by simp)
    · rcases hc with ⟨request, rfl⟩ | ⟨email, rfl⟩ <;> rfl
    · cases c' <;> first | rfl | cases hc'
  | insertOtp email =>
    by_cases hid : id = r.ulid
    · subst hid
      exact .inserted rfl rfl (update_self ..) rfl
    · exact .aside nofun nofun (update_of_ne hid _ _) (by simp)
  | createNonce =>
    by_cases hid : id = r.ulid
    · subst hid
      exact .inserted rfl rfl (update_self ..) rfl
    · exact .aside nofun nofun (update_of_ne hid _ _) (by simp)
  | loginOtp requestId code => exact loginOtp_recordStep env requestId code
  | @readNonce handle _ idToken hnonce =>
    obtain ⟨record, hrecord, -⟩ := Option.bind_eq_some_iff.mp hnonce
    by_cases hid : handle = id
    · subst hid
      exact .nonceRead rfl hrecord rfl
    · exact .aside nofun (hne hid) rfl (by simp)
  | logout h => exact .of_unrelated rfl rfl rfl (by simp [Event.record])
  | check tick h =>
    obtain ⟨hcall, hevents⟩ := beginCheck_unrelated r svc _ tick _
    exact .of_unrelated rfl hcall rfl hevents
  | otpRemove requestId outcome =>
    by_cases hid : requestId = id
    · subst hid
      exact .removed (update_self ..) rfl
    · refine .aside (hne hid) nofun (update_of_ne (Ne.symm hid) _ _) ?_
      cases outcome <;> simp [Event.record, hid]
  | idToken handle idToken nonce subject =>
    by_cases hid : handle = id
    · subst hid
      exact .idTokenAccepted rfl
    · exact .aside (hne hid) (hne hid) rfl (by simp [Event.record, hid])
  | idTokenRefused handle idToken nonce status =>
    by_cases hid : handle = id
    · subst hid
      exact .idTokenRefused rfl
    · exact .aside (hne hid) nofun rfl (by simp)
  | googleRemove handle subject =>
    by_cases hid : handle = id
    · subst hid
      exact .nonceRemoved (update_self ..)
    · exact .aside (hne hid) (hne hid) (update_of_ne (Ne.symm hid) _ _) (by simp)
  | googleMint handle subject _ hstore _ hevents =>
    by_cases hid : handle = id
    · subst hid
      exact .minted (congrFun hstore _) hevents
    · refine .aside (hne hid) nofun (congrFun hstore _) ?_
      rcases hevents with rfl | rfl <;> simp [Event.record, hid]
  | touch jti nowTs asker =>
    exact .of_unrelated rfl (asker.finish_record jti true)
      (AuthServiceImpl.touch_otpStore svc jti nowTs) (by simp)
  | refreshRemove jti sub => exact .of_unrelated rfl rfl rfl (by simp)
  | refreshMint jti sub _ hstore _ hevents =>
    refine .of_unrelated rfl rfl hstore fun e he => ?_
    rw [hevents e he]
    rfl
  | done reply => exact .of_unrelated rfl rfl rfl (by simp)

end

/-! ## Identifiers -/

/-- Records and logins in progress bear identifiers that were drawn before. -/
structure Known (id : String) (st : State) : Prop where
  store : st.svc.otpStore id ≠ none → id ∈ st.drawn
  call : ∀ i c, st.calls i = some c → c.record = some id → id ∈ st.drawn

theorem known_new (id : String) (bypassEnabled : Bool) (clock : DateTime) :
    Known id (.new bypassEnabled clock) :=
  ⟨fun hne => absurd rfl hne, nofun⟩

section

variable {id : String} {events : List Event} {st : State} {i : Nat} {c c' : Call}
  {r : Reading} {svc' : AuthServiceImpl}

theorem Known.advance (hk : Known id st) (hi : st.calls i = some c)
    (hs : RecordStep id r st.svc c (svc', c', events)) :
    Known id ⟨svc', update st.calls i (some c'), r.now, r.ulid :: st.drawn⟩ := by
  have hcall : c.record = some id → id ∈ st.drawn := hk.call i c hi
  -- it is enough to know the identifier whenever the section leaves it behind
  have hlater : (svc'.otpStore id ≠ none ∨ c'.record = some id → id ∈ r.ulid :: st.drawn) →
      Known id ⟨svc', update st.calls i (some c'), r.now, r.ulid :: st.drawn⟩ := by
    intro h
    refine ⟨fun hne => h (Or.inl hne), fun j d hj hd => ?_⟩
    rcases of_update_some hj with ⟨-, rfl⟩ | ⟨-, hold⟩
    · exact h (Or.inr hd)
    · exact List.mem_cons_of_mem _ (hk.call j d hold hd)
  refine hlater fun h => ?_
  cases hs with
  | aside hc hc' hstore hevents =>
    rcases h with h | h
    · exact List.mem_cons_of_mem _ (hk.store (hstore ▸ h))
    · exact absurd h hc'
  | inserted hc hid hstore hattempts => exact hid ▸ List.mem_cons_self
  | accepted hc hrecord hstore =>
    exact List.mem_cons_of_mem _ (hk.store (by rw [hrecord]; exact nofun))
  | expired hc hrecord hstore =>
    exact List.mem_cons_of_mem _ (hk.store (by rw [hrecord]; exact nofun))
  | wrong status hc hrecord hstore hc' =>
    exact List.mem_cons_of_mem _ (hk.store (by rw [hrecord]; exact nofun))
  | nonceRead hc hrecord hstore =>
    exact List.mem_cons_of_mem _ (hk.store (by rw [hrecord]; exact nofun))
  | _ => exact List.mem_cons_of_mem _ (hcall rfl)

theorem Known.arrive (hk : Known id st) (request : AuthRequest) :
    Known id { st with calls := update st.calls i (some (.start request)) } := by
  refine ⟨hk.store, fun j d hj hd => ?_⟩
  rcases of_update_some hj with ⟨-, rfl⟩ | ⟨-, hold⟩
  · cases hd
  · exact hk.call j d hold hd

end

end Aetheris.Auth
