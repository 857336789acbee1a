import Aetheris.Server.Auth.Records
import Aetheris.Lib.Script

/-!
# Expired records and records of the other kind

`otp_store` holds codes sent by mail and nonces handed out for Google logins, each with a time at
which it expires. Three ways of logging in look records up: with the code, with a bypass code, and
with a Google id token. Only the first reads `expires_at`. `Timely` is the condition under which
that makes no difference; the two kinds of record are kept apart without any.
-/

namespace Aetheris.Auth

open Function

/-! ## Calls that are refused -/

/-- The call is over or about to be, and does not answer with a `LoginResponse`. -/
def Call.refused : Call → Prop
  | .otpRemove _ outcome => ∀ response, outcome ≠ .accepted response
  | .done reply => ∀ response, reply ≠ .login response
  | _ => False

/-- The call `i` is refused. -/
def Refused (i : Nat) (st : State) : Prop := ∃ c, st.calls i = some c ∧ c.refused

theorem refused_otpReply {outcome : AuthServiceImpl.OtpOutcome}
    (h : ∀ response, outcome ≠ .accepted response) : (Call.done (otpReply outcome)).refused := by
  intro response
  cases outcome with
  | accepted response => exact absurd rfl (h response)
  | _ => exact nofun

variable {c : Call} {env : AuthEnv} {events : List Event} {i : Nat} {st st' : State}

theorem Call.refused_next (env : AuthEnv) (r : Reading) (svc : AuthServiceImpl)
    (h : c.refused) : (c.next env r svc).2.1.refused := by
  cases c with
  | otpRemove id outcome => exact refused_otpReply h
  | done reply => exact h
  | _ => exact h.elim

theorem Refused.step (h : Refused i st) (hstep : Step env st events st') : Refused i st' := by
  obtain ⟨c, hc, hrefused⟩ := h
  cases hstep.cases with
  | idle => exact ⟨c, hc, hrefused⟩
  | @arrive k request hk =>
    -- an arrival takes a number that is free
    have hne : i ≠ k := by
      rintro rfl
      rw [hk] at hc
      cases hc
    exact ⟨c, (update_of_ne hne _ _).trans hc, hrefused⟩
  | @advance k d d' r svc' events hk _ _ _ hnext =>
    by_cases hik : i = k
    · subst hik
      obtain rfl : c = d := Option.some.inj (hc.symm.trans hk)
      have hlater := c.refused_next env r st.svc hrefused
      rw [hnext] at hlater
      exact ⟨d', update_self .., hlater⟩
    · exact ⟨c, (update_of_ne hik _ _).trans hc, hrefused⟩

theorem Refused.run {trace : List Event}
    (h : Refused i st) (hrun : Run (Step env) st trace st') : Refused i st' :=
  hrun.invariant h fun _ _ _ => Refused.step

theorem Refused.no_response (h : Refused i st) (response : LoginResponse) :
    st.calls i ≠ some (.done (.login response)) := by
  obtain ⟨c, hc, hrefused⟩ := h
  intro heq
  obtain rfl := Option.some.inj (hc.symm.trans heq)
  exact hrefused response rfl

/-! ## The lookup of a login -/

/-- The record a login asks for. -/
def LoginRequest.record : LoginRequest → Option String
  | .otp requestId _ => some requestId
  | .google nonceHandle _ => some nonceHandle
  | .missing => none

/-- The call `i` is a login that is about to look up `record` under `id`. -/
structure LooksUp (st : State) (i : Nat) (request : LoginRequest) (id : String)
    (record : OtpRecord) : Prop where
  call : st.calls i = some (.start (.login request))
  asks : request.record = some id
  found : st.svc.otpStore id = some record

theorem refused_fire {r : Reading}
    (hi : st.calls i = some c) (h : (c.next env r st.svc).2.1.refused) :
    Refused i (fire env st (.advance i r)).1 := by
  refine ⟨(c.next env r st.svc).2.1, ?_, h⟩
  unfold fire
  simp only [hi]
  exact update_self ..

section

variable {env : AuthEnv} {r : Reading} {svc : AuthServiceImpl} {id : String}

/-- A login with a code whose section does not accept it is refused. -/
theorem refused_loginOtp {code : String}
    (h : ∀ response, (svc.otpSection env r id code).2 ≠ .accepted response) :
    (loginOtp env r svc id code).2.1.refused := by
  unfold loginOtp
  dsimp only
  split
  · exact h
  · exact refused_otpReply h

theorem refused_loginGoogle {idToken : String}
    (h : env.googleClient = none ∨ svc.readNonce id = none) :
    (loginGoogle env svc id idToken).refused := by
  unfold loginGoogle
  split
  · exact nofun
  · next hclient =>
    have hnonce : svc.readNonce id = none := h.resolve_left (by rw [hclient]; exact nofun)
    rw [hnonce]
    exact nofun

end

/-! ## Expired records -/

/-- The two lookups that do not read `expires_at`, with the bypass code and by a Google login, find
their record before it expires. -/
def Timely (env : AuthEnv) (svc : AuthServiceImpl) (now : DateTime) : LoginRequest → Prop
  | .otp requestId code => code = "000001" → ∀ record ∈ svc.otpStore requestId,
      svc.bypasses record → now ≤ record.expiresAt
  | .google nonceHandle _ => env.googleClient.isSome → ∀ record ∈ svc.otpStore nonceHandle,
      record.googleNonce.isSome → now ≤ record.expiresAt
  | .missing => True

/-- The login whose record the next section of a call looks up. -/
def Call.lookup : Call → Option LoginRequest
  | .start (.login request) => some request
  | _ => none

def TimelyAction (env : AuthEnv) (st : State) : Action → Prop
  | .arrive _ _ => True
  | .advance i r => ∀ request ∈ (st.calls i).bind Call.lookup, Timely env st.svc r.now request

def TimelyStep (env : AuthEnv) : State → List Event → State → Prop :=
  Fires (fun st a => Admissible st a ∧ TimelyAction env st a) (fire env)

instance decidableTimely (env : AuthEnv) (svc : AuthServiceImpl) (now : DateTime) :
    ∀ request : LoginRequest, Decidable (Timely env svc now request)
  | .otp requestId code => inferInstanceAs (Decidable (code = "000001" →
      ∀ record ∈ svc.otpStore requestId, svc.bypasses record → now ≤ record.expiresAt))
  | .google nonceHandle _ => inferInstanceAs (Decidable (env.googleClient.isSome →
      ∀ record ∈ svc.otpStore nonceHandle, record.googleNonce.isSome → now ≤ record.expiresAt))
  | .missing => .isTrue trivial

instance decidableTimelyAction (env : AuthEnv) (st : State) :
    ∀ a : Action, Decidable (TimelyAction env st a)
  | .arrive _ _ => .isTrue trivial
  | .advance i r => inferInstanceAs (Decidable (∀ request ∈ (st.calls i).bind Call.lookup,
      Timely env st.svc r.now request))

theorem TimelyStep.step (h : TimelyStep env st events st') : Step env st events st' := by
  obtain ⟨a, hadm, hfire⟩ := h
  exact ⟨a, hadm.1, hfire⟩

section

variable {env : AuthEnv} {r : Reading} {svc : AuthServiceImpl} {id : String} {record : OtpRecord}

theorem otpSection_expired {code : String} (hrecord : svc.otpStore id = some record)
    (hexpired : record.expiresAt < r.now) (htimely : Timely env svc r.now (.otp id code))
    (response : LoginResponse) : (svc.otpSection env r id code).2 ≠ .accepted response := by
  unfold AuthServiceImpl.otpSection
  rw [hrecord]
  dsimp only
  split
  · -- the bypass code would get in, whatever the time
    next hbypass =>
    obtain ⟨happlies, hcode⟩ := (Bool.and_eq_true_iff.mp hbypass)
    have hearly := htimely (of_decide_eq_true hcode) record hrecord happlies
    exact absurd hexpired (Int.not_lt.mpr hearly)
  · split
    · exact nofun
    · unfold AuthServiceImpl.checkCode
      rw [if_pos hexpired]
      exact nofun

theorem expired_login_refused {request : LoginRequest} (hid : request.record = some id)
    (hrecord : svc.otpStore id = some record) (hexpired : record.expiresAt < r.now)
    (htimely : Timely env svc r.now request) :
    (begin env r svc (.login request)).2.1.refused := by
  cases request with
  | otp requestId code =>
    obtain rfl := Option.some.inj hid
    exact refused_loginOtp (otpSection_expired hrecord hexpired htimely)
  | google nonceHandle idToken =>
    obtain rfl := Option.some.inj hid
    refine refused_loginGoogle ?_
    by_cases hclient : env.googleClient = none
    · exact Or.inl hclient
    · -- a record with a nonce would have been found in time
      right
      show (svc.otpStore nonceHandle).bind (·.googleNonce) = none
      rw [hrecord]
      by_contra hnonce
      have hearly := htimely (Option.isSome_iff_ne_none.mpr hclient) record hrecord
        (Option.isSome_iff_ne_none.mpr hnonce)
      exact absurd hexpired (Int.not_lt.mpr hearly)
  | missing => cases hid

end

/-! ## The two kinds of record -/

inductive RecordKind where
  | code
  | nonce
deriving DecidableEq, Repr

/-- The kind of record a login is for. -/
def LoginRequest.kind : LoginRequest → Option RecordKind
  | .otp _ _ => some .code
  | .google _ _ => some .nonce
  | .missing => none

/-- The kind of record that the next section of a call creates. -/
def Call.creates : Call → Option RecordKind
  | .insertOtp _ => some .code
  | .start .createGoogleLoginNonce => some .nonce
  | _ => none

/-- What a record of a kind lacks for the other login. -/
def OtpRecord.Suits : RecordKind → OtpRecord → Prop
  | .code, record => record.googleNonce = none
  | .nonce, record => record.email = "" ∧ record.codeHash = []

/-- Whatever the store has under `id` is of the kind, and nothing else will be put there. -/
structure Sorted (kind : RecordKind) (id : String) (st : State) : Prop where
  drawn : id ∈ st.drawn
  suits : ∀ record, st.svc.otpStore id = some record → record.Suits kind

/-- The digest of `Blake2b<U32>` has 32 bytes. -/
def AuthEnv.Digests (env : AuthEnv) : Prop := ∀ code id, (env.blake2b code id).length = 32

section

variable {env : AuthEnv} {id : String}

variable {c : Call} {events : List Event} {kind : RecordKind} {r : Reading} {st st' : State}
  {svc : AuthServiceImpl}

/-- What a section does to a record whose identifier it does not draw. -/
theorem RecordStep.store {svc' : AuthServiceImpl} {c' : Call}
    (h : RecordStep id r svc c (svc', c', events)) (hid : id ≠ r.ulid) :
    svc'.otpStore id = svc.otpStore id ∨ svc'.otpStore id = none ∨
      ∃ record, svc.otpStore id = some record ∧
        svc'.otpStore id = some { record with attempts := record.attempts + 1 } := by
  cases h with
  | aside hc hc' hstore hevents => exact Or.inl hstore
  | inserted hc hulid hstore hattempts => exact absurd hulid hid
  | accepted hc hrecord hstore => exact Or.inl hstore
  | expired hc hrecord hstore => exact Or.inl hstore
  | wrong status hc hrecord hstore hc' => exact Or.inr (Or.inr ⟨_, hrecord, hstore⟩)
  | removed hstore hevents => exact Or.inr (Or.inl hstore)
  | nonceRead hc hrecord hstore => exact Or.inl hstore
  | idTokenAccepted hstore => exact Or.inl hstore
  | idTokenRefused hstore => exact Or.inl hstore
  | nonceRemoved hstore => exact Or.inr (Or.inl hstore)
  | minted hstore hevents => exact Or.inl hstore

theorem OtpRecord.Suits.attempt {record : OtpRecord} (h : record.Suits kind)
    (attempts : UInt8) : OtpRecord.Suits kind { record with attempts := attempts } := by
  cases kind <;> exact h

theorem Sorted.step
    (h : Sorted kind id st) (hstep : Step env st events st') : Sorted kind id st' := by
  cases hstep.cases with
  | idle => exact h
  | arrive request hk => exact ⟨h.drawn, h.suits⟩
  | @advance k c c' r svc' events hk _ hulid _ hnext =>
    have hne : id ≠ r.ulid := fun heq => hulid (heq ▸ h.drawn)
    have hsection : RecordStep id r st.svc c (svc', c', events) := hnext ▸ next_recordStep env c
    refine ⟨List.mem_cons_of_mem _ h.drawn, fun record hrecord => ?_⟩
    rcases hsection.store hne with hkept | hgone | ⟨old, hold, hnew⟩
    · exact h.suits record (hkept.symm.trans hrecord)
    · cases hgone.symm.trans hrecord
    · obtain rfl := Option.some.inj (hnew.symm.trans hrecord)
      exact (h.suits old hold).attempt _

theorem Sorted.run {trace : List Event}
    (h : Sorted kind id st) (hrun : Run (Step env) st trace st') : Sorted kind id st' :=
  hrun.invariant h fun _ _ _ => Sorted.step

/-- The section that creates a record leaves one of its kind. -/
theorem sorted_of_creates {k : Nat} (hk : st.calls k = some c) (hcreates : c.creates = some kind) :
    Sorted kind r.ulid (fire env st (.advance k r)).1 := by
  have hfire : (fire env st (.advance k r)).1 = ⟨(c.next env r st.svc).1,
      update st.calls k (some (c.next env r st.svc).2.1), r.now, r.ulid :: st.drawn⟩ := by
    unfold fire
    simp only [hk]
  rw [hfire]
  refine ⟨List.mem_cons_self, fun record hrecord => ?_⟩
  have hinserted : (c.next env r st.svc).1.otpStore r.ulid = some record := hrecord
  unfold Call.creates at hcreates
  split at hcreates
  · next email =>
    cases hcreates
    have hnew : (Call.next env r st.svc (.insertOtp email)).1.otpStore r.ulid =
        some ⟨email, env.blake2b (formatCode r.code) r.ulid, none, r.now + .minutes 10, 0⟩ :=
      update_self ..
    obtain rfl := Option.some.inj (hnew.symm.trans hinserted)
    exact rfl
  · cases hcreates
    have hnew : (Call.next env r st.svc (.start .createGoogleLoginNonce)).1.otpStore r.ulid =
        some ⟨"", [], some r.nonce, r.now + .minutes 10, 0⟩ := update_self ..
    obtain rfl := Option.some.inj (hnew.symm.trans hinserted)
    exact ⟨rfl, rfl⟩
  · cases hcreates

/-- A nonce passes no check of a code: it has no address, and no digest is empty. -/
theorem otpSection_nonce {code : String} (hdigests : env.Digests)
    (h : ∀ record, svc.otpStore id = some record → record.Suits .nonce)
    (response : LoginResponse) : (svc.otpSection env r id code).2 ≠ .accepted response := by
  unfold AuthServiceImpl.otpSection
  split
  · exact nofun
  · next record hrecord =>
    obtain ⟨hemail, hhash⟩ := h record hrecord
    have hplain : svc.bypasses record = false := by
      unfold AuthServiceImpl.bypasses
      rw [hemail, show decide ("" = "smoke-test@aetheris.dev") = false from by decide,
        show "".startsWith "bot_" = false from by decide +kernel]
      exact Bool.and_false _
    have hwrong : env.blake2b code id ≠ record.codeHash := by
      intro heq
      have hlength := hdigests code id
      rw [heq, hhash] at hlength
      exact absurd hlength (by decide)
    rw [hplain, Bool.false_and, Bool.false_and, if_neg Bool.false_ne_true,
      if_neg Bool.false_ne_true]
    unfold AuthServiceImpl.checkCode
    rw [if_neg hwrong]
    split
    · exact nofun
    · exact nofun

theorem foreign_login_refused
    {request : LoginRequest} (hdigests : env.Digests) (h : Sorted kind id st)
    (hid : request.record = some id) (hkind : request.kind ≠ some kind) :
    (begin env r st.svc (.login request)).2.1.refused := by
  cases request with
  | otp requestId code =>
    obtain rfl := Option.some.inj hid
    cases kind with
    | code => exact absurd rfl hkind
    | nonce => exact refused_loginOtp (otpSection_nonce hdigests h.suits)
  | google nonceHandle idToken =>
    obtain rfl := Option.some.inj hid
    cases kind with
    | nonce => exact absurd rfl hkind
    | code =>
      refine refused_loginGoogle (Or.inr ?_)
      show (st.svc.otpStore nonceHandle).bind (·.googleNonce) = none
      cases hrecord : st.svc.otpStore nonceHandle with
      | none => rfl
      | some record => exact h.suits record hrecord
  | missing => cases hid

end

/-! ## Whole runs -/

/-- In every run whose lookups are timely, a login that looks its record up after `expires_at` never
returns a `LoginResponse`. In every run at all, neither does a login on a record that was created for
the other kind of login, whatever the code or the token. -/
theorem expired_or_foreign_refused {env : AuthEnv} (hdigests : env.Digests) (bypassEnabled : Bool)
    (clock : DateTime) :
    (∀ trace st, Run (TimelyStep env) (.new bypassEnabled clock) trace st →
      ∀ i r request id record, LooksUp st i request id record → record.expiresAt < r.now →
      Admissible st (.advance i r) → TimelyAction env st (.advance i r) →
      ∀ trace' st', Run (TimelyStep env) (fire env st (.advance i r)).1 trace' st' →
      ∀ response, st'.calls i ≠ some (.done (.login response))) ∧
    ∀ trace st, Run (Step env) (.new bypassEnabled clock) trace st →
      ∀ k c r kind, st.calls k = some c → c.creates = some kind → Admissible st (.advance k r) →
      ∀ trace' st', Run (Step env) (fire env st (.advance k r)).1 trace' st' →
      ∀ i r' request, st'.calls i = some (.start (.login request)) →
      request.record = some r.ulid → request.kind ≠ some kind → Admissible st' (.advance i r') →
      ∀ trace'' st'', Run (Step env) (fire env st' (.advance i r')).1 trace'' st'' →
      ∀ response, st''.calls i ≠ some (.done (.login response)) := by
  constructor
  · intro trace st _ i r request id record hlookup hexpired _ htimely trace' st' hafter
    have hrefused : Refused i (fire env st (.advance i r)).1 :=
      refused_fire hlookup.call (expired_login_refused hlookup.asks hlookup.found hexpired
        (htimely request (Option.bind_eq_some_iff.mpr ⟨_, hlookup.call, rfl⟩)))
    exact (hrefused.run (hafter.mono fun _ _ _ => TimelyStep.step)).no_response
  · intro trace st _ k c r kind hk hcreates _ trace' st' hbetween i r' request hi hid hkind _
      trace'' st'' hafter
    have hsorted : Sorted kind r.ulid st' := (sorted_of_creates hk hcreates).run hbetween
    have hrefused : Refused i (fire env st' (.advance i r')).1 :=
      refused_fire hi (foreign_login_refused hdigests hsorted hid hkind)
    exact (hrefused.run hafter).no_response

/-! ## Late logins -/

/-- The digests of the small service, cut to their length. -/
def digestEnv : AuthEnv :=
  { plainEnv with blake2b := fun code id => (plainEnv.blake2b code id ++ List.replicate 32 0).take 32 }

theorem digestEnv_digests : digestEnv.Digests := by
  intro code id
  show ((plainEnv.blake2b code id ++ List.replicate 32 0).take 32).length = 32
  rw [List.length_take, List.length_append, List.length_replicate]
  exact Nat.min_eq_left (Nat.le_add_left ..)

def Call.response : Call → Option LoginResponse
  | .done (.login response) => some response
  | _ => none

theorem exists_response {call : Option Call} (h : (call.bind Call.response).isSome) :
    ∃ response, call = some (.done (.login response)) := by
  obtain ⟨response, hresponse⟩ := Option.isSome_iff_exists.mp h
  obtain ⟨c, rfl, hc⟩ := Option.bind_eq_some_iff.mp hresponse
  unfold Call.response at hc
  split at hc
  · exact ⟨_, rfl⟩
  · cases hc

/-- In some run the login looks its record up after it has expired, and returns a `LoginResponse`. -/
def LateLogin (env : AuthEnv) (bypassEnabled : Bool) (request : LoginRequest) : Prop :=
  ∃ trace st, Run (Step env) (.new bypassEnabled 0) trace st ∧
    ∃ i r id record, LooksUp st i request id record ∧ record.expiresAt < r.now ∧
      Admissible st (.advance i r) ∧
      ∃ trace' st', Run (Step env) (fire env st (.advance i r)).1 trace' st' ∧
        ∃ response, st'.calls i = some (.done (.login response))

/-- A nonce of second 0, and a Google login with it. -/
def nonceActions : List Action :=
  [.arrive 0 .createGoogleLoginNonce, .advance 0 (plainReading 0),
    .arrive 1 (.login (.google (plainUlid 0) "alice"))]

/-- A code for a bypass address, and a login on it with the bypass code. -/
def bypassActions : List Action :=
  [.arrive 0 (.requestOtp none "bot_1"), .advance 0 (plainReading 0), .advance 0 (plainReading 1),
    .arrive 1 (.login (.otp (plainUlid 1) "000001"))]

/-- A code, and a login with it. -/
def codeActions : List Action :=
  otpRequested ++ [.arrive 1 (.login (.otp (plainUlid 2) "123456"))]

/-- A nonce, and a login with an empty code on it. -/
def foreignActions : List Action :=
  [.arrive 0 .createGoogleLoginNonce, .advance 0 (plainReading 0),
    .arrive 1 (.login (.otp (plainUlid 0) ""))]

/-- The right code after seven hundred seconds, and an empty code on a nonce. -/
theorem expired_or_foreign_refused_late :
    (∀ response, (fireAll digestEnv (.new false 0) (codeActions ++
      [.advance 1 (plainReading 700), .advance 1 (plainReading 701)])).1.calls 1 ≠
        some (.done (.login response))) ∧
    ∀ response, (fireAll digestEnv (.new false 0) (foreignActions ++
      [.advance 1 (plainReading 1)])).1.calls 1 ≠ some (.done (.login response)) := by
  obtain ⟨hexpired, hforeign⟩ := expired_or_foreign_refused digestEnv_digests false 0
  constructor
  · have hbefore : Allows (fun st a => Admissible st a ∧ TimelyAction digestEnv st a)
        (fire digestEnv) (fun _ _ => True) (.new false 0) codeActions := by
      decide +kernel
    have hafter : Allows (fun st a => Admissible st a ∧ TimelyAction digestEnv st a)
        (fire digestEnv) (fun _ _ => True)
        (fire digestEnv (fires (fire digestEnv) (.new false 0) codeActions).1
          (.advance 1 (plainReading 700))).1 [.advance 1 (plainReading 701)] := by
      decide +kernel
    exact hexpired _ _ ((run_fires hbefore).mono fun _ _ _ h => h.1) 1 (plainReading 700)
      (.otp (plainUlid 2) "123456") (plainUlid 2) _ ⟨rfl, rfl, rfl⟩ (by decide)
      (by decide +kernel) (by decide +kernel) _ _ ((run_fires hafter).mono fun _ _ _ h => h.1)
  · have hfirst : Permits digestEnv (fun _ _ => True) (.new false 0)
        [.arrive 0 .createGoogleLoginNonce] := by
      decide +kernel
    have hbetween : Permits digestEnv (fun _ _ => True)
        (fire digestEnv (fireAll digestEnv (.new false 0) [.arrive 0 .createGoogleLoginNonce]).1
          (.advance 0 (plainReading 0))).1 [.arrive 1 (.login (.otp (plainUlid 0) ""))] := by
      decide +kernel
    exact hforeign _ _ (run_script hfirst) 0 (.start .createGoogleLoginNonce) (plainReading 0)
      .nonce rfl rfl (by decide +kernel) _ _ (run_script hbetween) 1 (plainReading 1)
      (.otp (plainUlid 0) "") rfl rfl (by decide) (by decide +kernel) _ _ .nil

/-- Seven hundred seconds later, a nonce and a bypass code still log in. -/
theorem late_logins_accepted :
    LateLogin digestEnv false (.google (plainUlid 0) "alice") ∧
      LateLogin digestEnv true (.otp (plainUlid 1) "000001") := by
  constructor
  · have hbefore : Permits digestEnv (fun _ _ => True) (.new false 0) nonceActions := by
      decide +kernel
    let st := (fireAll digestEnv (.new false 0) nonceActions).1
    let later : List Action :=
      [.advance 1 (plainReading 701), .advance 1 (plainReading 702), .advance 1 (plainReading 703)]
    have hafter : Permits digestEnv (fun _ _ => True)
        (fire digestEnv st (.advance 1 (plainReading 700))).1 later := by
      decide +kernel
    exact ⟨_, st, run_script hbefore, 1, plainReading 700, plainUlid 0, _, ⟨rfl, rfl, rfl⟩,
      by decide, by decide +kernel, _, _, run_script hafter,
      exists_response (by decide +kernel)⟩
  · have hbefore : Permits digestEnv (fun _ _ => True) (.new true 0) bypassActions := by
      decide +kernel
    let st := (fireAll digestEnv (.new true 0) bypassActions).1
    let later : List Action := [.advance 1 (plainReading 701)]
    have hafter : Permits digestEnv (fun _ _ => True)
        (fire digestEnv st (.advance 1 (plainReading 700))).1 later := by
      decide +kernel
    exact ⟨_, st, run_script hbefore, 1, plainReading 700, plainUlid 1, _, ⟨rfl, rfl, rfl⟩,
      by decide, by decide +kernel, _, _, run_script hafter,
      exists_response (by decide +kernel)⟩

end Aetheris.Auth
