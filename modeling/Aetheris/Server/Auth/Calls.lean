import Aetheris.Server.Auth.Service
import Aetheris.Lib.Lookup
import Aetheris.Lib.Run

/-!
# Interleaved requests

A `Call` is what a request still has to do. `fire` lets one call run its next section on the shared
maps; calls arrive and proceed in any order. `Admissible` is what is assumed of the world outside:
the clock does not go back, and `Ulid::new` draws a new string each time.

Each section reports the `Event`s that statements about whole runs speak of.
-/

namespace Aetheris.Auth

/-! ## Requests -/

inductive LoginRequest where
  | otp (requestId code : String)
  | google (nonceHandle googleIdToken : String)
  /-- The request names no method. -/
  | missing
deriving DecidableEq, Repr

inductive AuthRequest where
  | requestOtp (remoteIp : Option String) (email : String)
  | createGoogleLoginNonce
  | login (request : LoginRequest)
  /-- The `authorization` metadata, if it is readable text, and the token of the body. -/
  | logout (authorization : Option String) (sessionToken : String)
  | refreshToken (sessionToken : String)
  | verifySession (token : String) (tick : Option UInt64)
  | isSessionAuthorized (jti : String) (tick : Option UInt64)
deriving DecidableEq, Repr

inductive Reply where
  | otpAck (ack : OtpRequestAck)
  | nonce (response : GoogleLoginNonceResponse)
  | login (response : LoginResponse)
  | logout (revoked : Bool)
  | refresh (response : RefreshResponse)
  | session (result : Except AuthError VerifiedSession)
  | authorized (ok : Bool)
  | status (status : Status)

/-! ## Calls -/

/-- Who asked for a session check, and with what it goes on. -/
inductive Asker where
  | verify (token : String) (session : VerifiedSession)
  | authorized
  | refresh (sub : String)
deriving DecidableEq, Repr

inductive Call where
  | start (request : AuthRequest)
  /-- `request_otp` after the check of the address. -/
  | emailLimit (email : String)
  | insertOtp (email : String)
  /-- An OTP login that has released the entry and will remove the record. -/
  | otpRemove (requestId : String) (outcome : AuthServiceImpl.OtpOutcome)
  | googleVerify (handle idToken nonce : String)
  /-- A Google login whose id token was accepted. -/
  | googleRemove (handle subject : String)
  | googleMint (handle subject : String)
  /-- A session check between its two halves. -/
  | touch (jti : String) (nowTs : Int) (asker : Asker)
  | refreshRemove (jti sub : String)
  | refreshMint (jti sub : String)
  | done (reply : Reply)

/-- A moment of a run. -/
inductive Event where
  /-- A wrong code is counted for a record, and the counter now is `attempts`. -/
  | compared (record : String) (attempts : UInt8)
  /-- A login on the record passes its check. -/
  | accepted (record : String)
  /-- A login on the record returns a `LoginResponse`. -/
  | loggedIn (record : String)
  | loggedOut (jti : String)
  /-- `refresh_token` of a token with this identifier returns a new token. -/
  | exchanged (jti : String)
  /-- A check at `nowTs` finds the session idle for too long. -/
  | idled (jti : String) (nowTs : Int)
  /-- The check of `verify_session(token)` passes. -/
  | verified (token jti : String)
deriving DecidableEq, Repr

/-! ## Session checks -/

/-- How a session check ends. -/
def Asker.finish (jti : String) : Asker → Bool → Call
  | .verify _ session, true => .done (.session (.ok session))
  | .verify _ _, false => .done (.session (.error .sessionExpired))
  | .authorized, ok => .done (.authorized ok)
  | .refresh sub, true => .refreshRemove jti sub
  | .refresh _, false => .done (.status (.unauthenticated "Session revoked or expired"))

def Asker.passed (jti : String) : Asker → List Event
  | .verify token _ => [.verified token jti]
  | _ => []

/-- The first half of a session check. -/
def beginCheck (r : Reading) (svc : AuthServiceImpl) (jti : String) (tick : Option UInt64)
    (asker : Asker) : Call × List Event :=
  match svc.readActivity jti tick r.now with
  | .live true nowTs => (.touch jti nowTs asker, asker.passed jti)
  | .live false _ => (asker.finish jti true, asker.passed jti)
  | .idle => (asker.finish jti false, [.idled jti r.now.timestamp])
  | .revoked => (asker.finish jti false, [])

/-! ## Sections -/

section

variable (env : AuthEnv) (r : Reading) (svc : AuthServiceImpl)

/-- What an OTP login answers once its record is removed. -/
def otpReply : AuthServiceImpl.OtpOutcome → Reply
  | .unknown => .status (.unauthenticated "Invalid credentials")
  | .accepted response => .login response
  | .failed status => .status status
  | .expired => .status (.deadlineExceeded "OTP expired")
  | .wrong _ status => .status status

/-- Whether an OTP login removes the record after it has released the entry. -/
def otpRemoves : AuthServiceImpl.OtpOutcome → Bool
  | .accepted _ => true
  | .expired => true
  | .wrong attempts _ => attempts ≥ 3
  | _ => false

def otpEvents (requestId : String) : AuthServiceImpl.OtpOutcome → List Event
  | .accepted _ => [.accepted requestId]
  | .wrong attempts _ => [.compared requestId attempts]
  | _ => []

def loginOtp (requestId code : String) : AuthServiceImpl × Call × List Event :=
  let (svc, outcome) := svc.otpSection env r requestId code
  (svc, if otpRemoves outcome then .otpRemove requestId outcome else .done (otpReply outcome),
    otpEvents requestId outcome)

def loginGoogle (handle idToken : String) : Call :=
  match env.googleClient with
  | none => .done (.status (.internal "Google OIDC not configured"))
  | some _ =>
    match svc.readNonce handle with
    | some nonce => .googleVerify handle idToken nonce
    | none => .done (.status (.unauthenticated "Invalid nonce_handle"))

def verifyGoogle (handle idToken nonce : String) : Call × List Event :=
  match env.googleClient with
  | none => (.done (.status (.internal "Google OIDC not configured")), [])
  | some verifyToken =>
    match verifyToken r.now idToken nonce with
    | .ok subject => (.googleRemove handle subject, [.accepted handle])
    | .error status => (.done (.status status), [])

def mintGoogle (handle subject : String) : AuthServiceImpl × Call × List Event :=
  match svc.grant env r (derivePlayerId env "google" subject) none .googleOidc with
  | (svc, .ok response) => (svc, .done (.login response), [.loggedIn handle])
  | (svc, .error status) => (svc, .done (.status status), [])

/-- Removes a repeated pattern at the start, as `trim_start_matches` does. -/
def trimStartMatches (pattern : List Char) : Nat → List Char → List Char
  | 0, cs => cs
  | fuel + 1, cs =>
    if pattern.isPrefixOf cs then trimStartMatches pattern fuel (cs.drop pattern.length) else cs

def trimBearer (s : String) : String :=
  String.ofList (trimStartMatches "Bearer ".toList s.toList.length s.toList)

/-- The token a logout is about: the metadata wins over the body. -/
def logoutToken (authorization : Option String) (sessionToken : String) : Option String :=
  match authorization with
  | some text => some (trimBearer text)
  | none => if sessionToken.isEmpty then none else some sessionToken

def logout (authorization : Option String) (sessionToken : String) :
    AuthServiceImpl × Call × List Event :=
  let claims := (logoutToken authorization sessionToken).bind (env.parse r.now)
  match claims.bind (·.jti) with
  | some jti => (svc.revoke jti, .done (.logout true), [.loggedOut jti])
  | none => (svc, .done (.logout true), [])

def refreshToken (token : String) : Call × List Event :=
  match env.parse r.now token with
  | none => (.done (.status (.unauthenticated "Invalid session token")), [])
  | some ⟨none, _⟩ => (.done (.status (.unauthenticated "Token missing jti")), [])
  | some ⟨some _, none⟩ => (.done (.status (.unauthenticated "Token missing sub")), [])
  | some ⟨some jti, some sub⟩ => beginCheck r svc jti none (.refresh sub)

/-- The new token keeps the identifier of a bypass session. -/
def mintRefresh (jti sub : String) : AuthServiceImpl × Call × List Event :=
  let newJti := if jti = "admin" then some "admin" else none
  match svc.mintSessionToken env r sub newJti with
  | (svc, .ok (token, exp)) => (svc, .done (.refresh ⟨token, exp⟩), [.exchanged jti])
  | (svc, .error status) => (svc, .done (.status status), [])

def verifySession (token : String) (tick : Option UInt64) : Call × List Event :=
  match env.parse r.now token with
  | none => (.done (.session (.error .invalidToken)), [])
  | some ⟨none, _⟩ => (.done (.session (.error .missingJti)), [])
  | some ⟨some _, none⟩ => (.done (.session (.error .missingSub)), [])
  | some ⟨some jti, some sub⟩ => beginCheck r svc jti tick (.verify token ⟨sub, jti⟩)

/-- The first section of `request_otp`: the limit for the address, where it is known. -/
def requestOtp (remoteIp : Option String) (email : String) : AuthServiceImpl × Call :=
  if svc.bypassEnabled then (svc, .insertOtp (normalizeEmail env email))
  else
    match remoteIp with
    | none => (svc, .emailLimit (normalizeEmail env email))
    | some ip =>
      match svc.rateLimiter.checkLimit .ip ip r.instant with
      | (limiter, .ok _) =>
        ({ svc with rateLimiter := limiter }, .emailLimit (normalizeEmail env email))
      | (limiter, .error status) => ({ svc with rateLimiter := limiter }, .done (.status status))

def limitEmail (email : String) : AuthServiceImpl × Call :=
  match svc.rateLimiter.checkLimit .email email r.instant with
  | (limiter, .ok _) => ({ svc with rateLimiter := limiter }, .insertOtp email)
  | (limiter, .error status) => ({ svc with rateLimiter := limiter }, .done (.status status))

def begin : AuthRequest → AuthServiceImpl × Call × List Event
  | .requestOtp remoteIp email =>
    let (svc, call) := requestOtp env r svc remoteIp email
    (svc, call, [])
  | .createGoogleLoginNonce =>
    let (svc, response) := svc.createGoogleLoginNonce r
    (svc, .done (.nonce response), [])
  | .login (.otp requestId code) => loginOtp env r svc requestId code
  | .login (.google handle idToken) => (svc, loginGoogle env svc handle idToken, [])
  | .login .missing =>
    (svc, .done (.status (.invalidArgument "Missing login method")), [])
  | .logout authorization sessionToken => logout env r svc authorization sessionToken
  | .refreshToken token => (svc, refreshToken env r svc token)
  | .verifySession token tick => (svc, verifySession env r svc token tick)
  | .isSessionAuthorized jti tick => (svc, beginCheck r svc jti tick .authorized)

/-- The next section of a call. -/
def Call.next : Call → AuthServiceImpl × Call × List Event
  | .start request => begin env r svc request
  | .emailLimit email =>
    let (svc, call) := limitEmail r svc email
    (svc, call, [])
  | .insertOtp email =>
    let (svc, ack) := svc.insertOtp env r email
    (svc, .done (.otpAck ack), [])
  | .otpRemove requestId outcome =>
    (svc.removeRecord requestId, .done (otpReply outcome),
      match outcome with
      | .accepted _ => [.loggedIn requestId]
      | _ => [])
  | .googleVerify handle idToken nonce => (svc, verifyGoogle env r handle idToken nonce)
  | .googleRemove handle subject => (svc.removeRecord handle, .googleMint handle subject, [])
  | .googleMint handle subject => mintGoogle env r svc handle subject
  | .touch jti nowTs asker => (svc.touch jti nowTs, asker.finish jti true, [])
  | .refreshRemove jti sub => (svc.revoke jti, .refreshMint jti sub, [])
  | .refreshMint jti sub => mintRefresh env r svc jti sub
  | .done reply => (svc, .done reply, [])

end

/-! ## Runs -/

structure State where
  svc : AuthServiceImpl
  calls : Nat → Option Call
  clock : DateTime
  /-- Every string that `Ulid::new` has drawn. -/
  drawn : List String

def State.new (bypassEnabled : Bool) (clock : DateTime) : State :=
  ⟨.new bypassEnabled, fun _ => none, clock, []⟩

inductive Action where
  | arrive (call : Nat) (request : AuthRequest)
  | advance (call : Nat) (reading : Reading)

/-- What is assumed of arrivals, of the clock and of `Ulid::new`. -/
def Admissible (st : State) : Action → Prop
  | .arrive call _ => st.calls call = none
  | .advance _ r => st.clock ≤ r.now ∧ r.ulid ∉ st.drawn ∧ r.ulid.length = 26

def fire (env : AuthEnv) (st : State) : Action → State × List Event
  | .arrive call request =>
    ({ st with calls := Function.update st.calls call (some (.start request)) }, [])
  | .advance call r =>
    match st.calls call with
    | none => (st, [])
    | some c =>
      let (svc, c', events) := c.next env r st.svc
      (⟨svc, Function.update st.calls call (some c'), r.now, r.ulid :: st.drawn⟩, events)

def Step (env : AuthEnv) (st : State) (events : List Event) (st' : State) : Prop :=
  ∃ a, Admissible st a ∧ fire env st a = (st', events)

/-- What a step is: nothing, an arrival, or one section of one call. -/
inductive StepCase (env : AuthEnv) (st : State) : List Event → State → Prop where
  | idle : StepCase env st [] st
  | arrive {i : Nat} (request : AuthRequest) (hi : st.calls i = none) :
      StepCase env st []
        { st with calls := Function.update st.calls i (some (.start request)) }
  | advance {i : Nat} {c c' : Call} {r : Reading} {svc' : AuthServiceImpl} {events : List Event}
      (hi : st.calls i = some c) (hclock : st.clock ≤ r.now) (hulid : r.ulid ∉ st.drawn)
      (hlength : r.ulid.length = 26) (hnext : c.next env r st.svc = (svc', c', events)) :
      StepCase env st events
        ⟨svc', Function.update st.calls i (some c'), r.now, r.ulid :: st.drawn⟩

variable {actions : List Action} {events : List Event} {i : Nat} {st : State}

theorem Step.cases {env : AuthEnv} {st' : State}
    (h : Step env st events st') : StepCase env st events st' := by
  obtain ⟨a, hadm, hfire⟩ := h
  cases a with
  | arrive i request =>
    obtain ⟨rfl, rfl⟩ := Prod.mk.inj hfire
    exact .arrive request hadm
  | advance i r =>
    obtain ⟨hclock, hulid, hlength⟩ := hadm
    unfold fire at hfire
    dsimp only at hfire
    split at hfire
    · obtain ⟨rfl, rfl⟩ := Prod.mk.inj hfire
      exact .idle
    · next c hi =>
      obtain ⟨rfl, rfl⟩ := Prod.mk.inj hfire
      exact .advance hi hclock hulid hlength rfl

theorem Step.of_next {env : AuthEnv} {c c' : Call} {r : Reading}
    {svc' : AuthServiceImpl} (hi : st.calls i = some c)
    (hadm : Admissible st (.advance i r)) (hnext : c.next env r st.svc = (svc', c', events)) :
    Step env st events
      ⟨svc', Function.update st.calls i (some c'), r.now, r.ulid :: st.drawn⟩ := by
  refine ⟨.advance i r, hadm, ?_⟩
  unfold fire
  simp only [hi, hnext]

/-! ## Scripted runs -/

/-- Runs a list of actions. -/
def fireAll (env : AuthEnv) : State → List Action → State × List Event
  | st, [] => (st, [])
  | st, a :: actions =>
    let (st, events) := fire env st a
    let (final, rest) := fireAll env st actions
    (final, events ++ rest)

/-- Every action is admissible when its turn comes, and its step is a good one. -/
def Permits (env : AuthEnv) (Good : State → List Event → Prop) : State → List Action → Prop
  | _, [] => True
  | st, a :: actions =>
    Admissible st a ∧ Good st (fire env st a).2 ∧ Permits env Good (fire env st a).1 actions

instance decidableAdmissible (st : State) : ∀ a : Action, Decidable (Admissible st a)
  | .arrive call _ => inferInstanceAs (Decidable (st.calls call = none))
  | .advance _ r =>
    inferInstanceAs (Decidable (st.clock ≤ r.now ∧ r.ulid ∉ st.drawn ∧ r.ulid.length = 26))

instance decidablePermits (env : AuthEnv) :
    ∀ (st : State) (actions : List Action), Decidable (Permits env (fun _ _ => True) st actions)
  | _, [] => .isTrue trivial
  | st, a :: actions =>
    have := decidablePermits env (fire env st a).1 actions
    inferInstanceAs (Decidable (Admissible st a ∧ True ∧ _))

theorem run_fireAll {env : AuthEnv} {Good : State → List Event → Prop} :
    ∀ {st : State}, Permits env Good st actions →
      Run (fun st events st' => Step env st events st' ∧ Good st events) st
        (fireAll env st actions).2 (fireAll env st actions).1 := by
  induction actions with
  | nil => exact fun _ => .nil
  | cons a actions ih =>
    rintro st ⟨hadm, hgood, hrest⟩
    exact .cons ⟨⟨a, hadm, rfl⟩, hgood⟩ (ih hrest)

theorem run_script {env : AuthEnv} (h : Permits env (fun _ _ => True) st actions) :
    Run (Step env) st (fireAll env st actions).2 (fireAll env st actions).1 :=
  (run_fireAll h).mono fun _ _ _ hstep => hstep.1

/-- The call that an action is about. -/
def Action.call : Action → Nat
  | .arrive i _ | .advance i _ => i

theorem fireAll_calls {env : AuthEnv} (actions : List Action) :
    ∀ {st : State}, i ∉ actions.map Action.call →
      (fireAll env st actions).1.calls i = st.calls i := by
  induction actions with
  | nil => exact fun _ => rfl
  | cons a actions ih =>
    intro st h
    rw [List.map_cons, List.mem_cons, not_or] at h
    have hfirst : (fire env st a).1.calls i = st.calls i := by
      cases a with
      | arrive k request => exact Function.update_of_ne h.1 _ _
      | advance k r =>
        unfold fire
        dsimp only
        split
        · rfl
        · exact Function.update_of_ne h.1 _ _
    exact (ih h.2).trans hfirst

/-! ## A small service -/

/-- Codes are hashed to themselves, a token is its identifier with the time it was issued, and every
id token is accepted. -/
def plainEnv : AuthEnv where
  blake2b code id := (code.toList ++ id.toList).map fun c => UInt8.ofNat c.toNat
  sha256Ulid _ := "player"
  trim s := s
  toLowercase s := s
  build claims :=
    if claims.sub = "player" ∧ '@' ∉ claims.jti.toList then
      .ok (String.ofList (claims.jti.toList ++ '@' :: (toString claims.iat.timestamp).toList))
    else .error "malformed claim"
  parse _ token := some ⟨some (String.ofList (token.toList.takeWhile (· ≠ '@'))), some "player"⟩
  googleClient := some fun _ idToken _ => .ok idToken

def plainUlid (n : Nat) : String := String.ofList (List.replicate 25 '0' ++ [Char.ofNat n])

/-- The readings of second `n`. -/
def plainReading (n : Nat) : Reading := ⟨.ofSeconds n, n, plainUlid n, 123456, "nonce"⟩

/-- A request for a code, answered with the record `plainUlid 2`. -/
def otpRequested : List Action :=
  [.arrive 0 (.requestOtp none "alice@example.org"), .advance 0 (plainReading 0),
    .advance 0 (plainReading 1), .advance 0 (plainReading 2)]

end Aetheris.Auth
