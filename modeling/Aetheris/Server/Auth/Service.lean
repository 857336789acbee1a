import Aetheris.Server.Auth.RateLimit
import Aetheris.Server.Tick

/-!
# The auth service

`AuthServiceImpl` shares three maps between all requests: the pending logins (`otp_store`), the last
activity of each session, and the known players. Every map operation takes a lock of its own, so a
request is a sequence of atomic sections. The sections are defined here, each with what it reads from
the clock and from the generators; how requests interleave is the subject of `Server.Auth.Calls`.

Hashing, the token format and the identity provider are parameters (`AuthEnv`).
-/

namespace Aetheris.Auth

/-! ## Time -/

/-- A point of the UTC time line, in nanoseconds. -/
abbrev DateTime := Int

namespace DateTime

def timestamp (t : DateTime) : Int := t / 1000000000

def timestampMillis (t : DateTime) : Int := t / 1000000

def ofSeconds (s : Int) : DateTime := s * 1000000000

def minutes (n : Int) : DateTime := ofSeconds (n * 60)

def hours (n : Int) : DateTime := minutes (n * 60)

theorem timestamp_mono {t t' : DateTime} (h : t ≤ t') : timestamp t ≤ timestamp t' :=
  Int.ediv_le_ediv (by decide) h

end DateTime

/-! ## Records and answers -/

structure OtpRecord where
  email : String
  codeHash : Bytes
  googleNonce : Option String
  expiresAt : DateTime
  attempts : UInt8
deriving DecidableEq, Repr

inductive LoginMethod where
  | emailOtp
  | googleOidc
deriving DecidableEq, Repr

structure LoginResponse where
  sessionToken : String
  expiresAtUnixMs : UInt64
  playerId : String
  isNewPlayer : Bool
  loginMethod : LoginMethod
deriving DecidableEq, Repr

structure OtpRequestAck where
  requestId : String
  expiresAtUnixMs : UInt64
  retryAfterSeconds : Option UInt32
deriving DecidableEq, Repr

structure GoogleLoginNonceResponse where
  nonceHandle : String
  nonce : String
  expiresAtUnixMs : UInt64
deriving DecidableEq, Repr

structure RefreshResponse where
  sessionToken : String
  expiresAtUnixMs : UInt64
deriving DecidableEq, Repr

/-! ## What the service takes from elsewhere -/

/-- The claims a session token is built from. -/
structure SessionClaims where
  sub : String
  jti : String
  iat : DateTime
  exp : DateTime
deriving DecidableEq, Repr

/-- The claims the parser hands back. -/
structure ParsedClaims where
  jti : Option String
  sub : Option String
deriving DecidableEq, Repr

structure AuthEnv where
  /-- The hash of a code and the request it is for. -/
  blake2b : String → String → Bytes
  /-- The first 16 bytes of a SHA-256 digest, as a ULID. -/
  sha256Ulid : String → String
  trim : String → String
  toLowercase : String → String
  /-- Builds a session token under `session_key`. -/
  build : SessionClaims → Except String String
  /-- Opens a token under `session_key` at the given time. -/
  parse : DateTime → String → Option ParsedClaims
  /-- The identity provider, if configured: the subject of an id token for a nonce. -/
  googleClient : Option (DateTime → String → String → Except Status String)

namespace AuthEnv

/-- A token that opens carries the claims it was built from. -/
def Faithful (env : AuthEnv) : Prop :=
  ∀ claims token, env.build claims = .ok token → ∀ now parsed,
    env.parse now token = some parsed → parsed = ⟨some claims.jti, some claims.sub⟩

end AuthEnv

/-- What one section reads from the clocks and from the generators. -/
structure Reading where
  now : DateTime
  instant : Instant
  /-- The next `Ulid::new()`. -/
  ulid : String
  /-- The next code out of a million. -/
  code : Fin 1000000
  /-- The next 16 random bytes, in hexadecimal. -/
  nonce : String

/-! ## The service -/

structure AuthServiceImpl where
  otpStore : String → Option OtpRecord
  /-- Session identifier to the time of its last activity, in seconds. -/
  sessionActivity : String → Option Int
  playerRegistry : String → Bool
  rateLimiter : InMemoryRateLimiter
  bypassEnabled : Bool

def normalizeEmail (env : AuthEnv) (email : String) : String := env.toLowercase (env.trim email)

def derivePlayerId (env : AuthEnv) (method identifier : String) : String :=
  env.sha256Ulid s!"aetheris:{method}:{identifier}"

/-- A code with its leading zeros. -/
def formatCode (code : Fin 1000000) : String :=
  String.ofList ((toString code.val).toList.leftpad 6 '0')

namespace AuthServiceImpl

def new (bypassEnabled : Bool) : AuthServiceImpl :=
  ⟨fun _ => none, fun _ => none, fun _ => false, .new, bypassEnabled⟩

/-! ### Sessions -/

/-- What the optimistic read of a session check finds. -/
inductive SessionCheck where
  /-- No activity on record. -/
  | revoked
  | idle
  /-- Authorized; whether the activity is to be updated, and to which time. -/
  | live (needsUpdate : Bool) (nowTs : Int)
deriving DecidableEq, Repr

/-- The sum of the bytes of the identifier staggers the updates over the sixty ticks. -/
def jitter (jti : String) : UInt64 := jti.toUTF8.toList.foldl (fun acc x => acc + x.toUInt64) 0

def readActivity (svc : AuthServiceImpl) (jti : String) (tick : Option UInt64) (now : DateTime) :
    SessionCheck :=
  match svc.sessionActivity jti with
  | some activity =>
    if now.timestamp - activity > 3600 then .idle
    else
      let needsUpdate := match tick with
        | none => true
        | some t => (t + jitter jti) % 60 = 0
      .live needsUpdate now.timestamp
  | none => .revoked

/-- The second half of a check: only an activity that is still there is written. -/
def touch (svc : AuthServiceImpl) (jti : String) (nowTs : Int) : AuthServiceImpl :=
  match svc.sessionActivity jti with
  | some _ =>
    { svc with sessionActivity := Function.update svc.sessionActivity jti (some nowTs) }
  | none => svc

/-- `is_session_authorized_with_tick` when nothing comes between its two halves. -/
def isSessionAuthorizedWithTick (svc : AuthServiceImpl) (jti : String) (tick : Option UInt64)
    (now : DateTime) : AuthServiceImpl × Bool :=
  match svc.readActivity jti tick now with
  | .live true nowTs => (svc.touch jti nowTs, true)
  | .live false _ => (svc, true)
  | _ => (svc, false)

def revoke (svc : AuthServiceImpl) (jti : String) : AuthServiceImpl :=
  { svc with sessionActivity := Function.update svc.sessionActivity jti none }

/-- `mint_session_token`: a given identifier is used as it is, otherwise a new one is drawn. -/
def mintSessionToken (env : AuthEnv) (r : Reading) (svc : AuthServiceImpl) (playerId : String)
    (jti : Option String) : AuthServiceImpl × Except Status (String × UInt64) :=
  let jti := jti.getD r.ulid
  let exp : DateTime := r.now + .hours 24
  match env.build ⟨playerId, jti, r.now, exp⟩ with
  | .ok token =>
    ({ svc with
        sessionActivity := Function.update svc.sessionActivity jti (some r.now.timestamp) },
      .ok (token, UInt64.ofInt exp.timestampMillis))
  | .error e => (svc, .error (.internal e))

/-! ### Pending logins -/

/-- The last section of `request_otp`. -/
def insertOtp (env : AuthEnv) (r : Reading) (svc : AuthServiceImpl) (email : String) :
    AuthServiceImpl × OtpRequestAck :=
  let expiresAt : DateTime := r.now + .minutes 10
  let record : OtpRecord :=
    ⟨email, env.blake2b (formatCode r.code) r.ulid, none, expiresAt, 0⟩
  ({ svc with otpStore := Function.update svc.otpStore r.ulid (some record) },
    ⟨r.ulid, UInt64.ofInt expiresAt.timestampMillis, some 0⟩)

def createGoogleLoginNonce (r : Reading) (svc : AuthServiceImpl) :
    AuthServiceImpl × GoogleLoginNonceResponse :=
  let expiresAt : DateTime := r.now + .minutes 10
  let record : OtpRecord := ⟨"", [], some r.nonce, expiresAt, 0⟩
  ({ svc with otpStore := Function.update svc.otpStore r.ulid (some record) },
    ⟨r.ulid, r.nonce, UInt64.ofInt expiresAt.timestampMillis⟩)

def removeRecord (svc : AuthServiceImpl) (id : String) : AuthServiceImpl :=
  { svc with otpStore := Function.update svc.otpStore id none }

/-- Registers the player and mints a session for it. -/
def grant (env : AuthEnv) (r : Reading) (svc : AuthServiceImpl) (playerId : String)
    (jti : Option String) (method : LoginMethod) :
    AuthServiceImpl × Except Status LoginResponse :=
  let isNewPlayer := !svc.playerRegistry playerId
  let svc := { svc with playerRegistry := Function.update svc.playerRegistry playerId true }
  match svc.mintSessionToken env r playerId jti with
  | (svc, .ok (token, exp)) => (svc, .ok ⟨token, exp, playerId, isNewPlayer, method⟩)
  | (svc, .error status) => (svc, .error status)

/-- How an OTP login leaves the section in which it holds the entry. -/
inductive OtpOutcome where
  /-- There is no such record. -/
  | unknown
  /-- The code was right; the record is to be removed. -/
  | accepted (response : LoginResponse)
  /-- The code was right and no token could be built; the record stays. -/
  | failed (status : Status)
  /-- The record is to be removed. -/
  | expired
  /-- The code was wrong, and the counter now is `attempts`; the record is to be removed if the
  attempts are used up. -/
  | wrong (attempts : UInt8) (status : Status)
deriving DecidableEq, Repr

/-- Counts a wrong code in the entry. The counter is a `u8`. -/
def countAttempt (svc : AuthServiceImpl) (id : String) (entry : OtpRecord) (message : String) :
    AuthServiceImpl × OtpOutcome :=
  let entry := { entry with attempts := entry.attempts + 1 }
  ({ svc with otpStore := Function.update svc.otpStore id (some entry) },
    .wrong entry.attempts (.unauthenticated message))

def grantOtp (env : AuthEnv) (r : Reading) (svc : AuthServiceImpl) (entry : OtpRecord)
    (jti : Option String) : AuthServiceImpl × OtpOutcome :=
  match svc.grant env r (derivePlayerId env "email" entry.email) jti .emailOtp with
  | (svc, .ok response) => (svc, .accepted response)
  | (svc, .error status) => (svc, .failed status)

/-- Whether the bypass codes apply to the entry. -/
def bypasses (svc : AuthServiceImpl) (entry : OtpRecord) : Bool :=
  svc.bypassEnabled &&
    (entry.email = "smoke-test@aetheris.dev" || entry.email.startsWith "bot_")

/-- The check of a code that is no bypass code. -/
def checkCode (env : AuthEnv) (r : Reading) (svc : AuthServiceImpl) (id code : String)
    (entry : OtpRecord) : AuthServiceImpl × OtpOutcome :=
  if r.now > entry.expiresAt then (svc, .expired)
  else if env.blake2b code id = entry.codeHash then svc.grantOtp env r entry none
  else svc.countAttempt id entry "Invalid code"

/-- The section of an OTP login that holds the entry. -/
def otpSection (env : AuthEnv) (r : Reading) (svc : AuthServiceImpl) (id code : String) :
    AuthServiceImpl × OtpOutcome :=
  match svc.otpStore id with
  | none => (svc, .unknown)
  | some entry =>
    if svc.bypasses entry && code = "000001" then svc.grantOtp env r entry (some "admin")
    else if svc.bypasses entry && code = "000000" then
      svc.countAttempt id entry "Bypass: Forced failure for 000000"
    else svc.checkCode env r id code entry

/-- The nonce of a record, if it has one. -/
def readNonce (svc : AuthServiceImpl) (handle : String) : Option String :=
  (svc.otpStore handle).bind (·.googleNonce)

end AuthServiceImpl

end Aetheris.Auth
