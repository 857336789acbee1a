import Aetheris.Server.Auth.Calls

/-!
# What a section can do

`NextCase` says once what the next section of any call can be, and `Mint` what minting a session
leaves behind. Facts about sections are proved by looking at these cases.
-/

namespace Aetheris.Auth

open Function

/-! ## Minting -/

/-- `svc'` is `svc` with a session of `jti` for the new token, or without one if none was built. -/
structure Mint (env : AuthEnv) (r : Reading) (svc : AuthServiceImpl) (jti : String)
    (svc' : AuthServiceImpl) (token : Option String) : Prop where
  bypass : svc'.bypassEnabled = svc.bypassEnabled
  activity : svc'.sessionActivity = match token with
    | some _ => Function.update svc.sessionActivity jti (some r.now.timestamp)
    | none => svc.sessionActivity
  built : ∀ t, token = some t → ∃ claims, env.build claims = .ok t ∧ claims.jti = jti

section

variable {env : AuthEnv} {r : Reading} {svc svc' : AuthServiceImpl} {jti jti' : String}

namespace Mint

variable {token : Option String}

theorem of_same (hbypass : svc'.bypassEnabled = svc.bypassEnabled)
    (hactivity : svc'.sessionActivity = svc.sessionActivity) : Mint env r svc jti svc' none :=
  ⟨hbypass, hactivity, nofun⟩

theorem of_ne (h : Mint env r svc jti svc' token) (hne : jti' ≠ jti) :
    svc'.sessionActivity jti' = svc.sessionActivity jti' := by
  rw [h.activity]
  cases token with
  | none => rfl
  | some _ => exact update_of_ne hne _ _

theorem cases (h : Mint env r svc jti svc' token) (jti' : String) :
    svc'.sessionActivity jti' = svc.sessionActivity jti' ∨
      svc'.sessionActivity jti' = some r.now.timestamp ∧ jti' = jti := by
  by_cases hjti : jti' = jti
  · rw [h.activity]
    cases token with
    | none => exact Or.inl rfl
    | some _ => exact Or.inr ⟨hjti ▸ update_self .., hjti⟩
  · exact Or.inl (h.of_ne hjti)

end Mint

variable (env r svc)

theorem mintSessionToken_mint (playerId : String) (new : Option String) :
    Mint env r svc (new.getD r.ulid) (svc.mintSessionToken env r playerId new).1
      ((svc.mintSessionToken env r playerId new).2.toOption.map Prod.fst) := by
  unfold AuthServiceImpl.mintSessionToken
  dsimp only
  split
  · next hbuild =>
    refine ⟨rfl, rfl, fun t ht => ?_⟩
    obtain rfl := Option.some.inj ht
    exact ⟨_, hbuild, rfl⟩
  · exact .of_same rfl rfl

theorem grant_mint (playerId : String) (new : Option String) (method : LoginMethod) :
    Mint env r svc (new.getD r.ulid) (svc.grant env r playerId new method).1
      ((svc.grant env r playerId new method).2.toOption.map (·.sessionToken)) := by
  have hmint := mintSessionToken_mint env r
    { svc with playerRegistry := update svc.playerRegistry playerId true } playerId new
  unfold AuthServiceImpl.grant
  dsimp only
  split
  · next heq =>
    rw [heq] at hmint
    exact ⟨hmint.bypass, hmint.activity, hmint.built⟩
  · next heq =>
    rw [heq] at hmint
    exact ⟨hmint.bypass, hmint.activity, hmint.built⟩

/-- The token that the login has been given. -/
def AuthServiceImpl.OtpOutcome.token : AuthServiceImpl.OtpOutcome → Option String
  | .accepted response => some response.sessionToken
  | _ => none

theorem grantOtp_mint (entry : OtpRecord) (new : Option String) :
    Mint env r svc (new.getD r.ulid) (svc.grantOtp env r entry new).1
      (svc.grantOtp env r entry new).2.token := by
  have hmint := grant_mint env r svc (derivePlayerId env "email" entry.email) new .emailOtp
  unfold AuthServiceImpl.grantOtp
  split
  · next heq =>
    rw [heq] at hmint
    exact hmint
  · next heq =>
    rw [heq] at hmint
    exact hmint

/-- A bypass login mints the shared identifier, any other one a new identifier. -/
theorem otpSection_mint (id code : String) :
    ∃ jti, (jti = r.ulid ∨ jti = "admin" ∧ svc.bypassEnabled = true) ∧
      Mint env r svc jti (svc.otpSection env r id code).1
        (svc.otpSection env r id code).2.token := by
  have hnone : ∀ svc' outcome, svc'.bypassEnabled = svc.bypassEnabled →
      svc'.sessionActivity = svc.sessionActivity →
      AuthServiceImpl.OtpOutcome.token outcome = none →
      ∃ jti, (jti = r.ulid ∨ jti = "admin" ∧ svc.bypassEnabled = true) ∧
        Mint env r svc jti svc' outcome.token :=
    fun svc' outcome hbypass hactivity htoken =>
      ⟨r.ulid, Or.inl rfl, htoken ▸ .of_same hbypass hactivity⟩
  unfold AuthServiceImpl.otpSection
  split
  · exact hnone _ _ rfl rfl rfl
  · next entry _ =>
    split
    · next hbypass =>
      have henabled : svc.bypassEnabled = true := by
        unfold AuthServiceImpl.bypasses at hbypass
        simp only [Bool.and_eq_true] at hbypass
        exact hbypass.1.1
      exact ⟨"admin", Or.inr ⟨rfl, henabled⟩, grantOtp_mint env r svc entry (some "admin")⟩
    · split
      · exact hnone _ _ rfl rfl rfl
      · unfold AuthServiceImpl.checkCode
        split
        · exact hnone _ _ rfl rfl rfl
        · split
          · exact ⟨r.ulid, Or.inl rfl, grantOtp_mint env r svc entry none⟩
          · exact hnone _ _ rfl rfl rfl

theorem mintSessionToken_otpStore (playerId : String) (new : Option String) :
    (svc.mintSessionToken env r playerId new).1.otpStore = svc.otpStore := by
  unfold AuthServiceImpl.mintSessionToken
  dsimp only
  split <;> rfl

theorem grant_otpStore (playerId : String) (new : Option String) (method : LoginMethod) :
    (svc.grant env r playerId new method).1.otpStore = svc.otpStore := by
  have h := mintSessionToken_otpStore env r
    { svc with playerRegistry := update svc.playerRegistry playerId true } playerId new
  unfold AuthServiceImpl.grant
  dsimp only
  split
  · next heq =>
    rw [heq] at h
    exact h
  · next heq =>
    rw [heq] at h
    exact h

/-! ## Sections -/

/-- A reply that carries neither a session nor a token. -/
def Reply.plain : Reply → Bool
  | .login _ | .refresh _ | .session (.ok _) => false
  | _ => true

/-- A call in progress that is about no record and no session, or an answer without one. -/
def Call.plain : Call → Bool
  | .emailLimit _ | .insertOtp _ => true
  | .done reply => reply.plain
  | _ => false

/-- Why a request has a session checked. -/
inductive Asks (env : AuthEnv) (r : Reading) : AuthRequest → String → Asker → Prop where
  | refresh {token jti sub : String} (h : env.parse r.now token = some ⟨some jti, some sub⟩) :
      Asks env r (.refreshToken token) jti (.refresh sub)
  | verify {token jti sub : String} (tick : Option UInt64)
      (h : env.parse r.now token = some ⟨some jti, some sub⟩) :
      Asks env r (.verifySession token tick) jti (.verify token ⟨sub, jti⟩)
  | authorized (jti : String) (tick : Option UInt64) :
      Asks env r (.isSessionAuthorized jti tick) jti .authorized

/-- What the next section of a call can be. -/
inductive NextCase (env : AuthEnv) (r : Reading) (svc : AuthServiceImpl) :
    Call → AuthServiceImpl × Call × List Event → Prop where
  /-- A request is limited, refused or passed on; nothing but the limiter may change. -/
  | plain {c c' : Call} (limiter : InMemoryRateLimiter)
      (hc : (∃ request, c = .start request) ∨ ∃ email, c = .emailLimit email)
      (hc' : c'.plain = true) : NextCase env r svc c ({ svc with rateLimiter := limiter }, c', [])
  | insertOtp (email : String) : NextCase env r svc (.insertOtp email)
      ((svc.insertOtp env r email).1, .done (.otpAck (svc.insertOtp env r email).2), [])
  | createNonce : NextCase env r svc (.start .createGoogleLoginNonce)
      ((svc.createGoogleLoginNonce r).1, .done (.nonce (svc.createGoogleLoginNonce r).2), [])
  | loginOtp (id code : String) :
      NextCase env r svc (.start (.login (.otp id code))) (loginOtp env r svc id code)
  | readNonce {handle nonce : String} (idToken : String) (h : svc.readNonce handle = some nonce) :
      NextCase env r svc (.start (.login (.google handle idToken)))
        (svc, .googleVerify handle idToken nonce, [])
  | logout {authorization : Option String} {token jti : String}
      (h : ((logoutToken authorization token).bind (env.parse r.now)).bind (·.jti) = some jti) :
      NextCase env r svc (.start (.logout authorization token))
        (svc.revoke jti, .done (.logout true), [.loggedOut jti])
  | check {request : AuthRequest} {jti : String} {asker : Asker} (tick : Option UInt64)
      (h : Asks env r request jti asker) :
      NextCase env r svc (.start request) (svc, beginCheck r svc jti tick asker)
  | otpRemove (id : String) (outcome : AuthServiceImpl.OtpOutcome) :
      NextCase env r svc (.otpRemove id outcome) (svc.removeRecord id, .done (otpReply outcome),
        match outcome with
        | .accepted _ => [.loggedIn id]
        | _ => [])
  | idToken (handle idToken nonce subject : String) :
      NextCase env r svc (.googleVerify handle idToken nonce)
        (svc, .googleRemove handle subject, [.accepted handle])
  | idTokenRefused (handle idToken nonce : String) (status : Status) :
      NextCase env r svc (.googleVerify handle idToken nonce) (svc, .done (.status status), [])
  | googleRemove (handle subject : String) : NextCase env r svc (.googleRemove handle subject)
      (svc.removeRecord handle, .googleMint handle subject, [])
  | googleMint {svc' : AuthServiceImpl} {reply : Reply} {events : List Event}
      {token : Option String} (handle subject : String) (hmint : Mint env r svc r.ulid svc' token)
      (hstore : svc'.otpStore = svc.otpStore)
      (hreply : (∃ response, reply = .login response ∧ token = some response.sessionToken) ∨
        ∃ status, reply = .status status)
      (hevents : events = [.loggedIn handle] ∨ events = []) :
      NextCase env r svc (.googleMint handle subject) (svc', .done reply, events)
  | touch (jti : String) (nowTs : Int) (asker : Asker) :
      NextCase env r svc (.touch jti nowTs asker) (svc.touch jti nowTs, asker.finish jti true, [])
  | refreshRemove (jti sub : String) :
      NextCase env r svc (.refreshRemove jti sub) (svc.revoke jti, .refreshMint jti sub, [])
  /-- The new token keeps the identifier of a bypass session. -/
  | refreshMint {svc' : AuthServiceImpl} {reply : Reply} {events : List Event}
      {token : Option String} (jti sub : String)
      (hmint : Mint env r svc (if jti = "admin" then "admin" else r.ulid) svc' token)
      (hstore : svc'.otpStore = svc.otpStore)
      (hreply : (∃ response : RefreshResponse, reply = .refresh response ∧
          token = some response.sessionToken) ∨ ∃ status, reply = .status status)
      (hevents : ∀ e ∈ events, e = .exchanged jti) :
      NextCase env r svc (.refreshMint jti sub) (svc', .done reply, events)
  | done (reply : Reply) : NextCase env r svc (.done reply) (svc, .done reply, [])

theorem mintGoogle_cases (handle subject : String) :
    NextCase env r svc (.googleMint handle subject) (mintGoogle env r svc handle subject) := by
  have hmint := grant_mint env r svc (derivePlayerId env "google" subject) none .googleOidc
  have hstore := grant_otpStore env r svc (derivePlayerId env "google" subject) none .googleOidc
  unfold mintGoogle
  split
  · next heq =>
    rw [heq] at hmint hstore
    exact .googleMint handle subject hmint hstore (Or.inl ⟨_, rfl, rfl⟩) (Or.inl rfl)
  · next heq =>
    rw [heq] at hmint hstore
    exact .googleMint handle subject hmint hstore (Or.inr ⟨_, rfl⟩) (Or.inr rfl)

theorem mintRefresh_cases (jti sub : String) :
    NextCase env r svc (.refreshMint jti sub) (mintRefresh env r svc jti sub) := by
  have hnew : (if jti = "admin" then some "admin" else none).getD r.ulid =
      if jti = "admin" then "admin" else r.ulid := by
    split <;> rfl
  have hmint := mintSessionToken_mint env r svc sub (if jti = "admin" then some "admin" else none)
  have hstore := mintSessionToken_otpStore env r svc sub
    (if jti = "admin" then some "admin" else none)
  rw [hnew] at hmint
  unfold mintRefresh
  dsimp only
  split
  · next heq =>
    rw [heq] at hmint hstore
    exact .refreshMint jti sub hmint hstore (Or.inl ⟨_, rfl, rfl⟩) (by simp)
  · next heq =>
    rw [heq] at hmint hstore
    exact .refreshMint jti sub hmint hstore (Or.inr ⟨_, rfl⟩) (by simp)

theorem Call.next_cases (c : Call) : NextCase env r svc c (c.next env r svc) := by
  have hplain : ∀ request c', Call.plain c' = true →
      NextCase env r svc (.start request) (svc, c', []) :=
    fun request c' hc' => .plain svc.rateLimiter (Or.inl ⟨request, rfl⟩) hc'
  cases c with
  | start request =>
    cases request with
    | requestOtp remoteIp email =>
      unfold Call.next begin requestOtp
      dsimp only
      split
      · exact hplain _ _ rfl
      · split
        · exact hplain _ _ rfl
        · split <;> exact .plain _ (Or.inl ⟨_, rfl⟩) rfl
    | createGoogleLoginNonce => exact .createNonce
    | login request =>
      cases request with
      | otp id code => exact .loginOtp id code
      | missing => exact hplain _ _ rfl
      | google handle idToken =>
        unfold Call.next begin loginGoogle
        dsimp only
        split
        · exact hplain _ _ rfl
        · split
          · next hnonce => exact .readNonce idToken hnonce
          · exact hplain _ _ rfl
    | logout authorization token =>
      unfold Call.next begin logout
      dsimp only
      split
      · next hjti => exact .logout hjti
      · exact hplain _ _ rfl
    | refreshToken token =>
      unfold Call.next begin refreshToken
      dsimp only
      split
      case h_4 hparse => exact .check none (.refresh hparse)
      all_goals exact hplain _ _ rfl
    | verifySession token tick =>
      unfold Call.next begin verifySession
      dsimp only
      split
      case h_4 hparse => exact .check tick (.verify tick hparse)
      all_goals exact hplain _ _ rfl
    | isSessionAuthorized jti tick => exact .check tick (.authorized jti tick)
  | emailLimit email =>
    unfold Call.next limitEmail
    dsimp only
    split <;> exact .plain _ (Or.inr ⟨email, rfl⟩) rfl
  | insertOtp email => exact .insertOtp email
  | otpRemove id outcome => exact .otpRemove id outcome
  | googleVerify handle idToken nonce =>
    unfold Call.next verifyGoogle
    dsimp only
    split
    · exact .idTokenRefused ..
    · split
      · exact .idToken ..
      · exact .idTokenRefused ..
  | googleRemove handle subject => exact .googleRemove handle subject
  | googleMint handle subject => exact mintGoogle_cases env r svc handle subject
  | touch jti nowTs asker => exact .touch jti nowTs asker
  | refreshRemove jti sub => exact .refreshRemove jti sub
  | refreshMint jti sub => exact mintRefresh_cases env r svc jti sub
  | done reply => exact .done reply

end

end Aetheris.Auth
