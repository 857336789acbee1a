import Aetheris.Server.Auth.Revocation
import Aetheris.Server.Vetting

/-!
# The auth service behind the tick loop

The tick loop asks the service about sessions while gRPC calls use it. Each question of the loop is a
call of its own: `Turn` says which sections of other calls run before the question and between the
two halves of its check. `sharedVerifier` is the verifier this makes of the service. A `System` is
the scheduler and its world with such a verifier; its actions are ticks and sections of gRPC calls,
in any order.

The service is its log: the state is what the logged sections have made of the first one, so all that
is known of runs of the service holds in a `System`.
-/

namespace Aetheris

/-- The same server with another verifier. -/
def ServerEnv.withVerifier {A B R F : Type} (env : ServerEnv A R F)
    (verifier : AuthSessionVerifier B) : ServerEnv B R F where
  verifier := verifier
  reassembler := env.reassembler
  encoder := env.encoder
  isDev := env.isDev
  versionServer := env.versionServer
  versionProtocol := env.versionProtocol
  maxFragmentPayloadSize := env.maxFragmentPayloadSize
  clientOrder := env.clientOrder
  clientOrder_perm := env.clientOrder_perm
  batchOrder := env.batchOrder
  batchOrder_perm := env.batchOrder_perm

end Aetheris

namespace Aetheris.Auth

/-! ## One question -/

/-- What happens at the service around one question of the tick loop. -/
structure Turn where
  before : List Action
  /-- The call that the question is. -/
  call : Nat
  first : Reading
  between : List Action
  second : Reading

def Turn.actions (turn : Turn) (request : AuthRequest) : List Action :=
  turn.before ++ [.arrive turn.call request, .advance turn.call turn.first] ++
    (turn.between ++ [.advance turn.call turn.second])

/-- The service as the tick loop shares it. -/
structure Shared where
  /-- Every section that has run. -/
  log : List Action
  /-- What is to come around the questions of the tick. -/
  turns : Nat → Turn

section

variable (env : AuthEnv) (st₀ : State)

def Shared.state (sh : Shared) : State := (fireAll env st₀ sh.log).1

def Shared.ask (sh : Shared) (request : AuthRequest) : Shared × Option Reply :=
  let turn := sh.turns 0
  let sh : Shared := ⟨sh.log ++ turn.actions request, fun n => sh.turns (n + 1)⟩
  (sh, match (sh.state env st₀).calls turn.call with
    | some (.done reply) => some reply
    | _ => none)

/-- The service as the verifier of the tick loop. -/
def sharedVerifier : AuthSessionVerifier Shared where
  verifySession sh token tick :=
    match sh.ask env st₀ (.verifySession token tick) with
    | (sh, some (.session result)) => (sh, result)
    | (sh, _) => (sh, .error .invalidToken)
  isSessionAuthorized sh jti tick :=
    match sh.ask env st₀ (.isSessionAuthorized jti tick) with
    | (sh, some (.authorized ok)) => (sh, ok)
    | (sh, _) => (sh, false)

/-- Every section of the log was admissible when it ran. -/
def Shared.Admitted (sh : Shared) : Prop := Permits env (fun _ _ => True) st₀ sh.log

end

/-! ## Systems -/

/-- The scheduler with the service as its verifier, and the world. -/
abbrev System (W R : Type) := TickScheduler Shared R × W

inductive SystemAction (F : Type) where
  | grpc (action : Action)
  | tick (input : TickInput F) (turns : Nat → Turn)

section

variable {W R F : Type} [F32 F] (env : ServerEnv Shared R F) (ws : WorldState W F)

def System.step (sys : System W R) : SystemAction F → System W R
  | .grpc action =>
    ({ sys.1 with authService := ⟨sys.1.authService.log ++ [action], sys.1.authService.turns⟩ },
      sys.2)
  | .tick input turns =>
    (tickStep env ws { sys.1 with authService := ⟨sys.1.authService.log, turns⟩ } sys.2 input).1

def System.run (sys : System W R) (actions : List (SystemAction F)) : System W R :=
  actions.foldl (System.step env ws) sys

/-- A system that has not ticked yet. -/
def System.initial (tickRate : UInt64) (turns : Nat → Turn) (reassembler : R)
    (hasOutbound spawnAtZero : Bool) (world : W) : System W R :=
  (.initial tickRate ⟨[], turns⟩ reassembler hasOutbound spawnAtZero, world)

end

/-! ## The log -/

section

variable {env : AuthEnv}

theorem fireAll_append (st : State) (actions actions' : List Action) :
    (fireAll env st (actions ++ actions')).1 =
      (fireAll env (fireAll env st actions).1 actions').1 := by
  induction actions generalizing st with
  | nil => rfl
  | cons a actions ih => exact ih _

theorem permits_append {Good : State → List Event → Prop} (st : State)
    (actions actions' : List Action) :
    Permits env Good st (actions ++ actions') ↔
      Permits env Good st actions ∧ Permits env Good (fireAll env st actions).1 actions' := by
  induction actions generalizing st with
  | nil => exact ⟨fun h => ⟨trivial, h⟩, fun h => h.2⟩
  | cons a actions ih =>
    show _ ∧ _ ∧ Permits env Good _ (actions ++ actions') ↔ (_ ∧ _ ∧ _) ∧ _
    rw [ih, and_assoc, and_assoc]
    rfl

variable {st₀ : State} {sh : Shared}

theorem Shared.Admitted.run (h : sh.Admitted env st₀) :
    Run (Step env) st₀ (fireAll env st₀ sh.log).2 (sh.state env st₀) := run_script h

theorem Shared.Admitted.of_ask {request : AuthRequest}
    (h : (sh.ask env st₀ request).1.Admitted env st₀) : sh.Admitted env st₀ :=
  ((permits_append _ _ _).mp h).1

theorem sharedVerifier_verifySession (token : String) (tick : Option UInt64) :
    ((sharedVerifier env st₀).verifySession sh token tick).1 =
      (sh.ask env st₀ (.verifySession token tick)).1 := by
  unfold sharedVerifier
  dsimp only
  split
  · next heq => rw [heq]
  · next heq => rw [heq]

theorem sharedVerifier_isSessionAuthorized (jti : String) (tick : Option UInt64) :
    ((sharedVerifier env st₀).isSessionAuthorized sh jti tick).1 =
      (sh.ask env st₀ (.isSessionAuthorized jti tick)).1 := by
  unfold sharedVerifier
  dsimp only
  split
  · next heq => rw [heq]
  · next heq => rw [heq]

theorem Shared.Admitted.ask_run {request : AuthRequest}
    (h : (sh.ask env st₀ request).1.Admitted env st₀) :
    ∃ trace, Run (Step env) (sh.state env st₀) trace
      ((sh.ask env st₀ request).1.state env st₀) := by
  have hstate : (sh.ask env st₀ request).1.state env st₀ =
      (fireAll env (sh.state env st₀) ((sh.turns 0).actions request)).1 :=
    fireAll_append st₀ sh.log _
  rw [hstate]
  exact ⟨_, run_script ((permits_append _ _ _).mp h).2⟩

end

/-! ## Accepted sessions -/

/-- The session that `verify_session` has accepted, or is about to. -/
def Call.accepted : Call → Option VerifiedSession
  | .touch _ _ (.verify _ session) => some session
  | .done (.session (.ok session)) => some session
  | _ => none

section

variable {env : AuthEnv} {r : Reading} {svc : AuthServiceImpl} {session : VerifiedSession}

theorem beginCheck_accepted {jti : String} {tick : Option UInt64} {asker : Asker}
    (hasker : ∀ token session, asker = .verify token session → session.jti = jti)
    (h : (beginCheck r svc jti tick asker).1.accepted = some session) :
    svc.sessionActivity session.jti ≠ none := by
  have hread := svc.readActivity_spec jti tick r.now
  unfold beginCheck at h
  generalize svc.readActivity jti tick r.now = check at h hread
  cases check with
  | live needsUpdate nowTs =>
    obtain ⟨-, activity, hactivity, -⟩ := hread
    have hjti : session.jti = jti := by
      cases asker with
      | verify token session' =>
        cases needsUpdate <;>
        · obtain rfl := Option.some.inj h
          exact hasker _ _ rfl
      | _ => cases needsUpdate <;> cases h
    rw [hjti, hactivity]
    exact nofun
  | idle => cases asker <;> cases h
  | revoked => cases asker <;> cases h

/-- A session is accepted only while its activity is on record. -/
theorem next_accepted {c : Call} (h : (c.next env r svc).2.1.accepted = some session) :
    c.accepted = some session ∨ svc.sessionActivity session.jti ≠ none := by
  have hcases := Call.next_cases env r svc c
  generalize c.next env r svc = out at hcases h
  cases hcases with
  | @plain _ c' limiter _ hc' =>
    cases c' with
    | done reply =>
      cases reply with
      | session result =>
        cases result with
        | ok _ => cases hc'
        | error _ => cases h
      | _ => cases h
    | touch _ _ _ => cases hc'
    | _ => cases h
  | loginOtp id code =>
    unfold loginOtp at h
    dsimp only at h
    split at h
    · cases h
    · generalize (svc.otpSection env r id code).2 = outcome at h
      cases outcome <;> cases h
  | check tick hasks =>
    refine Or.inr (beginCheck_accepted (fun _ _ heq => ?_) h)
    cases hasks <;> cases heq
    rfl
  | otpRemove id outcome => cases outcome <;> cases h
  | googleMint handle subject _ _ hreply =>
    rcases hreply with ⟨response, rfl, -⟩ | ⟨status, rfl⟩ <;> cases h
  | refreshMint jti sub _ _ hreply =>
    rcases hreply with ⟨response, rfl, -⟩ | ⟨status, rfl⟩ <;> cases h
  | touch jti nowTs asker =>
    cases asker with
    | verify token session' => exact Or.inl h
    | _ => cases h
  | done reply => exact Or.inl h
  | _ => cases h

end

/-- An accepted session is in the answer of a call. -/
theorem verifySession_accepted {env : AuthEnv} {st₀ : State} {sh : Shared} {token : String}
    {tick : Option UInt64} {session : VerifiedSession}
    (h : ((sharedVerifier env st₀).verifySession sh token tick).2 = .ok session) :
    ∃ i c, ((sh.ask env st₀ (.verifySession token tick)).1.state env st₀).calls i = some c ∧
      c.accepted = some session := by
  unfold sharedVerifier at h
  dsimp only at h
  split at h
  · next result heq =>
    obtain ⟨-, hreply⟩ := Prod.mk.inj heq
    split at hreply
    · next reply hcall =>
      obtain rfl := Option.some.inj hreply
      have hresult : result = .ok session := h
      refine ⟨_, _, hcall, ?_⟩
      rw [hresult]
      rfl
    · cases hreply
  · cases h

/-! ## A small system -/

/-- The questions of a tick that starts in second `n`, with nothing in between. -/
def plainTurns (n : Nat) : Nat → Turn := fun k =>
  ⟨[], 100 + n + k, plainReading (n + 2 * k), [], plainReading (n + 2 * k + 1)⟩

/-- A server on which byte 0 logs in with the token and byte 3 asks to clear the world. -/
def tokenServer (token : String) : ServerEnv Unit Unit ℚ :=
  { byteEnv with
    isDev := false
    encoder := { byteEnv.encoder with decodeEvent := fun
      | [0] => .ok (.auth token)
      | [3] => .ok (.clearWorld ⟨0⟩)
      | _ => .error .other } }

/-- A run of the small service behind that server, from the empty world. -/
def tokenRun (token : String) (actions : List (SystemAction ℚ)) :
    System (BevyWorldAdapter ℚ) Unit :=
  System.run ((tokenServer token).withVerifier (sharedVerifier plainEnv (.new false 0)))
    (bevyWorldState rationalPlatform)
    (.initial 60 (plainTurns 0) () false false BevyWorldAdapter.emptyAdapter) actions

end Aetheris.Auth
