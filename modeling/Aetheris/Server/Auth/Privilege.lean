import Aetheris.Server.Auth.Attempts
import Aetheris.Server.Auth.Verifier

/-!
# No privilege without the bypass

The commands that change the world at large are reserved for sessions with the identifier `admin`,
and for every session of a development server. Without the bypass no session with that identifier is
ever minted: the bypass login is the only way to the first one, and a refresh only passes it on. The
scheduler then never meets such a session, and a message never reaches a reserved command.
-/

open Function

namespace Aetheris.Auth


/-! ## The service -/

/-- The bypass is off, and no session has the shared identifier. -/
structure Guarded (svc : AuthServiceImpl) : Prop where
  bypass : svc.bypassEnabled = false
  activity : svc.sessionActivity "admin" = none

section

variable {svc : AuthServiceImpl} {r : Reading} (env : AuthEnv)

variable {c : Call} {new : Option String}

theorem Guarded.mint (h : Guarded svc) {new : String} {svc' : AuthServiceImpl}
    {token : Option String} (hmint : Mint env r svc new svc' token) (hnew : "admin" ≠ new) :
    Guarded svc' :=
  ⟨hmint.bypass.trans h.bypass, (hmint.of_ne hnew).trans h.activity⟩

/-- A section mints the shared identifier only in a bypass login and when it refreshes such a
session. -/
theorem Guarded.next (h : Guarded svc) (hc : c.session ≠ some "admin")
    (hulid : "admin" ≠ r.ulid) : Guarded (c.next env r svc).1 := by
  have hcases := Call.next_cases env r svc c
  generalize c.next env r svc = out at hcases ⊢
  cases hcases with
  | loginOtp id code =>
    obtain ⟨new, hnew, hmint⟩ := otpSection_mint env r svc id code
    refine h.mint env hmint fun heq => ?_
    rcases hnew with rfl | ⟨-, hbypass⟩
    · exact hulid heq
    · rw [h.bypass] at hbypass
      cases hbypass
  | @logout _ _ jti _ =>
    refine ⟨h.bypass, ?_⟩
    by_cases hjti : "admin" = jti
    · rw [hjti]
      exact update_self ..
    · exact (update_of_ne hjti _ _).trans h.activity
  | googleMint handle subject hmint => exact h.mint env hmint hulid
  | touch jti nowTs asker =>
    have hjti : "admin" ≠ jti := fun heq => hc (congrArg some heq.symm)
    refine ⟨?_, (AuthServiceImpl.touch_of_ne svc nowTs hjti).trans h.activity⟩
    show (svc.touch jti nowTs).bypassEnabled = false
    unfold AuthServiceImpl.touch
    split <;> exact h.bypass
  | refreshRemove jti sub =>
    have hjti : "admin" ≠ jti := fun heq => hc (congrArg some heq.symm)
    exact ⟨h.bypass, (update_of_ne hjti _ _).trans h.activity⟩
  | refreshMint jti sub hmint =>
    have hjti : jti ≠ "admin" := fun heq => hc (congrArg some heq)
    rw [if_neg hjti] at hmint
    exact h.mint env hmint hulid
  | _ => exact ⟨h.bypass, h.activity⟩

/-- What holds of a service that has run without the bypass. -/
structure Unprivileged (st : State) : Prop where
  guarded : Guarded st.svc
  calls : ∀ i c, st.calls i = some c → c.session ≠ some "admin"
  accepted : ∀ i c session, st.calls i = some c → c.accepted = some session →
    session.jti ≠ "admin"
  tokens : ∀ token, Issued st token →
    ∃ claims, env.build claims = .ok token ∧ claims.jti ≠ "admin"

/-- `Ulid::new` does not draw the shared identifier. -/
def Action.DrawsUlid : Action → Prop
  | .arrive _ _ => True
  | .advance _ r => "admin" ≠ r.ulid

instance decidableDrawsUlid : ∀ a : Action, Decidable a.DrawsUlid
  | .arrive _ _ => .isTrue trivial
  | .advance _ r => inferInstanceAs (Decidable ("admin" ≠ r.ulid))

variable {env} {st : State}

theorem unprivileged_new (clock : DateTime) : Unprivileged env (.new false clock) where
  guarded := ⟨rfl, rfl⟩
  calls := nofun
  accepted := nofun
  tokens := by
    rintro token ⟨i, c, hi, -⟩
    cases hi

theorem Unprivileged.arrive (h : Unprivileged env st) (i : Nat) (request : AuthRequest) :
    Unprivileged env
      { st with calls := update st.calls i (some (.start request)) } where
  guarded := h.guarded
  calls k d hk := by
    rcases of_update_some hk with ⟨-, rfl⟩ | ⟨-, hold⟩
    · exact nofun
    · exact h.calls k d hold
  accepted k d session hk hd := by
    rcases of_update_some hk with ⟨-, rfl⟩ | ⟨-, hold⟩
    · cases hd
    · exact h.accepted k d session hold hd
  tokens := by
    rintro token ⟨k, d, hk, hd⟩
    rcases of_update_some hk with ⟨-, rfl⟩ | ⟨-, hold⟩
    · cases hd
    · exact h.tokens token ⟨k, d, hold, hd⟩

/-- A session check is the only way for a call to be about a session. -/
theorem Guarded.next_session (h : Guarded svc) (hc : c.session ≠ some "admin") :
    (c.next env r svc).2.1.session ≠ some "admin" := by
  have hs : SessionStep "admin" r svc c (c.next env r svc) := next_sessionStep env c
  generalize c.next env r svc = result at hs
  cases hs with
  | aside hc' => exact hc'
  | minted hjti hc' => rw [hc']; exact nofun
  | passed hactivity => rw [h.activity] at hactivity; cases hactivity
  | idled hactivity => rw [h.activity] at hactivity; cases hactivity
  | touched => exact absurd rfl hc
  | loggedOut => exact nofun
  | removed => exact absurd rfl hc
  | exchanged => exact nofun

theorem Unprivileged.advance (h : Unprivileged env st) {i : Nat}
    (hi : st.calls i = some c) (hulid : "admin" ≠ r.ulid) :
    Unprivileged env ⟨(c.next env r st.svc).1,
      update st.calls i (some (c.next env r st.svc).2.1), r.now,
      r.ulid :: st.drawn⟩ where
  guarded := h.guarded.next env (h.calls i c hi) hulid
  calls k d hk := by
    rcases of_update_some hk with ⟨-, rfl⟩ | ⟨-, hold⟩
    · exact h.guarded.next_session (h.calls i c hi)
    · exact h.calls k d hold
  accepted k d session hk hd := by
    rcases of_update_some hk with ⟨-, rfl⟩ | ⟨-, hold⟩
    · rcases next_accepted hd with hc | hactivity
      · exact h.accepted i c session hi hc
      · exact fun hjti => hactivity (hjti ▸ h.guarded.activity)
    · exact h.accepted k d session hold hd
  tokens := by
    rintro token ⟨k, d, hk, hd⟩
    rcases of_update_some hk with ⟨-, rfl⟩ | ⟨-, hold⟩
    · rcases next_token hd with hc | ⟨claims, hbuild, hjti⟩
      · exact h.tokens token ⟨i, c, hi, hc⟩
      · refine ⟨claims, hbuild, fun hadmin => ?_⟩
        rcases hjti with hjti | ⟨-, hbypass | hc⟩
        · exact hulid (hadmin.symm.trans hjti)
        · rw [h.guarded.bypass] at hbypass
          cases hbypass
        · exact h.calls i c hi hc
    · exact h.tokens token ⟨k, d, hold, hd⟩

theorem Unprivileged.fire (h : Unprivileged env st) {a : Action} (ha : a.DrawsUlid) :
    Unprivileged env (Auth.fire env st a).1 := by
  cases a with
  | arrive i request => exact h.arrive i request
  | advance i r =>
    unfold Auth.fire
    dsimp only
    split
    · exact h
    · next c hi => exact h.advance hi ha

theorem Unprivileged.fireAll {actions : List Action} (hactions : ∀ a ∈ actions, a.DrawsUlid) :
    ∀ {st : State}, Unprivileged env st → Unprivileged env (Auth.fireAll env st actions).1 := by
  induction actions with
  | nil => exact fun h => h
  | cons a actions ih =>
    intro st h
    exact ih (fun a' ha' => hactions a' (List.mem_cons_of_mem _ ha'))
      (h.fire (hactions a List.mem_cons_self))

end

/-! ## The scheduler -/

end Aetheris.Auth

namespace Aetheris

section

variable {W A R F : Type} (env : ServerEnv A R F) (ws : WorldState W F)

/-- The world with other reserved commands. -/
def WorldState.withCommands (stressTest : W → UInt16 → Bool → W)
    (spawnKindFor : W → UInt16 → F → F → F → ClientId → W × NetworkId) (clearWorld : W → W) :
    WorldState W F :=
  { ws with stressTest := stressTest, spawnKindFor := spawnKindFor, clearWorld := clearWorld }

variable [F32 F] {env} (stressTest : W → UInt16 → Bool → W)
  (spawnKindFor : W → UInt16 → F → F → F → ClientId → W × NetworkId) (clearWorld : W → W)

namespace TickState

variable (st : TickState W A R)

theorem handleProtocol_withCommands {jti : String}
    (hjti : canRunPlaygroundCommand env jti = false) (c : ClientId) (raw : Bytes) :
    st.handleProtocol env (ws.withCommands stressTest spawnKindFor clearWorld) c jti raw =
      st.handleProtocol env ws c jti raw := by
  unfold handleProtocol
  rw [hjti]
  rfl

/-- No session on record may use the reserved commands. -/
def Unarmed (env : ServerEnv A R F) (s : TickScheduler A R) : Prop :=
  ∀ c r, s.authenticatedClients.lookup c = some r → canRunPlaygroundCommand env r.1.jti = false

theorem handleMessage_withCommands (h : Unarmed env st.sched) (tick : UInt64) (now : Instant)
    (c : ClientId) (raw : Bytes) :
    st.handleMessage env (ws.withCommands stressTest spawnKindFor clearWorld) tick now c raw =
      st.handleMessage env ws tick now c raw := by
  unfold handleMessage
  split
  · next session agent hrecord =>
    dsimp only
    split
    · exact handleProtocol_withCommands ws stressTest spawnKindFor clearWorld _ (h c _ hrecord) c raw
    · rfl
  · rfl

theorem handleFragment_withCommands (h : Unarmed env st.sched) (tick : UInt64) (now : Instant)
    (c : ClientId) (fragment : FragmentedEvent) :
    st.handleFragment env (ws.withCommands stressTest spawnKindFor clearWorld) tick now c
      fragment = st.handleFragment env ws tick now c fragment := by
  unfold handleFragment
  dsimp only
  split
  · refine handleMessage_withCommands ws stressTest spawnKindFor clearWorld _ ?_ tick now c _
    exact h
  · rfl

theorem handleRaw_withCommands (h : Unarmed env st.sched) (tick : UInt64) (now : Instant)
    (c : ClientId) (data : Bytes) :
    st.handleRaw env (ws.withCommands stressTest spawnKindFor clearWorld) tick now c data =
      st.handleRaw env ws tick now c data := by
  unfold handleRaw
  split
  · exact handleFragment_withCommands ws stressTest spawnKindFor clearWorld _ h tick now c _
  · exact handleMessage_withCommands ws stressTest spawnKindFor clearWorld _ h tick now c data

theorem handleEvent_withCommands (h : Unarmed env st.sched) (tick : UInt64) (now : Instant)
    (event : NetworkEvent F) :
    st.handleEvent env (ws.withCommands stressTest spawnKindFor clearWorld) tick now event =
      st.handleEvent env ws tick now event := by
  unfold handleEvent
  split
  · exact handleFragment_withCommands ws stressTest spawnKindFor clearWorld _ h tick now _ _
  · exact handleRaw_withCommands ws stressTest spawnKindFor clearWorld _ h tick now _ _
  · exact handleRaw_withCommands ws stressTest spawnKindFor clearWorld _ h tick now _ _
  all_goals rfl

end TickState

open TickState

variable {I : A → Prop} {Q : A → VerifiedSession → Prop} {s : TickScheduler A R}

theorem handleEvents_withCommands (hv : env.verifier.Vets I Q)
    (hQ : ∀ a session, Q a session → canRunPlaygroundCommand env session.jti = false)
    (tick : UInt64) (now : Instant) (events : List (NetworkEvent F)) :
    ∀ {st : TickState W A R}, Vetted I Q st.sched →
      events.foldl (handleEvent env (ws.withCommands stressTest spawnKindFor clearWorld) tick now)
        st = events.foldl (handleEvent env ws tick now) st := by
  induction events with
  | nil => exact fun _ => rfl
  | cons event events ih =>
    intro st h
    have hunarmed : Unarmed env st.sched := fun c r hr => hQ _ _ (h.sessions c r hr)
    rw [List.foldl_cons, List.foldl_cons,
      handleEvent_withCommands ws stressTest spawnKindFor clearWorld st hunarmed]
    exact ih (h.handleEvent hv tick now event)

/-- The batch of a tick is handled without the reserved commands. -/
theorem receiveStage_withCommands (hv : env.verifier.Vets I Q)
    (hQ : ∀ a session, Q a session → canRunPlaygroundCommand env session.jti = false)
    (h : Vetted I Q s) (tick : UInt64) (now : Instant) (world : W)
    (events : List (NetworkEvent F)) :
    receiveStage env (ws.withCommands stressTest spawnKindFor clearWorld) tick now s world events =
      receiveStage env ws tick now s world events := by
  have hvalidated : Vetted I Q (if tick % 60 = 0 then
      (TickState.start s world).validateSessions env ws tick else .start s world).sched := by
    split
    · exact Vetted.validateSessions hv h tick
    · exact h
  have hevents := handleEvents_withCommands ws stressTest spawnKindFor clearWorld hv hQ tick now
    events hvalidated
  unfold receiveStage applyEvents
  dsimp only
  split
  · rfl
  · have hsame : (if tick % 60 = 0 then (TickState.start s world).validateSessions env
        (ws.withCommands stressTest spawnKindFor clearWorld) tick else .start s world) =
        if tick % 60 = 0 then (TickState.start s world).validateSessions env ws tick
        else .start s world := rfl
    have hboth := (congrArg (List.foldl _ · events) hsame).trans hevents
    exact congrArg (fun st : TickState W A R => { st with
      world := ws.applyUpdates st.world st.updates
      sched := { st.sched with reassembler := env.reassembler.prune st.sched.reassembler } })
      hboth

end

end Aetheris

namespace Aetheris.Auth

/-! ## Runs -/

section

variable {W A R F : Type} [F32 F]

/-- `Ulid::new` does not draw the shared identifier in this action. -/
def SystemAction.DrawsUlid : SystemAction F → Prop
  | .grpc a => a.DrawsUlid
  | .tick _ turns => ∀ n request, ∀ a ∈ (turns n).actions request, a.DrawsUlid

/-- Nothing that has happened at the service gives a privilege, and nothing that is to come will. -/
structure Shared.Guarded (env : AuthEnv) (st₀ : State) (sh : Shared) : Prop where
  state : Unprivileged env (sh.state env st₀)
  turns : ∀ n request, ∀ a ∈ (sh.turns n).actions request, a.DrawsUlid

variable {env : AuthEnv} {st₀ : State}

theorem Shared.Guarded.ask {sh : Shared} (h : sh.Guarded env st₀) (request : AuthRequest) :
    (sh.ask env st₀ request).1.Guarded env st₀ := by
  refine ⟨?_, fun n => h.turns (n + 1)⟩
  have hstate : (sh.ask env st₀ request).1.state env st₀ =
      (Auth.fireAll env (sh.state env st₀) ((sh.turns 0).actions request)).1 :=
    fireAll_append st₀ sh.log _
  rw [hstate]
  exact h.state.fireAll (h.turns 0 request)

theorem sharedVerifier_guarded : (sharedVerifier env st₀).Vets (Shared.Guarded env st₀)
    fun _ session => session.jti ≠ "admin" where
  authorized sh jti tick h := by
    rw [sharedVerifier_isSessionAuthorized]
    exact ⟨h.ask _, fun _ hsession => hsession⟩
  verified sh token tick h := by
    rw [sharedVerifier_verifySession]
    refine ⟨h.ask _, fun _ hsession => hsession, fun session hok => ?_⟩
    obtain ⟨i, c, hi, hc⟩ := verifySession_accepted hok
    exact (h.ask _).state.accepted i c session hi hc

/-- The invariant of a system without the bypass. -/
structure NoPrivilege (env : AuthEnv) (st₀ : State) (sys : System W R) : Prop where
  state : Unprivileged env (sys.1.authService.state env st₀)
  sessions : ∀ c r, sys.1.authenticatedClients.lookup c = some r → r.1.jti ≠ "admin"

variable (base : ServerEnv A R F) (ws : WorldState W F) {sys : System W R}

/-- The state in which a tick starts. -/
theorem NoPrivilege.vetted (h : NoPrivilege env st₀ sys) {turns : Nat → Turn}
    (hturns : ∀ n request, ∀ a ∈ (turns n).actions request, a.DrawsUlid) :
    Vetted (Shared.Guarded env st₀) (fun _ session => session.jti ≠ "admin")
      { sys.1 with authService := ⟨sys.1.authService.log, turns⟩ } :=
  ⟨⟨h.state, hturns⟩, h.sessions⟩

theorem NoPrivilege.step (h : NoPrivilege env st₀ sys) {a : SystemAction F} (ha : a.DrawsUlid) :
    NoPrivilege env st₀ (sys.step (base.withVerifier (sharedVerifier env st₀)) ws a) := by
  cases a with
  | grpc a =>
    refine ⟨?_, h.sessions⟩
    have hstate : Shared.state env st₀
        ⟨sys.1.authService.log ++ [a], sys.1.authService.turns⟩ =
          (Auth.fireAll env (sys.1.authService.state env st₀) [a]).1 :=
      fireAll_append st₀ _ _
    have ha : a.DrawsUlid := ha
    show Unprivileged env (Shared.state env st₀
      ⟨sys.1.authService.log ++ [a], sys.1.authService.turns⟩)
    rw [hstate]
    exact h.state.fireAll (by simpa using ha)
  | tick input turns =>
    have hv : (base.withVerifier (sharedVerifier env st₀)).verifier.Vets
      (Shared.Guarded env st₀) fun _ session => session.jti ≠ "admin" := sharedVerifier_guarded
    have hafter : Vetted (Shared.Guarded env st₀) (fun _ session => session.jti ≠ "admin")
        (sys.step (base.withVerifier (sharedVerifier env st₀)) ws (.tick input turns)).1 :=
      (h.vetted ha).tickStep hv sys.2 input
    exact ⟨hafter.service.state, hafter.sessions⟩

theorem NoPrivilege.run {actions : List (SystemAction F)} (hactions : ∀ a ∈ actions, a.DrawsUlid) :
    ∀ {sys : System W R}, NoPrivilege env st₀ sys →
      NoPrivilege env st₀ (sys.run (base.withVerifier (sharedVerifier env st₀)) ws actions) := by
  induction actions with
  | nil => exact fun h => h
  | cons a actions ih =>
    intro sys h
    exact ih (fun a' ha' => hactions a' (List.mem_cons_of_mem _ ha'))
      (h.step base ws (hactions a List.mem_cons_self))

/-- Without the bypass and outside of a development server, no session token is ever minted for the
shared identifier, and the next tick is what it would be with any other reserved commands: the stress
test of tick zero is the only one it can run, and that is not the doing of a message. -/
theorem no_privilege_without_bypass (env : AuthEnv) (clock : DateTime) (base : ServerEnv A R F)
    (hdev : base.isDev = false) (ws : WorldState W F) (tickRate : UInt64) (reassembler : R)
    (hasOutbound spawnAtZero : Bool) (turns₀ : Nat → Turn) (world : W)
    (actions : List (SystemAction F)) (hactions : ∀ a ∈ actions, a.DrawsUlid) :
    let server := base.withVerifier (sharedVerifier env (.new false clock))
    let sys := System.run server ws
      (.initial tickRate turns₀ reassembler hasOutbound spawnAtZero world) actions
    let st := sys.1.authService.state env (.new false clock)
    (∀ token, Issued st token → ∃ claims, env.build claims = .ok token ∧ claims.jti ≠ "admin") ∧
      st.svc.sessionActivity "admin" = none ∧
      ∀ (events : List (NetworkEvent F)) (now : Instant) (turns : Nat → Turn),
        (SystemAction.tick ⟨.ok events, now⟩ turns).DrawsUlid →
        ∀ stressTest spawnKindFor clearWorld,
          let ws' := ws.withCommands stressTest spawnKindFor clearWorld
          let s := { sys.1 with authService := ⟨sys.1.authService.log, turns⟩ }
          tickStep server ws s sys.2 ⟨.ok events, now⟩ =
            sendStage server ws' (receiveStage server ws' s.currentTick now
              { s with currentTick := s.currentTick + 1 } (preStage ws s sys.2) events) := by
  intro server sys st
  have hinitial : NoPrivilege env (.new false clock)
      (System.initial tickRate turns₀ reassembler hasOutbound spawnAtZero world) := by
    refine ⟨unprivileged_new clock, fun c r hr => ?_⟩
    have hempty : none = some r := (AList.lookup_empty c).symm.trans hr
    cases hempty
  have hsys : NoPrivilege env (.new false clock) sys := hinitial.run base ws hactions
  refine ⟨hsys.state.tokens, hsys.state.guarded.activity, ?_⟩
  intro events now turns hturns stressTest spawnKindFor clearWorld ws' s
  have hv : server.verifier.Vets (Shared.Guarded env (.new false clock))
    fun _ session => session.jti ≠ "admin" := sharedVerifier_guarded
  have hs : Vetted (Shared.Guarded env (.new false clock))
      (fun _ session => session.jti ≠ "admin") { s with currentTick := s.currentTick + 1 } :=
    (hsys.vetted hturns).keeps (.of_eq rfl rfl)
  have hreceived := receiveStage_withCommands ws stressTest spawnKindFor clearWorld hv
    (fun _ session hjti => ?_) hs s.currentTick now (preStage ws s sys.2) events
  · show sendStage server ws (receiveStage server ws _ _ _ _ _) = _
    rw [← hreceived]
    rfl
  · have hserver : server.isDev = false := hdev
    unfold canRunPlaygroundCommand
    rw [hserver, Bool.or_false, decide_eq_false hjti]

end

theorem plainTurns_drawsUlid (n : Nat) :
    ∀ k request, ∀ a ∈ (plainTurns n k).actions request, a.DrawsUlid := by
  have hulid : ∀ m, "admin" ≠ plainUlid m := fun m heq =>
    absurd (congrArg String.length heq) (by rw [plainUlid_length]; decide)
  intro k request a ha
  simp only [Turn.actions, plainTurns, List.nil_append, List.cons_append, List.mem_cons,
    List.not_mem_nil, or_false] at ha
  rcases ha with rfl | rfl | rfl
  · trivial
  · exact hulid _
  · exact hulid _

/-- A login over gRPC, and the login of client 1 with the token. -/
def plainActions : List (SystemAction ℚ) :=
  loggedInActions.map .grpc ++ [.tick ⟨.ok [.reliableMessage ⟨1⟩ [0]], 0⟩ (plainTurns 5)]

def plainSystem : System (BevyWorldAdapter ℚ) Unit := tokenRun loggedInToken plainActions

theorem plainActions_drawUlid : ∀ a ∈ plainActions, a.DrawsUlid := by
  have hlogin : ∀ a ∈ loggedInActions, a.DrawsUlid := by decide +kernel
  intro a ha
  rcases List.mem_append.mp ha with ha | ha
  · obtain ⟨action, haction, rfl⟩ := List.mem_map.mp ha
    exact hlogin action haction
  · obtain rfl := List.mem_singleton.mp ha
    exact plainTurns_drawsUlid 5

/-- Client 1 is on record, and its request to clear the world comes to the same whatever
`clear_world` does. -/
theorem no_privilege_without_bypass_clear :
    let server := (tokenServer loggedInToken).withVerifier (sharedVerifier plainEnv (.new false 0))
    let ws := bevyWorldState rationalPlatform
    let ws' := ws.withCommands (fun w _ _ => w) (fun w _ _ _ _ _ => (w, ⟨0⟩)) id
    let s := { plainSystem.1 with
      authService := ⟨plainSystem.1.authService.log, plainTurns 10⟩ }
    (plainSystem.1.authenticatedClients.lookup ⟨1⟩).isSome ∧
      tickStep server ws s plainSystem.2 ⟨.ok [.reliableMessage ⟨1⟩ [3]], 1⟩ =
        sendStage server ws' (receiveStage server ws' s.currentTick 1
          { s with currentTick := s.currentTick + 1 } (preStage ws s plainSystem.2)
          [.reliableMessage ⟨1⟩ [3]]) := by
  have h := no_privilege_without_bypass plainEnv 0 (tokenServer loggedInToken) rfl
    (bevyWorldState rationalPlatform) 60 () false false (plainTurns 0)
    BevyWorldAdapter.emptyAdapter plainActions plainActions_drawUlid
  refine ⟨by decide +kernel, ?_⟩
  exact h.2.2 [.reliableMessage ⟨1⟩ [3]] 1 (plainTurns 10) (plainTurns_drawsUlid 10) _ _ _

end Aetheris.Auth
