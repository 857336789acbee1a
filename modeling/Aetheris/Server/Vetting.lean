import Aetheris.Server.Sessions

/-!
# Sessions the verifier has accepted

A client gets on record only by a session that `verify_session` has just accepted. Whatever the
verifier promises of the sessions it accepts (`AuthSessionVerifier.Vets`) therefore holds of every
session on record, at every moment of a run (`Vetted`).
-/

namespace Aetheris

variable {W A R F : Type}

/-- `I` holds of the state of the verifier after every question, and `Q` of a session from the
moment it is accepted. -/
structure AuthSessionVerifier.Vets (v : AuthSessionVerifier A) (I : A → Prop)
    (Q : A → VerifiedSession → Prop) : Prop where
  authorized : ∀ a jti tick, I a → I (v.isSessionAuthorized a jti tick).1 ∧
    ∀ session, Q a session → Q (v.isSessionAuthorized a jti tick).1 session
  verified : ∀ a token tick, I a → I (v.verifySession a token tick).1 ∧
    (∀ session, Q a session → Q (v.verifySession a token tick).1 session) ∧
    ∀ session, (v.verifySession a token tick).2 = .ok session →
      Q (v.verifySession a token tick).1 session

/-- What a verifier has promised of the sessions on record. -/
structure Vetted (I : A → Prop) (Q : A → VerifiedSession → Prop) (s : TickScheduler A R) :
    Prop where
  service : I s.authService
  sessions : ∀ c r, s.authenticatedClients.lookup c = some r → Q s.authService r.1

/-- Every session on record was on record before, and the verifier was not asked. -/
def KeepsSessions (s s' : TickScheduler A R) : Prop :=
  s'.authService = s.authService ∧ ∀ c r, s'.authenticatedClients.lookup c = some r →
    ∃ r', s.authenticatedClients.lookup c = some r' ∧ r'.1 = r.1

namespace KeepsSessions

variable {s s' s'' : TickScheduler A R}

theorem of_eq (hauth : s'.authService = s.authService)
    (hclients : s'.authenticatedClients = s.authenticatedClients) : KeepsSessions s s' :=
  ⟨hauth, fun _ r hr => ⟨r, hclients ▸ hr, rfl⟩⟩

theorem trans (h : KeepsSessions s s') (h' : KeepsSessions s' s'') : KeepsSessions s s'' := by
  refine ⟨h'.1.trans h.1, fun c r hr => ?_⟩
  obtain ⟨r', hr', hsession'⟩ := h'.2 c r hr
  obtain ⟨r'', hr'', hsession''⟩ := h.2 c r' hr'
  exact ⟨r'', hr'', hsession''.trans hsession'⟩

theorem setAgent (hauth : s'.authService = s.authService) {c : ClientId}
    {agent : Option NetworkId}
    (hclients : s'.authenticatedClients =
      TickState.setAgent s.authenticatedClients c agent) : KeepsSessions s s' := by
  refine ⟨hauth, fun c' r hr => ?_⟩
  rw [hclients, lookup_setAgent] at hr
  obtain ⟨r', hr', rfl⟩ := Option.map_eq_some_iff.mp hr
  refine ⟨r', hr', ?_⟩
  split <;> rfl

end KeepsSessions

namespace TickState

variable (env : ServerEnv A R F) (ws : WorldState W F) (st : TickState W A R)

theorem dropClient_authService (c : ClientId) :
    (st.dropClient ws c).sched.authService = st.sched.authService := by
  unfold dropClient
  dsimp only
  split <;> rfl

theorem dropClient_keepsSessions (c : ClientId) :
    KeepsSessions st.sched (st.dropClient ws c).sched := by
  refine ⟨st.dropClient_authService ws c, fun c' r hr => ⟨r, ?_, rfl⟩⟩
  rw [dropClient_clients] at hr
  by_cases hc : c' = c
  · rw [hc, AList.lookup_erase] at hr
    cases hr
  · rwa [AList.lookup_erase_ne hc] at hr

theorem kickClients_keepsSessions (cs : List ClientId) :
    KeepsSessions st.sched (cs.foldl (kickClient ws) st).sched := by
  induction cs generalizing st with
  | nil => exact .of_eq rfl rfl
  | cons c cs ih => exact (st.dropClient_keepsSessions ws c).trans (ih (st.kickClient ws c))

theorem startSession_keepsSessions [F32 F] (c : ClientId) :
    KeepsSessions st.sched (st.startSession ws c).sched := by
  unfold startSession
  split
  · exact .of_eq rfl rfl
  · exact .setAgent rfl rfl
  · exact .of_eq rfl rfl

theorem handleProtocol_keepsSessions [F32 F] (c : ClientId) (jti : String) (raw : Bytes) :
    KeepsSessions st.sched (st.handleProtocol env ws c jti raw).sched := by
  unfold handleProtocol
  split
  · exact .of_eq rfl rfl
  · split <;> exact .of_eq rfl rfl
  · split <;> exact .of_eq rfl rfl
  · exact st.startSession_keepsSessions ws c
  · split
    · exact .setAgent rfl rfl
    · exact .of_eq rfl rfl
  · exact .of_eq rfl rfl
  · exact .of_eq rfl rfl
  · exact .of_eq rfl rfl
  · split <;> exact .of_eq rfl rfl

theorem sendStage_keepsSessions :
    KeepsSessions st.sched (sendStage env ws st).1.1 := by
  have hsent : ∃ m, (sendStage env ws st).1.1 = { st.sched with nextMessageId := m } :=
    sendBatches_sched env _ _ _
  obtain ⟨m, hm⟩ := hsent
  rw [hm]
  exact .of_eq rfl rfl

/-- The scheduler with another state of the verifier. -/
def withAuth (auth : A) : TickState W A R :=
  { st with sched := { st.sched with authService := auth } }

/-- A client without a session can only have a token verified. -/
theorem handleUnauthenticated_cases (tick : UInt64) (now : Instant) (c : ClientId) (raw : Bytes) :
    st.handleUnauthenticated env ws tick now c raw = st ∨
      ∃ token auth, (∃ e, env.verifier.verifySession st.sched.authService token (some tick) =
          (auth, .error e) ∧
          st.handleUnauthenticated env ws tick now c raw = st.withAuth auth) ∨
        ∃ session, env.verifier.verifySession st.sched.authService token (some tick) =
          (auth, .ok session) ∧ st.handleUnauthenticated env ws tick now c raw =
            (st.withAuth auth).login env ws now c session := by
  unfold handleUnauthenticated
  split
  · next token _ =>
    refine .inr ⟨token, ?_⟩
    cases hverify : env.verifier.verifySession st.sched.authService token (some tick) with
    | mk auth result =>
      cases result with
      | error e => exact ⟨auth, .inl ⟨e, rfl, rfl⟩⟩
      | ok session => exact ⟨auth, .inr ⟨session, rfl, rfl⟩⟩
  · exact .inl rfl

end TickState

namespace Vetted

open TickState

variable {env : ServerEnv A R F} {ws : WorldState W F} {I : A → Prop}
  {Q : A → VerifiedSession → Prop} {s s' : TickScheduler A R}

theorem keeps (h : Vetted I Q s) (hkeeps : KeepsSessions s s') : Vetted I Q s' := by
  refine ⟨hkeeps.1 ▸ h.service, fun c r hr => ?_⟩
  obtain ⟨r', hr', hsession⟩ := hkeeps.2 c r hr
  rw [hkeeps.1, ← hsession]
  exact h.sessions c r' hr'

/-- The verifier has answered a question. -/
theorem withAuth {auth : A} (h : Vetted I Q s) (hauth : I auth)
    (hsessions : ∀ session, Q s.authService session → Q auth session) :
    Vetted I Q { s with authService := auth } :=
  ⟨hauth, fun c r hr => hsessions _ (h.sessions c r hr)⟩

/-- A session that was just accepted goes on record. -/
theorem login {st : TickState W A R} (h : Vetted I Q st.sched) (now : Instant) (c : ClientId)
    {session : VerifiedSession} (hsession : Q st.sched.authService session) :
    Vetted I Q (st.login env ws now c session).sched := by
  have hkicks := st.kickClients_keepsSessions ws
    (oldClients env st.sched.authenticatedClients c session)
  unfold TickState.login
  dsimp only
  generalize (oldClients env st.sched.authenticatedClients c session).foldl (kickClient ws) st =
    st' at hkicks ⊢
  have h' := h.keeps hkicks
  refine ⟨h'.service, fun c' r hr => ?_⟩
  have hr : (st'.sched.authenticatedClients.insert c (session, none)).lookup c' = some r := hr
  by_cases hc : c' = c
  · rw [hc, AList.lookup_insert] at hr
    rw [← Option.some.inj hr]
    exact hkicks.1 ▸ hsession
  · rw [AList.lookup_insert_ne hc] at hr
    exact h'.sessions c' r hr

variable (hv : env.verifier.Vets I Q)

include hv

theorem checkSessions (tick : UInt64) (records : Clients) (cs : List ClientId) :
    ∀ acc : A × List ClientId, I acc.1 →
      I (cs.foldl (checkSession env tick records) acc).1 ∧
      ∀ session, Q acc.1 session →
        Q (cs.foldl (checkSession env tick records) acc).1 session := by
  induction cs with
  | nil => exact fun acc hacc => ⟨hacc, fun _ h => h⟩
  | cons c cs ih =>
    intro acc hacc
    rw [List.foldl_cons]
    have hstep : I (checkSession env tick records acc c).1 ∧ ∀ session, Q acc.1 session →
        Q (checkSession env tick records acc c).1 session := by
      unfold checkSession
      split
      · exact hv.authorized acc.1 _ _ hacc
      · exact ⟨hacc, fun _ h => h⟩
    obtain ⟨hI, hQ⟩ := ih _ hstep.1
    exact ⟨hI, fun session hsession => hQ session (hstep.2 session hsession)⟩

theorem validateSessions {st : TickState W A R} (h : Vetted I Q st.sched) (tick : UInt64) :
    Vetted I Q (st.validateSessions env ws tick).sched := by
  obtain ⟨hI, hQ⟩ := checkSessions hv tick st.sched.authenticatedClients
    (env.clientOrder st.sched.authenticatedClients.keys) (st.sched.authService, []) h.service
  exact (h.withAuth hI hQ).keeps (kickClients_keepsSessions ws _ _)

theorem handleUnauthenticated {st : TickState W A R} (h : Vetted I Q st.sched) (tick : UInt64)
    (now : Instant) (c : ClientId) (raw : Bytes) :
    Vetted I Q (st.handleUnauthenticated env ws tick now c raw).sched := by
  rcases st.handleUnauthenticated_cases env ws tick now c raw with
    heq | ⟨token, auth, ⟨e, hverify, heq⟩ | ⟨session, hverify, heq⟩⟩
  · rw [heq]
    exact h
  · obtain ⟨hI, hQ, -⟩ := hv.verified st.sched.authService token (some tick) h.service
    rw [hverify] at hI hQ
    rw [heq]
    exact h.withAuth hI hQ
  · obtain ⟨hI, hQ, hnew⟩ := hv.verified st.sched.authService token (some tick) h.service
    rw [hverify] at hI hQ hnew
    have h' : Vetted I Q (st.withAuth auth).sched := h.withAuth hI hQ
    rw [heq]
    exact h'.login now c (hnew session rfl)

theorem handleMessage [F32 F] {st : TickState W A R} (h : Vetted I Q st.sched) (tick : UInt64)
    (now : Instant) (c : ClientId) (raw : Bytes) :
    Vetted I Q (st.handleMessage env ws tick now c raw).sched := by
  unfold TickState.handleMessage
  split
  · next session agent _ =>
    obtain ⟨hI, hQ⟩ := hv.authorized st.sched.authService session.jti (some tick) h.service
    dsimp only
    split
    · exact (h.withAuth hI hQ).keeps (handleProtocol_keepsSessions env ws _ c _ raw)
    · exact (h.withAuth hI hQ).keeps (dropClient_keepsSessions ws _ c)
  · exact h.handleUnauthenticated hv tick now c raw

theorem handleFragment [F32 F] {st : TickState W A R} (h : Vetted I Q st.sched) (tick : UInt64)
    (now : Instant) (c : ClientId) (fragment : FragmentedEvent) :
    Vetted I Q (st.handleFragment env ws tick now c fragment).sched := by
  have h' : Vetted I Q ({ st with sched := { st.sched with reassembler :=
      (env.reassembler.ingest st.sched.reassembler c fragment).1 } } : TickState W A R).sched :=
    h.keeps (.of_eq rfl rfl)
  unfold TickState.handleFragment
  dsimp only
  split
  · exact h'.handleMessage hv tick now c _
  · exact h'

theorem handleRaw [F32 F] {st : TickState W A R} (h : Vetted I Q st.sched) (tick : UInt64)
    (now : Instant) (c : ClientId) (data : Bytes) :
    Vetted I Q (st.handleRaw env ws tick now c data).sched := by
  unfold TickState.handleRaw
  split
  · exact h.handleFragment hv tick now c _
  · exact h.handleMessage hv tick now c data

theorem handleEvent [F32 F] {st : TickState W A R} (h : Vetted I Q st.sched) (tick : UInt64)
    (now : Instant) (event : NetworkEvent F) :
    Vetted I Q (st.handleEvent env ws tick now event).sched := by
  unfold TickState.handleEvent
  split
  · exact h.handleFragment hv tick now _ _
  · exact h.handleRaw hv tick now _ _
  · exact h.handleRaw hv tick now _ _
  · exact h.keeps (st.dropClient_keepsSessions ws _)
  · exact h.keeps (st.dropClient_keepsSessions ws _)
  · exact h.keeps (st.dropClient_keepsSessions ws _)
  · exact h.keeps (st.dropClient_keepsSessions ws _)
  · split
    · exact h
    · exact h
  · exact h

theorem handleEvents [F32 F] (tick : UInt64) (now : Instant) (events : List (NetworkEvent F)) :
    ∀ {st : TickState W A R}, Vetted I Q st.sched →
      Vetted I Q (events.foldl (TickState.handleEvent env ws tick now) st).sched := by
  induction events with
  | nil => exact fun h => h
  | cons event events ih => exact fun h => ih (h.handleEvent hv tick now event)

theorem receiveStage [F32 F] (h : Vetted I Q s) (tick : UInt64) (now : Instant) (world : W)
    (events : List (NetworkEvent F)) :
    Vetted I Q (Aetheris.receiveStage env ws tick now s world events).sched := by
  unfold Aetheris.receiveStage
  have hvalidated : Vetted I Q (if tick % 60 = 0 then
      (TickState.start s world).validateSessions env ws tick else .start s world).sched := by
    split
    · exact validateSessions hv h tick
    · exact h
  unfold applyEvents
  dsimp only
  split
  · exact hvalidated
  · exact (handleEvents hv tick now events hvalidated).keeps (.of_eq rfl rfl)

theorem midTick [F32 F] (h : Vetted I Q s) (world : W) (now : Instant)
    (events : List (NetworkEvent F)) :
    Vetted I Q (Aetheris.midTick env ws s world now events).sched := by
  have hstart : Vetted I Q (TickState.start { s with currentTick := s.currentTick + 1 }
    (preStage ws s world)).sched := h.keeps (.of_eq rfl rfl)
  unfold Aetheris.midTick
  dsimp only
  refine handleEvents hv s.currentTick now events ?_
  split
  · exact validateSessions hv hstart s.currentTick
  · exact hstart

theorem tickStep [F32 F] (h : Vetted I Q s) (world : W) (input : TickInput F) :
    Vetted I Q (Aetheris.tickStep env ws s world input).1.1 := by
  unfold Aetheris.tickStep
  dsimp only
  split
  · exact h.keeps (.of_eq rfl rfl)
  · next events _ =>
    have h₀ : Vetted I Q { s with currentTick := s.currentTick + 1 } := h.keeps (.of_eq rfl rfl)
    have hreceived : Vetted I Q (Aetheris.receiveStage env ws s.currentTick input.now
        { s with currentTick := s.currentTick + 1 } (preStage ws s world) events).sched :=
      h₀.receiveStage hv s.currentTick input.now (preStage ws s world) events
    exact hreceived.keeps (sendStage_keepsSessions env ws _)

end Vetted

end Aetheris
