import Aetheris.Server.Auth.Lapse

/-!
# Idle sessions are dropped

A session that nobody uses lapses, so an hour later the periodic check finds it idle and drops its
client. The check goes through the same function as every other use of the session, though, and
refreshes it when the tick of the check is a refreshing tick of the session: a session whose byte
sum is a multiple of sixty is kept alive by being checked.
-/

namespace Aetheris.Auth

/-! ## Ticks -/

section

open TickState

variable {W A R F : Type} {c c' : ClientId} {jti : String}

/-- While `c` is on record no other client holds a session with this identifier. -/
def Alone (c : ClientId) (jti : String) (s : TickScheduler A R) : Prop :=
  ∀ c' r, c' ≠ c → s.authenticatedClients.lookup c' = some r → r.1.jti = jti →
    s.authenticatedClients.lookup c = none

/-- Client `c` is gone, or it holds a session that nobody has asked about since second `since`. -/
def Fading (env : AuthEnv) (st₀ : State) (c : ClientId) (jti : String) (since : Int)
    (s : TickScheduler Shared R) : Prop :=
  s.authenticatedClients.lookup c = none ∨
    (∃ r, s.authenticatedClients.lookup c = some r ∧ r.1.jti = jti) ∧
      Abandoned env st₀ jti since s.authService

variable {env : AuthEnv} {st₀ : State} {since : Int} {s s' : TickScheduler Shared R}

/-- The session of `c` is what it was, unless `c` is gone. -/
theorem Fading.of_lookup (h : Fading env st₀ c jti since s)
    (hlookup : ∀ r, s'.authenticatedClients.lookup c = some r →
      ∃ r', s.authenticatedClients.lookup c = some r' ∧ r'.1 = r.1)
    (hauth : Abandoned env st₀ jti since s.authService →
      s'.authenticatedClients.lookup c ≠ none → Abandoned env st₀ jti since s'.authService) :
    Fading env st₀ c jti since s' := by
  cases hc : s'.authenticatedClients.lookup c with
  | none => exact .inl hc
  | some r =>
    obtain ⟨r', hr', hsession⟩ := hlookup r hc
    rcases h with hnone | ⟨⟨r'', hr'', hjti⟩, habandoned⟩
    · rw [hnone] at hr'
      cases hr'
    · obtain rfl := Option.some.inj (hr'.symm.trans hr'')
      refine .inr ⟨⟨r, hc, ?_⟩, hauth habandoned (by rw [hc]; exact nofun)⟩
      rw [← hsession]
      exact hjti

theorem Fading.keeps (h : Fading env st₀ c jti since s) (hkeeps : KeepsSessions s s') :
    Fading env st₀ c jti since s' :=
  h.of_lookup (hkeeps.2 c) fun habandoned _ => hkeeps.1 ▸ habandoned

variable {base : ServerEnv A R F} {ws : WorldState W F} {tick : UInt64}

theorem Abandoned.checkSessions (hadmin : jti ≠ "admin") (htick : refreshes jti tick = false)
    (records : Clients) (cs : List ClientId) :
    ∀ {acc : Shared × List ClientId}, Abandoned env st₀ jti since acc.1 →
      Abandoned env st₀ jti since (cs.foldl
        (checkSession (base.withVerifier (sharedVerifier env st₀)) tick records) acc).1 := by
  induction cs with
  | nil => exact fun h => h
  | cons c cs ih =>
    intro acc h
    rw [List.foldl_cons]
    refine ih ?_
    unfold checkSession
    split
    · exact h.isSessionAuthorized hadmin fun _ => .inl htick
    · exact h

variable {st : TickState W Shared R}

theorem Fading.validateSessions (hadmin : jti ≠ "admin") (htick : refreshes jti tick = false)
    (h : Fading env st₀ c jti since st.sched) :
    Fading env st₀ c jti since
      (st.validateSessions (base.withVerifier (sharedVerifier env st₀)) ws tick).sched := by
  have hchecked : Fading env st₀ c jti since { st.sched with authService :=
      ((base.clientOrder st.sched.authenticatedClients.keys).foldl
        (checkSession (base.withVerifier (sharedVerifier env st₀)) tick
          st.sched.authenticatedClients) (st.sched.authService, [])).1 } :=
    h.of_lookup (fun r hr => ⟨r, hr, rfl⟩) fun habandoned _ =>
      Abandoned.checkSessions hadmin htick _ _ habandoned
  exact hchecked.keeps (kickClients_keepsSessions ws _ _)

theorem lookup_login_of_ne (hne : c' ≠ c) (server : ServerEnv A R F) (now : Instant)
    {st : TickState W A R} (session : VerifiedSession) (r : ClientRecord)
    (hr : (st.login server ws now c' session).sched.authenticatedClients.lookup c = some r) :
    ∃ r', st.sched.authenticatedClients.lookup c = some r' ∧ r'.1 = r.1 := by
  have hkicks := kickClients_keepsSessions ws st
    (oldClients server st.sched.authenticatedClients c' session)
  refine hkicks.2 c r ?_
  unfold login at hr
  dsimp only at hr
  rwa [AList.lookup_insert_ne hne.symm] at hr

theorem Fading.handleUnauthenticated (hadmin : jti ≠ "admin") (hne : c' ≠ c) (now : Instant)
    (h : Fading env st₀ c jti since st.sched) (raw : Bytes)
    (halone : Alone c jti (st.handleUnauthenticated
      (base.withVerifier (sharedVerifier env st₀)) ws tick now c' raw).sched) :
    Fading env st₀ c jti since (st.handleUnauthenticated
      (base.withVerifier (sharedVerifier env st₀)) ws tick now c' raw).sched := by
  rcases st.handleUnauthenticated_cases (base.withVerifier (sharedVerifier env st₀)) ws tick now c'
    raw with heq | ⟨token, auth, ⟨e, hverify, heq⟩ | ⟨session, hverify, heq⟩⟩
  · rw [heq]
    exact h
  · rw [heq]
    refine h.of_lookup (fun r hr => ⟨r, hr, rfl⟩) fun habandoned _ => ?_
    have hcases := habandoned.verifySession hadmin token tick
    rw [show (sharedVerifier env st₀).verifySession st.sched.authService token (some tick) =
      (auth, .error e) from hverify] at hcases
    exact hcases.resolve_right fun hok => by obtain ⟨session, hok, -⟩ := hok; cases hok
  · rw [heq] at halone ⊢
    refine h.of_lookup (lookup_login_of_ne hne _ now session) fun habandoned hpresent => ?_
    have hcases := habandoned.verifySession hadmin token tick
    rw [show (sharedVerifier env st₀).verifySession st.sched.authService token (some tick) =
      (auth, .ok session) from hverify] at hcases
    have hauth : ((st.withAuth auth).login (base.withVerifier (sharedVerifier env st₀)) ws now c'
        session).sched.authService = auth := (kickClients_keepsSessions ws (st.withAuth auth) _).1
    rw [hauth]
    refine hcases.resolve_right fun hok => hpresent ?_
    -- the other client now holds a session with the identifier
    obtain ⟨session', hok, hjti⟩ := hok
    obtain rfl := Except.ok.inj hok
    exact halone c' (session, none) hne (AList.lookup_insert _) hjti

variable [F32 F]

theorem Fading.handleMessage (hadmin : jti ≠ "admin") (hne : c' ≠ c) (now : Instant)
    (h : Fading env st₀ c jti since st.sched)
    (hbefore : Alone c jti st.sched) (raw : Bytes)
    (hafter : Alone c jti (st.handleMessage
      (base.withVerifier (sharedVerifier env st₀)) ws tick now c' raw).sched) :
    Fading env st₀ c jti since (st.handleMessage
      (base.withVerifier (sharedVerifier env st₀)) ws tick now c' raw).sched := by
  cases hc' : st.sched.authenticatedClients.lookup c' with
  | none =>
    unfold TickState.handleMessage at hafter ⊢
    rw [hc'] at hafter ⊢
    exact h.handleUnauthenticated hadmin hne now raw hafter
  | some record =>
    -- the session that is checked is another one
    have hchecked : Fading env st₀ c jti since (st.withAuth ((sharedVerifier env
        st₀).isSessionAuthorized st.sched.authService record.1.jti (some tick)).1).sched := by
      refine h.of_lookup (fun r hr => ⟨r, hr, rfl⟩) fun habandoned hpresent => ?_
      exact habandoned.isSessionAuthorized hadmin fun hjti =>
        absurd (hbefore c' record hne hc' hjti) hpresent
    unfold TickState.handleMessage
    rw [hc']
    dsimp only
    split
    · exact hchecked.keeps (handleProtocol_keepsSessions _ ws _ c' _ raw)
    · exact hchecked.keeps (dropClient_keepsSessions ws _ c')

theorem Fading.handleFragment (hadmin : jti ≠ "admin") (hne : c' ≠ c) (now : Instant)
    (h : Fading env st₀ c jti since st.sched)
    (hbefore : Alone c jti st.sched) (fragment : FragmentedEvent)
    (hafter : Alone c jti (st.handleFragment
      (base.withVerifier (sharedVerifier env st₀)) ws tick now c' fragment).sched) :
    Fading env st₀ c jti since (st.handleFragment
      (base.withVerifier (sharedVerifier env st₀)) ws tick now c' fragment).sched := by
  have h' : Fading env st₀ c jti since ({ st with sched := { st.sched with reassembler :=
      (base.reassembler.ingest st.sched.reassembler c' fragment).1 } } :
      TickState W Shared R).sched := h.keeps (.of_eq rfl rfl)
  unfold TickState.handleFragment at hafter ⊢
  dsimp only at hafter ⊢
  split
  · next raw hdata =>
    rw [hdata] at hafter
    exact h'.handleMessage hadmin hne now hbefore raw hafter
  · exact h'

theorem Fading.handleRaw (hadmin : jti ≠ "admin") (hne : c' ≠ c) (now : Instant)
    (h : Fading env st₀ c jti since st.sched)
    (hbefore : Alone c jti st.sched) (data : Bytes)
    (hafter : Alone c jti (st.handleRaw
      (base.withVerifier (sharedVerifier env st₀)) ws tick now c' data).sched) :
    Fading env st₀ c jti since (st.handleRaw
      (base.withVerifier (sharedVerifier env st₀)) ws tick now c' data).sched := by
  unfold TickState.handleRaw at hafter ⊢
  split
  · next fragment hdecode =>
    rw [hdecode] at hafter
    exact h.handleFragment hadmin hne now hbefore fragment hafter
  · next hdecode =>
    split at hafter
    · next fragment hfragment => exact absurd hfragment (hdecode _ fragment)
    · exact h.handleMessage hadmin hne now hbefore data hafter

/-- The event brings a message of the client, or a part of one. -/
def IsMessageOf (c : ClientId) : NetworkEvent F → Prop
  | .fragment c' _ | .unreliableMessage c' _ | .reliableMessage c' _ => c' = c
  | _ => False

theorem Fading.handleEvent (hadmin : jti ≠ "admin") (now : Instant)
    (h : Fading env st₀ c jti since st.sched) (hbefore : Alone c jti st.sched)
    {event : NetworkEvent F} (hevent : ¬ IsMessageOf c event)
    (hafter : Alone c jti (st.handleEvent
      (base.withVerifier (sharedVerifier env st₀)) ws tick now event).sched) :
    Fading env st₀ c jti since (st.handleEvent
      (base.withVerifier (sharedVerifier env st₀)) ws tick now event).sched := by
  unfold TickState.handleEvent at hafter ⊢
  split
  · exact h.handleFragment hadmin hevent now hbefore _ hafter
  · exact h.handleRaw hadmin hevent now hbefore _ hafter
  · exact h.handleRaw hadmin hevent now hbefore _ hafter
  · exact h.keeps (st.dropClient_keepsSessions ws _)
  · exact h.keeps (st.dropClient_keepsSessions ws _)
  · exact h.keeps (st.dropClient_keepsSessions ws _)
  · exact h.keeps (st.dropClient_keepsSessions ws _)
  · split
    · exact h
    · exact h
  · exact h

/-- No event of the batch is a message of `c`, and `c` is alone with its session throughout. -/
theorem Fading.handleEvents (hadmin : jti ≠ "admin") (now : Instant)
    (events : List (NetworkEvent F)) :
    ∀ {st : TickState W Shared R}, Fading env st₀ c jti since st.sched →
      (∀ event ∈ events, ¬ IsMessageOf c event) →
      (∀ before, before <+: events → Alone c jti (before.foldl (TickState.handleEvent
        (base.withVerifier (sharedVerifier env st₀)) ws tick now) st).sched) →
      Fading env st₀ c jti since (events.foldl (TickState.handleEvent
        (base.withVerifier (sharedVerifier env st₀)) ws tick now) st).sched := by
  induction events with
  | nil => exact fun h _ _ => h
  | cons event events ih =>
    intro st h hmessages halone
    have hfirst : Alone c jti st.sched := halone [] (List.nil_prefix)
    have hnext := halone [event] ⟨events, rfl⟩
    refine ih (h.handleEvent hadmin now hfirst (hmessages event List.mem_cons_self) hnext)
      (fun event' he => hmessages event' (List.mem_cons_of_mem _ he)) fun before hbefore => ?_
    obtain ⟨rest, rfl⟩ := hbefore
    exact halone (event :: before) ⟨rest, rfl⟩

/-- What a tick must not do for the session of `c` to lapse. -/
structure Idles (env : AuthEnv) (server : ServerEnv Shared R F) (ws : WorldState W F)
    (c : ClientId) (jti : String) (s : TickScheduler Shared R) (world : W) (input : TickInput F) :
    Prop where
  turns : ∀ n, (s.authService.turns n).Quiet env jti
  check : s.currentTick % 60 = 0 → refreshes jti s.currentTick = false
  messages : ∀ events, input.polled = .ok events → ∀ event ∈ events, ¬ IsMessageOf c event
  alone : ∀ events, input.polled = .ok events → ∀ before, before <+: events →
    Alone c jti (midTick server ws s world input.now before).sched

theorem Fading.midTick (hadmin : jti ≠ "admin") {world : W} {now : Instant}
    (h : Fading env st₀ c jti since s)
    (hcheck : s.currentTick % 60 = 0 → refreshes jti s.currentTick = false)
    {events : List (NetworkEvent F)} (hmessages : ∀ event ∈ events, ¬ IsMessageOf c event)
    (halone : ∀ before, before <+: events → Alone c jti
      (Aetheris.midTick (base.withVerifier (sharedVerifier env st₀)) ws s world now before).sched) :
    Fading env st₀ c jti since
      (Aetheris.midTick (base.withVerifier (sharedVerifier env st₀)) ws s world now
        events).sched := by
  have hstart : Fading env st₀ c jti since
      (TickState.start { s with currentTick := s.currentTick + 1 } (preStage ws s world)).sched :=
    h.keeps (.of_eq rfl rfl)
  unfold Aetheris.midTick at halone ⊢
  dsimp only at halone ⊢
  refine handleEvents hadmin now events ?_ hmessages halone
  split
  · next htick => exact hstart.validateSessions hadmin (hcheck htick)
  · exact hstart

theorem Fading.tickStep (hadmin : jti ≠ "admin") {world : W} {input : TickInput F}
    (h : Fading env st₀ c jti since s)
    (hidles : Idles env (base.withVerifier (sharedVerifier env st₀)) ws c jti s world input) :
    Fading env st₀ c jti since (Aetheris.tickStep (base.withVerifier (sharedVerifier env st₀)) ws
      s world input).1.1 := by
  unfold Aetheris.tickStep
  dsimp only
  split
  · exact h.keeps (.of_eq rfl rfl)
  · next events hpolled =>
    have hmid : Fading env st₀ c jti since (Aetheris.midTick
        (base.withVerifier (sharedVerifier env st₀)) ws s world input.now events).sched :=
      h.midTick hadmin hidles.check (hidles.messages events hpolled)
        (hidles.alone events hpolled)
    refine Fading.keeps ?_ (sendStage_keepsSessions _ ws _)
    unfold receiveStage applyEvents
    dsimp only
    split
    · next hempty =>
      obtain rfl := List.isEmpty_iff.mp hempty
      exact hmid
    · exact hmid.keeps (.of_eq rfl rfl)

end

/-! ## The check after the hour -/

section

open TickState

variable {W A R F : Type} {c : ClientId} {jti : String} {env : AuthEnv} {st₀ : State} {since : Int}
  {tick : UInt64} {base : ServerEnv A R F} {ws : WorldState W F} {records : Clients}

theorem checkSession_of_admitted {c : ClientId} {acc : Shared × List ClientId}
    (h : (checkSession (base.withVerifier (sharedVerifier env st₀)) tick records acc
      c).1.Admitted env st₀) : acc.1.Admitted env st₀ := by
  unfold checkSession at h
  split at h
  · next session _ _ =>
    have h : ((sharedVerifier env st₀).isSessionAuthorized acc.1 session.jti
      (some tick)).1.Admitted env st₀ := h
    rw [sharedVerifier_isSessionAuthorized] at h
    exact h.of_ask
  · exact h

theorem checkSessions_of_admitted (cs : List ClientId) :
    ∀ {acc : Shared × List ClientId}, (cs.foldl
      (checkSession (base.withVerifier (sharedVerifier env st₀)) tick records) acc).1.Admitted
        env st₀ → acc.1.Admitted env st₀ := by
  induction cs with
  | nil => exact fun h => h
  | cons c cs ih => exact fun h => checkSession_of_admitted (ih h)

theorem mem_checkSessions (cs : List ClientId) :
    ∀ {acc : Shared × List ClientId}, c ∈ acc.2 → c ∈ (cs.foldl
      (checkSession (base.withVerifier (sharedVerifier env st₀)) tick records) acc).2 := by
  induction cs with
  | nil => exact fun h => h
  | cons c' cs ih =>
    intro acc h
    rw [List.foldl_cons]
    refine ih ?_
    unfold checkSession
    split
    · dsimp only
      split
      · exact h
      · exact List.mem_append_left _ h
    · exact h

/-- Each question of a check that starts after the hour comes after the hour. -/
def Late (since : Int) (sh : Shared) : Prop :=
  ∀ n, since + 3600 < (sh.turns n).first.now.timestamp

theorem Late.isSessionAuthorized {sh : Shared} (h : Late since sh) (jti : String)
    (tick : Option UInt64) :
    Late since ((sharedVerifier env st₀).isSessionAuthorized sh jti tick).1 := by
  rw [sharedVerifier_isSessionAuthorized]
  exact fun n => h (n + 1)

/-- The client of a session that has lapsed is found by the check. -/
theorem mem_checkSessions_of_late (hadmin : jti ≠ "admin") {record : ClientRecord}
    (hrecord : records.lookup c = some record) (hjti : record.1.jti = jti) (cs : List ClientId) :
    ∀ {acc : Shared × List ClientId}, c ∈ cs → Abandoned env st₀ jti since acc.1 →
      Late since acc.1 →
      (cs.foldl (checkSession (base.withVerifier (sharedVerifier env st₀)) tick records)
        acc).1.Admitted env st₀ →
      c ∈ (cs.foldl (checkSession (base.withVerifier (sharedVerifier env st₀)) tick records)
        acc).2 := by
  induction cs with
  | nil => exact fun h => nomatch h
  | cons c' cs ih =>
    intro acc hc habandoned hlate hadmitted
    rw [List.foldl_cons] at hadmitted ⊢
    have hasked := checkSessions_of_admitted cs hadmitted
    by_cases heq : c' = c
    · subst heq
      refine mem_checkSessions cs ?_
      unfold checkSession at hasked ⊢
      rw [hrecord] at hasked ⊢
      dsimp only at hasked ⊢
      have hrefused : ((sharedVerifier env st₀).isSessionAuthorized acc.1 record.1.jti
          (some tick)).2 = false := by
        rw [hjti] at hasked ⊢
        exact habandoned.refused hadmin (hlate 0) hasked
      have hadded : c' ∈ if ((sharedVerifier env st₀).isSessionAuthorized acc.1 record.1.jti
          (some tick)).2 = true then acc.2 else acc.2 ++ [c'] := by
        rw [hrefused]
        exact List.mem_append_right _ List.mem_cons_self
      exact hadded
    · have hmem : c ∈ cs := (List.mem_cons.mp hc).resolve_left (Ne.symm heq)
      have hstep : Abandoned env st₀ jti since (checkSession
          (base.withVerifier (sharedVerifier env st₀)) tick records acc c').1 ∧
          Late since (checkSession (base.withVerifier (sharedVerifier env st₀)) tick records acc
            c').1 := by
        unfold checkSession
        split
        · exact ⟨habandoned.isSessionAuthorized hadmin fun _ => .inr (hlate 0),
            hlate.isSessionAuthorized _ _⟩
        · exact ⟨habandoned, hlate⟩
      exact ih hmem hstep.1 hstep.2 hadmitted

variable [F32 F] {s : TickScheduler Shared R}

/-- The validation drops the client of a session that has lapsed. -/
theorem Fading.dropped (hadmin : jti ≠ "admin") (h : Fading env st₀ c jti since s)
    (hlate : Late since s.authService) (htick : s.currentTick % 60 = 0) (world : W)
    (now : Instant)
    (hadmitted : (Aetheris.midTick (base.withVerifier (sharedVerifier env st₀)) ws s world now
      []).sched.authService.Admitted env st₀) :
    (Aetheris.midTick (base.withVerifier (sharedVerifier env st₀)) ws s world now
      []).sched.authenticatedClients.lookup c = none := by
  unfold Aetheris.midTick at hadmitted ⊢
  dsimp only at hadmitted ⊢
  rw [if_pos htick] at hadmitted ⊢
  rw [List.foldl_nil] at hadmitted ⊢
  unfold TickState.validateSessions at hadmitted ⊢
  dsimp only at hadmitted ⊢
  rw [lookup_kickClients]
  rw [(kickClients_keepsSessions ws _ _).1] at hadmitted
  rcases h with hnone | ⟨⟨record, hrecord, hjti⟩, habandoned⟩
  · split
    · rfl
    · exact hnone
  · refine if_pos (mem_checkSessions_of_late hadmin hrecord hjti _ ?_ habandoned hlate hadmitted)
    have hmem : c ∈ s.authenticatedClients := AList.lookup_isSome.mp (by rw [hrecord]; rfl)
    exact (base.clientOrder_perm _).mem_iff.mpr (AList.mem_keys.mp hmem)

end

/-! ## Runs -/

section

variable {W A R F : Type} [F32 F] {c : ClientId} {jti : String} {env : AuthEnv} {st₀ : State}
  {since : Int} {base : ServerEnv A R F} {ws : WorldState W F}

/-- A period in which nobody uses the session of `c`. -/
def IdlePeriod (env : AuthEnv) (server : ServerEnv Shared R F) (ws : WorldState W F)
    (c : ClientId) (jti : String) : System W R → List (SystemAction F) → Prop
  | _, [] => True
  | sys, .grpc a :: actions =>
    a.Quiet env jti ∧ IdlePeriod env server ws c jti (sys.step server ws (.grpc a)) actions
  | sys, .tick input turns :: actions =>
    Idles env server ws c jti
        { sys.1 with authService := ⟨sys.1.authService.log, turns⟩ } sys.2 input ∧
      IdlePeriod env server ws c jti (sys.step server ws (.tick input turns)) actions

/-- Between two actions of the system: what `Fading` says without the questions to come. -/
def Waning (env : AuthEnv) (st₀ : State) (c : ClientId) (jti : String) (since : Int)
    (sys : System W R) : Prop :=
  sys.1.authenticatedClients.lookup c = none ∨
    (∃ r, sys.1.authenticatedClients.lookup c = some r ∧ r.1.jti = jti) ∧
      (sys.1.authService.Admitted env st₀ →
        Lapsing env jti since (sys.1.authService.state env st₀))

theorem Waning.fading {sys : System W R} (h : Waning env st₀ c jti since sys)
    {turns : Nat → Turn} (hturns : ∀ n, (turns n).Quiet env jti) :
    Fading env st₀ c jti since
      { sys.1 with authService := ⟨sys.1.authService.log, turns⟩ } :=
  h.imp_right fun hwaning => ⟨hwaning.1, hwaning.2, hturns⟩

theorem Waning.grpc (hadmin : jti ≠ "admin") {sys : System W R}
    (h : Waning env st₀ c jti since sys) {a : Action} (ha : a.Quiet env jti) :
    Waning env st₀ c jti since
      (sys.step (base.withVerifier (sharedVerifier env st₀)) ws (.grpc a)) := by
  refine h.imp_right fun hwaning => ⟨hwaning.1, fun hadmitted => ?_⟩
  obtain ⟨hbefore, hadm, -⟩ := (permits_append _ _ _).mp hadmitted
  have hstate : (sys.step (base.withVerifier (sharedVerifier env st₀)) ws
      (.grpc a)).1.authService.state env st₀ =
        (fire env (sys.1.authService.state env st₀) a).1 := fireAll_append st₀ _ [a]
  rw [hstate]
  exact (hwaning.2 hbefore).fire hadmin hadm ha

theorem Waning.run (hadmin : jti ≠ "admin") (actions : List (SystemAction F)) :
    ∀ {sys : System W R}, Waning env st₀ c jti since sys →
      IdlePeriod env (base.withVerifier (sharedVerifier env st₀)) ws c jti sys actions →
      Waning env st₀ c jti since
        (sys.run (base.withVerifier (sharedVerifier env st₀)) ws actions) := by
  induction actions with
  | nil => exact fun h _ => h
  | cons a actions ih =>
    intro sys h hperiod
    cases a with
    | grpc a => exact ih (h.grpc hadmin hperiod.1) hperiod.2
    | tick input turns =>
      have hticked := (h.fading hperiod.1.turns).tickStep hadmin hperiod.1
      exact ih (hticked.imp_right fun hfading => ⟨hfading.1, hfading.2.state⟩) hperiod.2

/-- The log only grows. -/
theorem sharedVerifier_log (env : AuthEnv) (st₀ : State) (log : List Action) :
    (sharedVerifier env st₀).Vets (fun sh => log <+: sh.log) fun _ _ => True where
  authorized sh jti tick h := by
    rw [sharedVerifier_isSessionAuthorized]
    exact ⟨h.trans (List.prefix_append ..), fun _ _ => trivial⟩
  verified sh token tick h := by
    rw [sharedVerifier_verifySession]
    exact ⟨h.trans (List.prefix_append ..), fun _ _ => trivial, fun _ _ => trivial⟩

theorem prefix_log_run (actions : List (SystemAction F)) :
    ∀ {sys : System W R} {log : List Action}, log <+: sys.1.authService.log →
      log <+: (sys.run (base.withVerifier (sharedVerifier env st₀)) ws
        actions).1.authService.log := by
  induction actions with
  | nil => exact fun h => h
  | cons a actions ih =>
    intro sys log h
    refine ih ?_
    cases a with
    | grpc a => exact h.trans (List.prefix_append ..)
    | tick input turns =>
      have hv : (base.withVerifier (sharedVerifier env st₀)).verifier.Vets
        (fun sh => log <+: sh.log) fun _ _ => True := sharedVerifier_log env st₀ log
      have hstart : Vetted (fun sh : Shared => log <+: sh.log) (fun _ _ => True)
          { sys.1 with authService := ⟨sys.1.authService.log, turns⟩ } := ⟨h, fun _ _ _ => trivial⟩
      exact (hstart.tickStep hv sys.2 input).service

theorem Shared.Admitted.of_prefix {sh sh' : Shared} (h : sh'.Admitted env st₀)
    (hlog : sh.log <+: sh'.log) : sh.Admitted env st₀ := by
  obtain ⟨rest, hrest⟩ := hlog
  unfold Shared.Admitted at h ⊢
  rw [← hrest] at h
  exact ((permits_append _ _ _).mp h).1

/-- What is known of the session of a client on record. -/
theorem drawn_of_record (env : AuthEnv) (bypassEnabled : Bool) (clock : DateTime)
    (base : ServerEnv A R F) (ws : WorldState W F) (tickRate : UInt64) (turns₀ : Nat → Turn)
    (reassembler : R) (hasOutbound spawnAtZero : Bool) (world : W)
    (actions : List (SystemAction F)) :
    Vetted (fun _ => True) (Shared.Draws env (.new bypassEnabled clock))
      (System.run (base.withVerifier (sharedVerifier env (.new bypassEnabled clock))) ws
        (.initial tickRate turns₀ reassembler hasOutbound spawnAtZero world) actions).1 := by
  induction actions using List.reverseRecOn with
  | nil =>
    refine ⟨trivial, fun c r hr => ?_⟩
    have hempty : none = some r := (AList.lookup_empty c).symm.trans hr
    cases hempty
  | append_singleton actions a ih =>
    unfold System.run at ih ⊢
    rw [List.foldl_concat]
    generalize actions.foldl _ _ = sys at ih ⊢
    cases a with
    | grpc a =>
      refine ih.withAuth trivial fun session hdrawn hadmitted => ?_
      obtain ⟨hbefore, hadm, -⟩ := (permits_append _ _ _).mp hadmitted
      have hstep : Step env (sys.1.authService.state env (.new bypassEnabled clock)) _
        (fire env (sys.1.authService.state env (.new bypassEnabled clock)) a).1 :=
        ⟨a, hadm, rfl⟩
      have hstate : Shared.state env (.new bypassEnabled clock)
          ⟨sys.1.authService.log ++ [a], sys.1.authService.turns⟩ =
            (fire env (sys.1.authService.state env (.new bypassEnabled clock)) a).1 :=
        fireAll_append _ _ [a]
      rw [hstate]
      exact (hdrawn hbefore).step hstep
    | tick input turns =>
      have hv : (base.withVerifier (sharedVerifier env (.new bypassEnabled clock))).verifier.Vets
        (fun _ => True) _ := sharedVerifier_draws env bypassEnabled clock
      have hstart : Vetted (fun _ => True) (Shared.Draws env (.new bypassEnabled clock))
          { sys.1 with authService := ⟨sys.1.authService.log, turns⟩ } :=
        ih.withAuth trivial fun _ hdrawn => hdrawn
      exact hstart.tickStep hv sys.2 input

/-- The system in its next tick, where the batch has not been looked at yet. -/
def System.validated (server : ServerEnv Shared R F) (ws : WorldState W F) (sys : System W R)
    (turns : Nat → Turn) (now : Instant) : TickScheduler Shared R :=
  (midTick server ws { sys.1 with authService := ⟨sys.1.authService.log, turns⟩ } sys.2 now
    []).sched

end

/-! ## Ticks without a batch -/

section

open TickState

variable {W A R F : Type} [F32 F] (ws : WorldState W F)

/-- With an empty batch only the validation touches the sessions. -/
theorem tickStep_empty (server : ServerEnv A R F) (s : TickScheduler A R) (world : W)
    (now : Instant) :
    ∃ m, (tickStep server ws s world ⟨.ok [], now⟩).1.1 =
      { (Aetheris.midTick server ws s world now []).sched with nextMessageId := m } :=
  sendBatches_sched server _ _ _

/-- The questions of one periodic check, and whom it finds invalid. -/
def checkRound (server : ServerEnv A R F) (tick : UInt64) (records : Clients) (auth : A) :
    A × List ClientId :=
  (server.clientOrder records.keys).foldl (checkSession server tick records) (auth, [])

omit [F32 F] in
theorem validateSessions_of_checkRound {server : ServerEnv A R F} {tick : UInt64}
    {st : TickState W A R}
    (hnone : (checkRound server tick st.sched.authenticatedClients st.sched.authService).2 = []) :
    st.validateSessions server ws tick = st.withAuth
      (checkRound server tick st.sched.authenticatedClients st.sched.authService).1 := by
  unfold checkRound at hnone
  unfold TickState.validateSessions
  dsimp only
  rw [hnone]
  rfl

/-- A check that finds nobody invalid only asks its questions. -/
theorem midTick_of_checkRound (server : ServerEnv A R F) (s : TickScheduler A R)
    (htick : s.currentTick % 60 = 0)
    (hnone : (checkRound server s.currentTick s.authenticatedClients s.authService).2 = [])
    (world : W) (now : Instant) :
    (Aetheris.midTick server ws s world now []).sched =
      { s with
        currentTick := s.currentTick + 1
        authService :=
          (checkRound server s.currentTick s.authenticatedClients s.authService).1 } := by
  have hstart : checkRound server s.currentTick
      (TickState.start { s with currentTick := s.currentTick + 1 }
        (preStage ws s world)).sched.authenticatedClients s.authService =
      checkRound server s.currentTick s.authenticatedClients s.authService := rfl
  unfold Aetheris.midTick
  dsimp only
  rw [if_pos htick, List.foldl_nil, validateSessions_of_checkRound ws (hstart ▸ hnone)]
  rfl

theorem midTick_authService (server : ServerEnv A R F) (s : TickScheduler A R)
    (htick : s.currentTick % 60 = 0) (world : W) (now : Instant) :
    (Aetheris.midTick server ws s world now []).sched.authService =
      (checkRound server s.currentTick s.authenticatedClients s.authService).1 := by
  unfold Aetheris.midTick
  dsimp only
  rw [if_pos htick, List.foldl_nil]
  exact (kickClients_keepsSessions ws _ _).1

theorem midTick_rest (server : ServerEnv A R F) (s : TickScheduler A R)
    (htick : s.currentTick % 60 ≠ 0) (world : W) (now : Instant) :
    Aetheris.midTick server ws s world now [] =
      TickState.start { s with currentTick := s.currentTick + 1 } (preStage ws s world) :=
  if_neg htick

/-- The sessions stay as they are, the service has this log, and so many ticks have passed. -/
structure Rests (sys : System W R) (log : List Action) (n : Nat) (sys' : System W R) : Prop where
  clients : sys'.1.authenticatedClients = sys.1.authenticatedClients
  log : sys'.1.authService.log = log
  tick : sys'.1.currentTick = sys.1.currentTick + UInt64.ofNat n

variable {sys : System W R}

theorem Rests.trans {sys' sys'' : System W R} {log log' : List Action} {n n' : Nat}
    (h : Rests sys log n sys') (h' : Rests sys' log' n' sys'') :
    Rests sys log' (n + n') sys'' := by
  refine ⟨h'.clients.trans h.clients, h'.log, ?_⟩
  rw [UInt64.ofNat_add, ← UInt64.add_assoc, ← h.tick]
  exact h'.tick

variable (server : ServerEnv Shared R F) (now : Instant) (turns : Nat → Turn)

theorem rests_step (htick : sys.1.currentTick % 60 ≠ 0) :
    Rests sys sys.1.authService.log 1 (sys.step server ws (.tick ⟨.ok [], now⟩ turns)) := by
  obtain ⟨m, hm⟩ := tickStep_empty ws server
    { sys.1 with authService := ⟨sys.1.authService.log, turns⟩ } sys.2 now
  have hmid := midTick_rest ws server
    { sys.1 with authService := ⟨sys.1.authService.log, turns⟩ } htick sys.2 now
  rw [hmid] at hm
  have hstep : (sys.step server ws (.tick ⟨.ok [], now⟩ turns)).1 = _ := hm
  constructor
  all_goals
    rw [hstep]
    rfl

theorem rests_check (htick : sys.1.currentTick % 60 = 0)
    (hnone : (checkRound server sys.1.currentTick sys.1.authenticatedClients
      ⟨sys.1.authService.log, turns⟩).2 = []) :
    Rests sys (checkRound server sys.1.currentTick sys.1.authenticatedClients
      ⟨sys.1.authService.log, turns⟩).1.log 1
        (sys.step server ws (.tick ⟨.ok [], now⟩ turns)) := by
  obtain ⟨m, hm⟩ := tickStep_empty ws server
    { sys.1 with authService := ⟨sys.1.authService.log, turns⟩ } sys.2 now
  have hmid := midTick_of_checkRound ws server
    { sys.1 with authService := ⟨sys.1.authService.log, turns⟩ } htick hnone sys.2 now
  rw [hmid] at hm
  have hstep : (sys.step server ws (.tick ⟨.ok [], now⟩ turns)).1 = _ := hm
  constructor
  all_goals rw [hstep]
  rfl

/-- Ticks without a batch, none of which is a tick of a periodic check. -/
theorem rests_run (n : Nat) :
    ∀ {sys : System W R}, (∀ j < n, (sys.1.currentTick + UInt64.ofNat j) % 60 ≠ 0) →
      Rests sys sys.1.authService.log n
        (sys.run server ws (List.replicate n (.tick ⟨.ok [], now⟩ turns))) := by
  induction n with
  | zero => exact fun _ => ⟨rfl, rfl, (UInt64.add_zero _).symm⟩
  | succ n ih =>
    intro sys hticks
    have hfirst : Rests sys sys.1.authService.log 1 _ := rests_step ws server now turns
      (by simpa using hticks 0 (Nat.succ_pos n))
    have hrest : Rests (sys.step server ws (.tick ⟨.ok [], now⟩ turns)) _ n _ := ih fun j hj => by
      rw [hfirst.tick, UInt64.add_assoc, ← UInt64.ofNat_add, Nat.add_comm]
      exact hticks (j + 1) (Nat.succ_lt_succ hj)
    have hboth := hfirst.trans hrest
    rw [hfirst.log, Nat.add_comm] at hboth
    exact hboth

/-- With no other client on record, such ticks are an idle period of `c`. -/
theorem idlePeriod_rest {env : AuthEnv} {c : ClientId} {jti : String}
    (hturns : ∀ k, (turns k).Quiet env jti) (n : Nat) :
    ∀ {sys : System W R}, (∀ c', c' ≠ c → sys.1.authenticatedClients.lookup c' = none) →
      (∀ j < n, (sys.1.currentTick + UInt64.ofNat j) % 60 ≠ 0) →
      IdlePeriod env server ws c jti sys (List.replicate n (.tick ⟨.ok [], now⟩ turns)) := by
  induction n with
  | zero => exact fun _ _ => trivial
  | succ n ih =>
    intro sys hsole hticks
    have htick : sys.1.currentTick % 60 ≠ 0 := by simpa using hticks 0 (Nat.succ_pos n)
    have hfirst := rests_step ws server now turns htick
    refine ⟨⟨hturns, fun h => absurd h htick, ?_, ?_⟩, ih (fun c' hne => ?_) fun j hj => ?_⟩
    · intro events hevents
      obtain rfl := Except.ok.inj hevents
      exact fun _ h => nomatch h
    · intro events hevents before hbefore c' r hne hr
      obtain rfl := Except.ok.inj hevents
      obtain rfl := List.prefix_nil.mp hbefore
      have hmid := midTick_rest ws server
        { sys.1 with authService := ⟨sys.1.authService.log, turns⟩ } htick sys.2 now
      rw [hmid] at hr
      have hr : sys.1.authenticatedClients.lookup c' = some r := hr
      rw [hsole c' hne] at hr
      cases hr
    · rw [hfirst.clients]
      exact hsole c' hne
    · rw [hfirst.tick, UInt64.add_assoc, ← UInt64.ofNat_add, Nat.add_comm]
      exact hticks (j + 1) (Nat.succ_lt_succ hj)

/-- The ticks up to that of the second check, when the first one finds nobody invalid. -/
theorem rests_between_checks (hstart : sys.1.currentTick = 1)
    (hnone : (checkRound server 60 sys.1.authenticatedClients
      ⟨sys.1.authService.log, turns⟩).2 = []) :
    Rests sys (checkRound server 60 sys.1.authenticatedClients
      ⟨sys.1.authService.log, turns⟩).1.log 119
        (sys.run server ws (List.replicate 119 (.tick ⟨.ok [], now⟩ turns))) := by
  have hticks : ∀ j < 59, ((1 : UInt64) + UInt64.ofNat j) % 60 ≠ 0 := by decide
  have hticks' : ∀ j < 59, ((61 : UInt64) + UInt64.ofNat j) % 60 ≠ 0 := by decide
  have hbefore : Rests sys sys.1.authService.log 59 _ :=
    rests_run ws server now turns 59 (by rw [hstart]; exact hticks)
  have hsixty := hbefore.tick
  rw [hstart, show (1 : UInt64) + UInt64.ofNat 59 = 60 from rfl] at hsixty
  have hcheck := rests_check ws server now turns (by rw [hsixty]; rfl)
    (by rw [hsixty, hbefore.log, hbefore.clients]; exact hnone)
  have hupTo := hbefore.trans hcheck
  have hafter := rests_run ws server now turns 59 (by rw [hupTo.tick, hstart]; exact hticks')
  have hrests := hupTo.trans hafter
  rw [hcheck.log, hsixty, hbefore.log, hbefore.clients] at hrests
  have hsplit : ∀ a : SystemAction F, List.replicate 119 a =
    List.replicate 59 a ++ a :: List.replicate 59 a := fun _ => rfl
  unfold System.run at hrests ⊢
  rw [hsplit, List.foldl_append, List.foldl_cons]
  exact hrests

section

variable {sys sys' : System W R} {log : List Action} {n : Nat} {tick : UInt64}

/-- What a check after the rest has asked. -/
theorem Rests.authService_validated (h : Rests sys log n sys')
    (hend : sys.1.currentTick + UInt64.ofNat n = tick) (htick : tick % 60 = 0) :
    (sys'.validated server ws turns now).authService =
      (checkRound server tick sys.1.authenticatedClients ⟨log, turns⟩).1 := by
  rw [← h.clients, ← h.log, ← hend, ← h.tick]
  rw [← hend, ← h.tick] at htick
  exact midTick_authService ws server
    { sys'.1 with authService := ⟨sys'.1.authService.log, turns⟩ } htick sys'.2 now

/-- Whom it leaves on record, when it finds nobody invalid. -/
theorem Rests.clients_validated (h : Rests sys log n sys')
    (hend : sys.1.currentTick + UInt64.ofNat n = tick) (htick : tick % 60 = 0)
    (hnone : (checkRound server tick sys.1.authenticatedClients ⟨log, turns⟩).2 = []) :
    (sys'.validated server ws turns now).authenticatedClients = sys.1.authenticatedClients := by
  rw [← h.clients, ← h.log, ← hend, ← h.tick] at hnone
  rw [← h.clients]
  rw [← hend, ← h.tick] at htick
  have hmid := midTick_of_checkRound ws server
    { sys'.1 with authService := ⟨sys'.1.authService.log, turns⟩ } htick hnone sys'.2 now
  unfold System.validated
  rw [hmid]

end

end

/-! ## A session that is kept alive by being checked -/

/-- A login whose session has a byte sum that is a multiple of sixty. -/
def lateLogin : List Action :=
  otpRequested ++ [.arrive 1 (.login (.otp (plainUlid 2) "123456")), .advance 1 (plainReading 60),
    .advance 1 (plainReading 61)]

def lateToken : String := plainUlid 60 ++ "@60"

/-- Client 1 logs in with it in tick 0. -/
def lateActions : List (SystemAction ℚ) :=
  lateLogin.map .grpc ++ [.tick ⟨.ok [.reliableMessage ⟨1⟩ [0]], 0⟩ (plainTurns 62)]

def lateServer : ServerEnv Shared Unit ℚ :=
  (tokenServer lateToken).withVerifier (sharedVerifier plainEnv (.new false 0))

def lateSystem : System (BevyWorldAdapter ℚ) Unit := tokenRun lateToken lateActions

/-- Nothing happens for some ticks, those that check asking in second 3000. -/
def restedSystem (n : Nat) : System (BevyWorldAdapter ℚ) Unit :=
  lateSystem.run lateServer (bevyWorldState rationalPlatform)
    (List.replicate n (.tick ⟨.ok [], 0⟩ (plainTurns 3000)))

/-- Whether the call has not begun. -/
def Call.isStart : Call → Bool
  | .start _ => true
  | _ => false

theorem lateSystem_tick : lateSystem.1.currentTick = 1 := by decide +kernel

theorem rests_lateSystem :
    Rests lateSystem lateSystem.1.authService.log 59 (restedSystem 59) := by
  refine rests_run (bevyWorldState rationalPlatform) lateServer 0 (plainTurns 3000) 59 ?_
  rw [lateSystem_tick]
  decide

/-- The calls of the login are the only ones, and have begun. -/
theorem lateSystem_pending (i : Nat) (request : AuthRequest)
    (h : (lateSystem.1.authService.state plainEnv (.new false 0)).calls i =
      some (.start request)) : ¬ request.AsksAbout plainEnv (plainUlid 60) := by
  have hbegun : ∀ i ∈ lateSystem.1.authService.log.map Action.call,
      ((lateSystem.1.authService.state plainEnv (.new false 0)).calls i).all (!·.isStart) := by
    decide +kernel
  by_cases hmem : i ∈ lateSystem.1.authService.log.map Action.call
  · have hnot := hbegun i hmem
    rw [h] at hnot
    cases hnot
  · unfold Shared.state at h
    rw [fireAll_calls _ hmem] at h
    cases h

theorem lateSystem_sole (c : ClientId) (hne : c ≠ ⟨1⟩) :
    lateSystem.1.authenticatedClients.lookup c = none := by
  have hkeys : lateSystem.1.authenticatedClients.keys = [⟨1⟩] := by decide +kernel
  refine AList.lookup_eq_none.mpr fun hmem => hne ?_
  rw [AList.mem_keys, hkeys] at hmem
  exact List.mem_singleton.mp hmem

theorem plainTurns_quiet (n k : Nat) (jti : String) : (plainTurns n k).Quiet plainEnv jti :=
  fun _ h => nomatch h

theorem lateSystem_idle :
    IdlePeriod plainEnv lateServer (bevyWorldState rationalPlatform) ⟨1⟩ (plainUlid 60) lateSystem
      (List.replicate 59 (.tick ⟨.ok [], 0⟩ (plainTurns 3000))) := by
  refine idlePeriod_rest (bevyWorldState rationalPlatform) lateServer 0 (plainTurns 3000)
    (fun k => plainTurns_quiet 3000 k _) 59 lateSystem_sole ?_
  rw [lateSystem_tick]
  decide

theorem lateSystem_late (n : Nat) :
    (lateSystem.1.authService.state plainEnv (.new false 0)).clock.timestamp + 3600 <
      (plainTurns 6000 n).first.now.timestamp := by
  have hclock : (lateSystem.1.authService.state plainEnv (.new false 0)).clock.timestamp = 63 := by
    decide +kernel
  have hfirst : (plainTurns 6000 n).first.now.timestamp = 6000 + 2 * n :=
    (Int.mul_ediv_cancel _ (by decide)).trans (by push_cast; rfl)
  rw [hclock, hfirst]
  omega

/-! ## The result -/

section

variable {W A R F : Type} [F32 F]

/-- A client whose session nobody uses is dropped by the first periodic check more than an hour
later. -/
theorem idle_session_dropped (env : AuthEnv) (bypassEnabled : Bool) (clock : DateTime)
    (base : ServerEnv A R F) (ws : WorldState W F) (tickRate : UInt64) (turns₀ : Nat → Turn)
    (reassembler : R) (hasOutbound spawnAtZero : Bool) (world : W)
    (actions period : List (SystemAction F)) (turns : Nat → Turn) (now : Instant)
    {st₀ : State} (hnew : st₀ = .new bypassEnabled clock)
    {server : ServerEnv Shared R F} (hserver : server = base.withVerifier (sharedVerifier env st₀))
    {sys sys' : System W R}
    (hsys : sys = System.run server ws
      (.initial tickRate turns₀ reassembler hasOutbound spawnAtZero world) actions)
    (hsys' : sys' = sys.run server ws period) {c : ClientId} {record : ClientRecord}
    (hrecord : sys.1.authenticatedClients.lookup c = some record) (hadmin : record.1.jti ≠ "admin")
    (hpending : ∀ i request, (sys.1.authService.state env st₀).calls i = some (.start request) →
      ¬ request.AsksAbout env record.1.jti)
    (hperiod : IdlePeriod env server ws c record.1.jti sys period)
    (htick : sys'.1.currentTick % 60 = 0)
    (hturns : ∀ n, (turns n).Quiet env record.1.jti ∧
      (sys.1.authService.state env st₀).clock.timestamp + 3600 < (turns n).first.now.timestamp)
    (hadmitted : (sys'.validated server ws turns now).authService.Admitted env st₀) :
    (sys'.validated server ws turns now).authenticatedClients.lookup c = none := by
  subst hnew hserver
  have hbefore : sys.1.authService.Admitted env (.new bypassEnabled clock) := by
    have hv : (base.withVerifier (sharedVerifier env (.new bypassEnabled clock))).verifier.Vets
        (fun sh => sys'.1.authService.log <+: sh.log) fun _ _ => True :=
      sharedVerifier_log env _ _
    have hstart : Vetted (fun sh : Shared => sys'.1.authService.log <+: sh.log) (fun _ _ => True)
        { sys'.1 with authService := ⟨sys'.1.authService.log, turns⟩ } :=
      ⟨List.prefix_refl _, fun _ _ _ => trivial⟩
    have hperiodLog : sys.1.authService.log <+: sys'.1.authService.log := by
      rw [hsys']
      exact prefix_log_run period (List.prefix_refl _)
    exact hadmitted.of_prefix (hperiodLog.trans (hstart.midTick hv sys'.2 now []).service)
  have hlapsing : Lapsing env record.1.jti
      (sys.1.authService.state env (.new bypassEnabled clock)).clock.timestamp
      (sys.1.authService.state env (.new bypassEnabled clock)) := by
    have hrecent : Recent record.1.jti (sys.1.authService.state env (.new bypassEnabled clock)) :=
      hbefore.run.invariant ⟨nofun, nofun⟩ fun _ _ _ h hs => h.step hs
    have hvetted := drawn_of_record env bypassEnabled clock base ws tickRate turns₀ reassembler
      hasOutbound spawnAtZero world actions
    rw [← hsys] at hvetted
    have hdrawn := hvetted.sessions c record hrecord hbefore
    exact ⟨hdrawn.resolve_left hadmin, hrecent.activity, hrecent.pending, hpending⟩
  have hwaning : Waning env (.new bypassEnabled clock) c record.1.jti
      (sys.1.authService.state env (.new bypassEnabled clock)).clock.timestamp sys' := by
    rw [hsys']
    exact Waning.run hadmin period (.inr ⟨⟨record, hrecord, rfl⟩, fun _ => hlapsing⟩) hperiod
  exact (hwaning.fading fun n => (hturns n).1).dropped hadmin (fun n => (hturns n).2) htick _ now
    hadmitted

end

/-- Client 1 is not heard of from second 62 on. The check of tick 60, in second 6000, drops it. -/
theorem idle_session_dropped_late :
    (lateSystem.1.authenticatedClients.lookup ⟨1⟩).isSome ∧
      ((restedSystem 59).validated lateServer (bevyWorldState rationalPlatform) (plainTurns 6000)
        0).authenticatedClients.lookup ⟨1⟩ = none := by
  have hrecord : lateSystem.1.authenticatedClients.lookup ⟨1⟩ =
      some (⟨"player", plainUlid 60⟩, none) := by decide +kernel
  have hend : lateSystem.1.currentTick + UInt64.ofNat 59 = 60 := by
    rw [lateSystem_tick]
    rfl
  have htick : (restedSystem 59).1.currentTick % 60 = 0 := by
    rw [rests_lateSystem.tick, hend]
    rfl
  have hserver : lateServer = (tokenServer lateToken).withVerifier
    (sharedVerifier plainEnv (.new false 0)) := rfl
  have hsys : lateSystem = System.run lateServer (bevyWorldState rationalPlatform)
    (.initial 60 (plainTurns 0) () false false BevyWorldAdapter.emptyAdapter) lateActions := rfl
  have hsys' : restedSystem 59 = lateSystem.run lateServer (bevyWorldState rationalPlatform)
    (List.replicate 59 (.tick ⟨.ok [], 0⟩ (plainTurns 3000))) := rfl
  refine ⟨by decide +kernel, ?_⟩
  refine idle_session_dropped plainEnv false 0 (tokenServer lateToken)
    (bevyWorldState rationalPlatform) 60 (plainTurns 0) () false false
    BevyWorldAdapter.emptyAdapter lateActions _ (plainTurns 6000) 0 rfl hserver hsys hsys' hrecord
    (by decide) lateSystem_pending lateSystem_idle htick
    (fun n => ⟨plainTurns_quiet 6000 n _, lateSystem_late n⟩) ?_
  unfold Shared.Admitted
  rw [rests_lateSystem.authService_validated _ _ 0 (plainTurns 6000) hend rfl]
  decide +kernel

/-- The check of tick 60 refreshes the session, so the check of tick 120, in second 6000, keeps a
client that was last heard of in second 62. -/
theorem checked_session_outlives_hour :
    (lateSystem.1.authenticatedClients.lookup ⟨1⟩).isSome ∧ (restedSystem 119).1.currentTick = 120 ∧
      (lateSystem.1.authService.state plainEnv (.new false 0)).clock.timestamp + 3600 <
        (plainReading 6000).now.timestamp ∧
      ((restedSystem 119).validated lateServer (bevyWorldState rationalPlatform) (plainTurns 6000)
        0).authService.Admitted plainEnv (.new false 0) ∧
      (((restedSystem 119).validated lateServer (bevyWorldState rationalPlatform) (plainTurns 6000)
        0).authenticatedClients.lookup ⟨1⟩).isSome := by
  have hrests : Rests lateSystem _ 119 (restedSystem 119) :=
    rests_between_checks (bevyWorldState rationalPlatform) lateServer 0 (plainTurns 3000)
      lateSystem_tick (by decide +kernel)
  have hend : lateSystem.1.currentTick + UInt64.ofNat 119 = 120 := by
    rw [lateSystem_tick]
    rfl
  refine ⟨by decide +kernel, hrests.tick.trans hend, by decide +kernel, ?_, ?_⟩
  · unfold Shared.Admitted
    rw [hrests.authService_validated _ _ 0 (plainTurns 6000) hend rfl]
    decide +kernel
  · rw [hrests.clients_validated _ _ 0 (plainTurns 6000) hend rfl (by decide +kernel)]
    decide +kernel

end Aetheris.Auth
