import Aetheris.Server.Auth.Activity

/-!
# Revocation is permanent

A session is revoked by taking its activity out of the map, or dies by staying idle. A dead session
stays dead: its identifier is never minted again, and a late write of an old reading does not bring
it back. Two things break this. Sessions of the bypass login all share the identifier `admin`, and a
check between its two halves may write a reading that is recent although another check has already
found the session idle.
-/

namespace Aetheris.Auth

open Function

/-! ## Dead sessions -/

/-- What is known of a session whose identifier is not shared. -/
structure SessionInv (jti : String) (st : State) : Prop where
  store : st.svc.sessionActivity jti ≠ none → jti ∈ st.drawn
  call : ∀ i c, st.calls i = some c → c.session = some jti → jti ∈ st.drawn
  /-- A refresh that is about to mint has removed the old session. -/
  removed : ∀ i sub, st.calls i = some (.refreshMint jti sub) → st.svc.sessionActivity jti = none

/-- Since second `since` no check can pass: the session is gone, or both the recorded activity and
every reading that may still be written are too old. -/
structure Dead (jti : String) (since : Int) (st : State) : Prop where
  drawn : jti ∈ st.drawn
  clock : since ≤ st.clock.timestamp
  old : ∀ activity, st.svc.sessionActivity jti = some activity → since - activity > 3600
  pending : st.svc.sessionActivity jti ≠ none →
    ∀ i nowTs asker, st.calls i = some (.touch jti nowTs asker) → since - nowTs > 3600

section

variable {jti : String} {since : Int} {events : List Event} {st : State} {i : Nat} {c c' : Call}
  {r : Reading} {svc' : AuthServiceImpl}

theorem Asker.finish_ne_touch (asker : Asker) (nowTs : Int) (asker' : Asker) :
    asker.finish jti true ≠ .touch jti nowTs asker' := by
  cases asker <;> exact nofun

theorem Asker.finish_ne_refreshMint (asker : Asker) (sub : String) :
    asker.finish jti true ≠ .refreshMint jti sub := by
  cases asker <;> exact nofun

theorem touch_activity (svc : AuthServiceImpl) (jti : String) (nowTs : Int) :
    (svc.touch jti nowTs).sessionActivity jti =
      (svc.sessionActivity jti).map fun _ => nowTs := by
  unfold AuthServiceImpl.touch
  cases h : svc.sessionActivity jti with
  | none => exact h
  | some activity => exact update_self ..

theorem SessionInv.advance (hadmin : jti ≠ "admin") (h : SessionInv jti st)
    (hi : st.calls i = some c) (hulid : r.ulid ∉ st.drawn)
    (hs : SessionStep jti r st.svc c (svc', c', events)) :
    SessionInv jti ⟨svc', update st.calls i (some c'), r.now, r.ulid :: st.drawn⟩ := by
  have hdrawn : jti ∈ st.drawn → jti ∈ r.ulid :: st.drawn := List.mem_cons_of_mem _
  -- the three clauses, given what the section does to the session and to its call
  have hinv : (svc'.sessionActivity jti ≠ none ∨ c'.session = some jti →
        jti ∈ r.ulid :: st.drawn) →
      (∀ k sub, update st.calls i (some c') k = some (.refreshMint jti sub) →
        svc'.sessionActivity jti = none) →
      SessionInv jti ⟨svc', update st.calls i (some c'), r.now, r.ulid :: st.drawn⟩ := by
    intro hknown hremoved
    refine ⟨fun hne => hknown (Or.inl hne), fun k d hk hd => ?_, hremoved⟩
    rcases of_update_some hk with ⟨-, rfl⟩ | ⟨-, hold⟩
    · exact hknown (Or.inr hd)
    · exact hdrawn (h.call k d hold hd)
  -- a refresh about to mint was there before
  have hold : (∀ sub, c' ≠ .refreshMint jti sub) →
      svc'.sessionActivity jti = st.svc.sessionActivity jti →
      ∀ k sub, update st.calls i (some c') k = some (.refreshMint jti sub) →
        svc'.sessionActivity jti = none := by
    intro hc' hsame k sub hk
    rcases of_update_some hk with ⟨-, heq⟩ | ⟨-, hold⟩
    · exact absurd heq.symm (hc' sub)
    · exact hsame.trans (h.removed k sub hold)
  have hsession : c'.session ≠ some jti → ∀ sub, c' ≠ .refreshMint jti sub := by
    rintro hne sub rfl
    exact hne rfl
  cases hs with
  | aside hc' hactivity hevents =>
    refine hinv (fun hor => ?_) (hold (hsession hc') hactivity)
    rcases hor with hne | hc
    · exact hdrawn (h.store (hactivity ▸ hne))
    · exact absurd hc hc'
  | minted hjti hc' =>
    have hjti : jti = r.ulid := hjti.resolve_right hadmin
    refine hinv (fun _ => hjti ▸ List.mem_cons_self) fun k sub hk => ?_
    rcases of_update_some hk with ⟨-, heq⟩ | ⟨-, hold⟩
    · rw [← heq] at hc'
      cases hc'
    · exact absurd (hjti ▸ h.call k _ hold rfl) hulid
  | passed hactivity hnow hc' hmint hevents =>
    refine hinv (fun _ => hdrawn (h.store ?_)) (hold hmint rfl)
    rw [hactivity]
    exact nofun
  | idled hactivity hnow hc' =>
    refine hinv (fun _ => hdrawn (h.store ?_)) (hold (hsession hc') rfl)
    rw [hactivity]
    exact nofun
  | @touched nowTs asker =>
    refine hinv (fun _ => hdrawn (h.call i _ hi rfl)) fun k sub hk => ?_
    rcases of_update_some hk with ⟨-, heq⟩ | ⟨-, hold⟩
    · exact absurd heq.symm (asker.finish_ne_refreshMint sub)
    · rw [touch_activity, h.removed k sub hold]
      rfl
  | loggedOut hactivity =>
    refine hinv (fun hor => ?_) fun _ _ _ => hactivity
    rcases hor with hne | hc
    · exact absurd hactivity hne
    · cases hc
  | removed hactivity => exact hinv (fun _ => hdrawn (h.call i _ hi rfl)) fun _ _ _ => hactivity
  | exchanged hactivity hevents =>
    refine hinv (fun hor => hdrawn (h.call i _ hi rfl)) (hold nofun hactivity)

/-- A dead session stays dead, and no check of it passes. -/
theorem Dead.advance (hadmin : jti ≠ "admin") (h : Dead jti since st) (hi : st.calls i = some c)
    (hclock : st.clock ≤ r.now) (hulid : r.ulid ∉ st.drawn)
    (hs : SessionStep jti r st.svc c (svc', c', events)) :
    Dead jti since ⟨svc', update st.calls i (some c'), r.now, r.ulid :: st.drawn⟩ ∧
      ∀ token, .verified token jti ∉ events := by
  have hdrawn : jti ∈ r.ulid :: st.drawn := List.mem_cons_of_mem _ h.drawn
  have hsince : since ≤ r.now.timestamp := Int.le_trans h.clock (DateTime.timestamp_mono hclock)
  have hold : svc'.sessionActivity jti = none ∨
        (svc'.sessionActivity jti = st.svc.sessionActivity jti ∧
          ∀ nowTs asker, c' ≠ .touch jti nowTs asker) →
      Dead jti since ⟨svc', update st.calls i (some c'), r.now, r.ulid :: st.drawn⟩ := by
    rintro (hnone | ⟨hsame, hc'⟩)
    · exact ⟨hdrawn, hsince, fun activity ha => absurd (hnone.symm.trans ha) nofun,
        fun hne => absurd hnone hne⟩
    · refine ⟨hdrawn, hsince, fun activity ha => h.old activity (hsame ▸ ha),
        fun hne k nowTs asker hk => ?_⟩
      rcases of_update_some hk with ⟨-, heq⟩ | ⟨-, hold⟩
      · exact absurd heq.symm (hc' nowTs asker)
      · exact h.pending (hsame ▸ hne) k nowTs asker hold
  have hsession : c'.session ≠ some jti → ∀ nowTs asker, c' ≠ .touch jti nowTs asker := by
    rintro hne nowTs asker rfl
    exact hne rfl
  cases hs with
  | aside hc' hactivity hevents =>
    exact ⟨hold (Or.inr ⟨hactivity, hsession hc'⟩), fun token hmem => hevents _ hmem rfl⟩
  | minted hjti hc' => exact absurd (hjti.resolve_right hadmin ▸ h.drawn) hulid
  | passed hactivity hnow hc' hmint hevents =>
    have hidle := h.old _ hactivity
    omega
  | idled hactivity hnow hc' => exact ⟨hold (Or.inr ⟨rfl, hsession hc'⟩), by simp⟩
  | @touched nowTs asker =>
    refine ⟨?_, by simp⟩
    cases hactivity : st.svc.sessionActivity jti with
    | none =>
      refine hold (Or.inl ?_)
      rw [touch_activity, hactivity]
      rfl
    | some activity =>
      -- the late write only puts an old reading in place
      have hne : st.svc.sessionActivity jti ≠ none := by rw [hactivity]; exact nofun
      have hlate := h.pending hne i nowTs asker hi
      refine ⟨hdrawn, hsince, fun activity' ha => ?_, fun _ k nowTs' asker' hk => ?_⟩
      · rw [touch_activity, hactivity] at ha
        exact Option.some.inj ha ▸ hlate
      · rcases of_update_some hk with ⟨-, heq⟩ | ⟨-, hold⟩
        · exact absurd heq.symm (asker.finish_ne_touch nowTs' asker')
        · exact h.pending hne k nowTs' asker' hold
  | loggedOut hactivity => exact ⟨hold (Or.inl hactivity), by simp⟩
  | removed hactivity => exact ⟨hold (Or.inl hactivity), by simp⟩
  | exchanged hactivity hevents =>
    exact ⟨hold (Or.inr ⟨hactivity, nofun⟩), fun token hmem => nomatch hevents _ hmem⟩

end

/-! ## Issued tokens -/

/-- The session token in the answer of a call. -/
def Call.token : Call → Option String
  | .otpRemove _ (.accepted response) => some response.sessionToken
  | .done (.login response) => some response.sessionToken
  | .done (.refresh response) => some response.sessionToken
  | _ => none

/-- The token is in the hands of a caller, or about to be. -/
def Issued (st : State) (token : String) : Prop := ∃ i c, st.calls i = some c ∧ c.token = some token

/-- Every issued token was built for an identifier that was drawn, or for the shared one. -/
def TokensMinted (env : AuthEnv) (st : State) : Prop :=
  ∀ token, Issued st token → ∃ claims, env.build claims = .ok token ∧
    (claims.jti ∈ st.drawn ∨ claims.jti = "admin")

section

variable {env : AuthEnv} {r : Reading} {svc svc' : AuthServiceImpl}

variable {c : Call} {jti playerId token : String} {response : LoginResponse}

theorem beginCheck_token (jti : String) (tick : Option UInt64) (asker : Asker) :
    (beginCheck r svc jti tick asker).1.token = none := by
  unfold beginCheck
  split
  all_goals cases asker <;> rfl

/-- The identifiers a section may mint a session for: a new one, or the shared one in a bypass login
and in the refresh of such a session. -/
def MayMint (r : Reading) (svc : AuthServiceImpl) (c : Call) (jti : String) : Prop :=
  jti = r.ulid ∨ jti = "admin" ∧ (svc.bypassEnabled = true ∨ c.session = some "admin")

/-- A section only passes on the token of its call, or puts a new one there. -/
theorem next_token (h : (c.next env r svc).2.1.token = some token) : c.token = some token ∨
      ∃ claims, env.build claims = .ok token ∧ MayMint r svc c claims.jti := by
  have hcases := Call.next_cases env r svc c
  generalize c.next env r svc = out at hcases h
  cases hcases with
  | @plain _ c' limiter _ hc' =>
    cases c' with
    | done reply =>
      cases reply with
      | login _ => cases hc'
      | refresh _ => cases hc'
      | _ => cases h
    | otpRemove _ _ => cases hc'
    | _ => cases h
  | loginOtp id code =>
    obtain ⟨new, hnew, hmint⟩ := otpSection_mint env r svc id code
    have htoken : (svc.otpSection env r id code).2.token = some token := by
      simp only [loginOtp] at h
      generalize (svc.otpSection env r id code).2 = outcome at h ⊢
      cases outcome with
      | accepted response => exact h
      | wrong attempts status => split at h <;> cases h
      | _ => cases h
    obtain ⟨claims, hbuild, rfl⟩ := hmint.built token htoken
    exact Or.inr ⟨claims, hbuild, hnew.imp_right fun hadmin => ⟨hadmin.1, .inl hadmin.2⟩⟩
  | check tick _ => exact absurd ((beginCheck_token _ _ _).symm.trans h) nofun
  | otpRemove id outcome =>
    cases outcome with
    | accepted response => exact Or.inl h
    | _ => cases h
  | googleMint handle subject hmint _ hreply =>
    rcases hreply with ⟨response, rfl, htoken⟩ | ⟨status, rfl⟩
    · obtain ⟨claims, hbuild, hjti⟩ := hmint.built token (htoken.trans h)
      exact Or.inr ⟨claims, hbuild, Or.inl hjti⟩
    · cases h
  | touch jti nowTs asker => cases asker <;> cases h
  | refreshMint jti sub hmint _ hreply =>
    rcases hreply with ⟨response, rfl, htoken⟩ | ⟨status, rfl⟩
    · obtain ⟨claims, hbuild, hjti⟩ := hmint.built token (htoken.trans h)
      refine Or.inr ⟨claims, hbuild, ?_⟩
      split at hjti
      · next hadmin => exact Or.inr ⟨hjti, Or.inr (congrArg some hadmin)⟩
      · exact Or.inl hjti
    · cases h
  | done reply => exact Or.inl h
  | _ => cases h

theorem verified_beginCheck {jti' : String} {tick : Option UInt64} {asker : Asker}
    (h : .verified token jti ∈ (beginCheck r svc jti' tick asker).2) :
    jti' = jti ∧ ∃ session, asker = .verify token session := by
  have hpassed : .verified token jti ∈ asker.passed jti' →
      jti' = jti ∧ ∃ session, asker = .verify token session := by
    intro hmem
    cases asker with
    | verify token' session =>
      simp only [Asker.passed, List.mem_singleton, Event.verified.injEq] at hmem
      obtain ⟨rfl, rfl⟩ := hmem
      exact ⟨rfl, session, rfl⟩
    | _ => simp [Asker.passed] at hmem
  unfold beginCheck at h
  split at h
  · exact hpassed h
  · exact hpassed h
  · simp at h
  · simp at h

/-- Only a token that opens is verified. -/
theorem verified_next (h : .verified token jti ∈ (c.next env r svc).2.2) :
    ∃ sub, env.parse r.now token = some ⟨some jti, some sub⟩ := by
  have hcases := Call.next_cases env r svc c
  generalize c.next env r svc = out at hcases h
  cases hcases with
  | loginOtp id code =>
    simp only [loginOtp] at h
    generalize (svc.otpSection env r id code).2 = outcome at h
    cases outcome <;> simp [otpEvents] at h
  | check tick hasks =>
    obtain ⟨rfl, session, heq⟩ := verified_beginCheck h
    cases hasks with
    | verify tick hparse =>
      cases heq
      exact ⟨_, hparse⟩
    | _ => cases heq
  | otpRemove id outcome => cases outcome <;> simp at h
  | googleMint handle subject _ _ _ hevents => rcases hevents with rfl | rfl <;> simp at h
  | refreshMint jti' sub _ _ _ hevents => cases hevents _ h
  | _ => simp at h

end

/-! ## Whole runs -/

section

variable {env : AuthEnv} {jti : String} {st st' : State} {events : List Event}

theorem TokensMinted.step (h : TokensMinted env st) (hs : Step env st events st') :
    TokensMinted env st' := by
  cases hs.cases with
  | idle => exact h
  | arrive request hi =>
    rintro token ⟨k, d, hk, hd⟩
    rcases of_update_some hk with ⟨-, rfl⟩ | ⟨-, hold⟩
    · cases hd
    · exact h token ⟨k, d, hold, hd⟩
  | @advance i c c' r svc' _ hi hclock hulid hlength hnext =>
    have hlater : ∀ token, Issued st token → ∃ claims, env.build claims = .ok token ∧
        (claims.jti ∈ r.ulid :: st.drawn ∨ claims.jti = "admin") := by
      intro token hissued
      obtain ⟨claims, hbuild, hjti⟩ := h token hissued
      exact ⟨claims, hbuild, hjti.imp_left (List.mem_cons_of_mem _)⟩
    rintro token ⟨k, d, hk, hd⟩
    rcases of_update_some hk with ⟨-, rfl⟩ | ⟨-, hold⟩
    · have htoken : (c.next env r st.svc).2.1.token = some token := by rw [hnext]; exact hd
      rcases next_token htoken with hc | ⟨claims, hbuild, hjti⟩
      · exact hlater token ⟨i, c, hi, hc⟩
      · refine ⟨claims, hbuild, hjti.imp (fun hulid => ?_) And.left⟩
        rw [hulid]
        exact List.mem_cons_self
    · exact hlater token ⟨k, d, hold, hd⟩

theorem SessionInv.step (hadmin : jti ≠ "admin") (h : SessionInv jti st)
    (hs : Step env st events st') : SessionInv jti st' := by
  cases hs.cases with
  | idle => exact h
  | arrive request hi =>
    refine ⟨h.store, fun k d hk hd => ?_, fun k sub hk => ?_⟩
    · rcases of_update_some hk with ⟨-, rfl⟩ | ⟨-, hold⟩
      · cases hd
      · exact h.call k d hold hd
    · rcases of_update_some hk with ⟨-, heq⟩ | ⟨-, hold⟩
      · cases heq
      · exact h.removed k sub hold
  | advance hi hclock hulid hlength hnext =>
    exact h.advance hadmin hi hulid (hnext ▸ next_sessionStep env _)

theorem Dead.step {since : Int} (hadmin : jti ≠ "admin") (h : Dead jti since st)
    (hs : Step env st events st') :
    Dead jti since st' ∧ ∀ token, .verified token jti ∉ events := by
  cases hs.cases with
  | idle => exact ⟨h, by simp⟩
  | arrive request hi =>
    refine ⟨⟨h.drawn, h.clock, h.old, fun hne k nowTs asker hk => ?_⟩, by simp⟩
    rcases of_update_some hk with ⟨-, heq⟩ | ⟨-, hold⟩
    · cases heq
    · exact h.pending hne k nowTs asker hold
  | advance hi hclock hulid hlength hnext =>
    exact h.advance hadmin hi hclock hulid (hnext ▸ next_sessionStep env _)

/-- The three ways a session ends. -/
inductive Revokes (jti : String) (events : List Event) : Prop where
  | loggedOut (h : .loggedOut jti ∈ events)
  | exchanged (h : .exchanged jti ∈ events)
  | idled (nowTs : Int) (h : .idled jti nowTs ∈ events)

/-- When a check finds the session idle, every other check of it that is between its two halves has
read the clock more than an hour before. -/
def Settled (jti : String) (st : State) (events : List Event) : Prop :=
  ∀ nowTs, .idled jti nowTs ∈ events →
    ∀ i nowTs' asker, st.calls i = some (.touch jti nowTs' asker) → nowTs - nowTs' > 3600

/-- The step that ends a session leaves it dead. -/
theorem dead_of_revokes (hadmin : jti ≠ "admin") (hinv : SessionInv jti st)
    (hdrawn : jti ∈ st.drawn) (hs : Step env st events st') (hr : Revokes jti events)
    (hsettled : Settled jti st events) : ∃ since, Dead jti since st' := by
  cases hs.cases with
  | idle =>
    rcases hr with h | h | ⟨_, h⟩
    all_goals simp at h
  | arrive request hi =>
    rcases hr with h | h | ⟨_, h⟩
    all_goals simp at h
  | @advance i c c' r svc' _ hi hclock hulid hlength hnext =>
    have hs : SessionStep jti r st.svc c (svc', c', events) := hnext ▸ next_sessionStep env c
    have hmem : jti ∈ r.ulid :: st.drawn := List.mem_cons_of_mem _ hdrawn
    have hgone : svc'.sessionActivity jti = none → Dead jti r.now.timestamp
        ⟨svc', update st.calls i (some c'), r.now, r.ulid :: st.drawn⟩ := fun hnone =>
      ⟨hmem, Int.le_refl _, fun _ ha => absurd (hnone.symm.trans ha) nofun,
        fun hne => absurd hnone hne⟩
    refine ⟨r.now.timestamp, ?_⟩
    cases hs with
    | aside hc' hactivity hevents =>
      rcases hr with h | h | ⟨_, h⟩
      all_goals exact absurd rfl (hevents _ h)
    | minted hjti hc' => exact absurd (hjti.resolve_right hadmin ▸ hdrawn) hulid
    | passed hactivity hnow hc' hmint hevents =>
      -- a check that passes ends nothing
      rcases hr with h | h | ⟨_, h⟩
      all_goals
        obtain ⟨token, heq⟩ := hevents _ h
        cases heq
    | idled hactivity hnow hc' =>
      refine ⟨hmem, Int.le_refl _, fun activity ha => ?_, fun _ k nowTs asker hk => ?_⟩
      · obtain rfl := Option.some.inj (hactivity.symm.trans ha)
        exact hnow
      · rcases of_update_some hk with ⟨-, heq⟩ | ⟨-, hold⟩
        · exact absurd (heq ▸ rfl) hc'
        · exact hsettled _ List.mem_cons_self k nowTs asker hold
    | touched =>
      rcases hr with h | h | ⟨_, h⟩
      all_goals simp at h
    | loggedOut hactivity => exact hgone hactivity
    | removed hactivity => exact hgone hactivity
    | exchanged hactivity hevents => exact hgone (hactivity.trans (hinv.removed i _ hi))

theorem verified_run {trace : List Event} (h : Run (Step env) st trace st') {token : String}
    (hmem : .verified token jti ∈ trace) :
    ∃ now sub, env.parse now token = some ⟨some jti, some sub⟩ := by
  refine (h.forall_events (I := fun _ => True) (P := fun e => e = .verified token jti →
    ∃ now sub, env.parse now token = some ⟨some jti, some sub⟩) trivial ?_).2 _ hmem rfl
  refine fun st events st' _ hs => ⟨trivial, ?_⟩
  rintro _ he rfl
  cases hs.cases with
  | idle => simp at he
  | arrive => simp at he
  | advance hi hclock hulid hlength hnext =>
    obtain ⟨sub, hparse⟩ := verified_next (show _ ∈ (Call.next env _ st.svc _).2.2 by rwa [hnext])
    exact ⟨_, sub, hparse⟩

/-- In every run, once the session of an issued token was logged out, exchanged or found idle, no
check of `verify_session` on that token passes any more: unless its identifier is the shared one, or
a check of the session that read the clock within the last hour has yet to write it. -/
theorem revocation_permanent {bypassEnabled : Bool} {clock : DateTime} {trace trace' : List Event}
    {st₁ st₂ : State} {token : String} {claims : SessionClaims} (henv : env.Faithful)
    (hrun : Run (Step env) (.new bypassEnabled clock) trace st) (hissued : Issued st token)
    (hclaims : env.build claims = .ok token) (hstep : Step env st events st₁)
    (hrevokes : Revokes claims.jti events) (hadmin : claims.jti ≠ "admin")
    (hsettled : Settled claims.jti st events) (hlater : Run (Step env) st₁ trace' st₂) :
    ∀ jti, .verified token jti ∉ trace' := by
  intro jti hmem
  have hminted : TokensMinted env st :=
    hrun.invariant (fun token h => by obtain ⟨i, c, hi, -⟩ := h; cases hi)
      fun _ _ _ h hs => h.step hs
  have hinv : SessionInv claims.jti st :=
    hrun.invariant ⟨fun hne => absurd rfl hne, nofun, nofun⟩ fun _ _ _ h hs => h.step hadmin hs
  -- the token opens when it is verified, and then carries the claims it was built from
  obtain ⟨claims', hbuild', hdrawn⟩ := hminted token hissued
  obtain ⟨now, sub, hparse⟩ := verified_run hlater hmem
  have hjti : jti = claims.jti := by
    have heq := henv claims token hclaims now _ hparse
    simpa using congrArg ParsedClaims.jti heq
  have hjti' : jti = claims'.jti := by
    have heq := henv claims' token hbuild' now _ hparse
    simpa using congrArg ParsedClaims.jti heq
  rw [← hjti] at hinv hrevokes hsettled hadmin
  have hmemDrawn : jti ∈ st.drawn := by
    rw [← hjti'] at hdrawn
    exact hdrawn.resolve_right hadmin
  obtain ⟨since, hdead⟩ := dead_of_revokes hadmin hinv hmemDrawn hstep hrevokes hsettled
  have hnever := (hlater.forall_events (I := Dead jti since)
    (P := fun e => ∀ token, e ≠ .verified token jti) hdead fun st events st' h hs => ?_).2
  · exact hnever _ hmem token rfl
  · obtain ⟨hdead', hevents⟩ := h.step hadmin hs
    exact ⟨hdead', fun e he token heq => hevents token (heq ▸ he)⟩

end

/-! ## Sessions of the small service -/

theorem takeWhile_append_at {l rest : List Char} (h : '@' ∉ l) :
    (l ++ '@' :: rest).takeWhile (· ≠ '@') = l := by
  rw [List.takeWhile_append_of_pos]
  · simp
  · intro c hc
    simp only [decide_eq_true_eq]
    rintro rfl
    exact h hc

theorem plainEnv_faithful : plainEnv.Faithful := by
  intro claims token hbuild now parsed hparse
  simp only [plainEnv] at hbuild hparse
  split at hbuild
  · next h =>
    obtain rfl := Except.ok.inj hbuild
    rw [String.toList_ofList, takeWhile_append_at h.2, String.ofList_toList] at hparse
    rw [← Option.some.inj hparse, h.1]
  · cases hbuild

/-- A login with the code of the request; the session is `plainUlid 3`. -/
def loggedInActions : List Action :=
  otpRequested ++ [.arrive 1 (.login (.otp (plainUlid 2) "123456")), .advance 1 (plainReading 3),
    .advance 1 (plainReading 4)]

def loggedInClaims : SessionClaims :=
  ⟨"player", plainUlid 3, .ofSeconds 3, .ofSeconds 3 + .hours 24⟩

/-- The token of that login. -/
def loggedInToken : String := plainUlid 3 ++ "@3"

/-- The state after the login, with a request to log out. -/
def logoutPending : State :=
  (fireAll plainEnv (.new false 0)
    (loggedInActions ++ [.arrive 2 (.logout none loggedInToken)])).1

/-- A later check of the token. -/
def laterCheck : List Action :=
  [.arrive 3 (.verifySession loggedInToken none), .advance 3 (plainReading 6)]

/-- The session is logged out, and the token is no longer accepted. -/
theorem revocation_permanent_logout :
    .loggedOut (plainUlid 3) ∈ (fire plainEnv logoutPending (.advance 2 (plainReading 5))).2 ∧
      ∀ jti, .verified loggedInToken jti ∉ (fireAll plainEnv
        (fire plainEnv logoutPending (.advance 2 (plainReading 5))).1 laterCheck).2 := by
  have hmem : .loggedOut (plainUlid 3) ∈
      (fire plainEnv logoutPending (.advance 2 (plainReading 5))).2 := by decide +kernel
  have hbefore : Permits plainEnv (fun _ _ => True) (.new false 0)
      (loggedInActions ++ [.arrive 2 (.logout none loggedInToken)]) := by decide +kernel
  have hafter : Permits plainEnv (fun _ _ => True)
      (fire plainEnv logoutPending (.advance 2 (plainReading 5))).1 laterCheck := by decide +kernel
  have hissued : Issued logoutPending loggedInToken := by
    refine ⟨1, _, rfl, ?_⟩
    decide +kernel
  have hclaims : plainEnv.build loggedInClaims = .ok loggedInToken := by decide +kernel
  have hadm : Admissible logoutPending (.advance 2 (plainReading 5)) := by decide +kernel
  have hsettled : Settled (plainUlid 3) logoutPending
      (fire plainEnv logoutPending (.advance 2 (plainReading 5))).2 := by
    have hevents : (fire plainEnv logoutPending (.advance 2 (plainReading 5))).2 =
        [.loggedOut (plainUlid 3)] := by decide +kernel
    intro nowTs h
    rw [hevents] at h
    simp at h
  exact ⟨hmem, revocation_permanent plainEnv_faithful (run_script hbefore) hissued hclaims
    ⟨_, hadm, rfl⟩ (.loggedOut hmem) (by decide +kernel) hsettled (run_script hafter)⟩

/-- A token whose session has ended is accepted later in the same run. -/
def RevocationUndone (bypassEnabled : Bool) (token : String) (claims : SessionClaims) : Prop :=
  ∃ trace st events st₁ trace' st₂, Run (Step plainEnv) (.new bypassEnabled 0) trace st ∧
    Issued st token ∧ plainEnv.build claims = .ok token ∧ Step plainEnv st events st₁ ∧
    Revokes claims.jti events ∧ Run (Step plainEnv) st₁ trace' st₂ ∧
    .verified token claims.jti ∈ trace'

/-- A check reads the clock an hour after the login; the next second another check finds the
session idle; then the first one writes what it read. -/
def idleActions : List Action :=
  loggedInActions ++ [.arrive 2 (.verifySession loggedInToken none),
    .advance 2 (plainReading 3603), .arrive 3 (.verifySession loggedInToken none)]

def writeActions : List Action :=
  [.advance 2 (plainReading 3605), .arrive 4 (.verifySession loggedInToken none),
    .advance 4 (plainReading 3606)]

theorem idle_undone : RevocationUndone false loggedInToken loggedInClaims := by
  have hbefore : Permits plainEnv (fun _ _ => True) (.new false 0) idleActions := by
    decide +kernel
  let st := (fireAll plainEnv (.new false 0) idleActions).1
  have hadm : Admissible st (.advance 3 (plainReading 3604)) := by decide +kernel
  have hafter : Permits plainEnv (fun _ _ => True)
      (fire plainEnv st (.advance 3 (plainReading 3604))).1 writeActions := by decide +kernel
  have hidled : .idled (plainUlid 3) 3604 ∈
      (fire plainEnv st (.advance 3 (plainReading 3604))).2 := by decide +kernel
  refine ⟨_, st, _, _, _, _, run_script hbefore, ⟨1, _, rfl, ?_⟩, by decide +kernel,
    ⟨_, hadm, rfl⟩, .idled 3604 hidled, run_script hafter, by decide +kernel⟩
  decide +kernel

/-- A bypass login and a request to refresh its token, up to the last section. -/
def refreshActions : List Action :=
  [.arrive 0 (.requestOtp none "bot_alice"), .advance 0 (plainReading 0),
    .advance 0 (plainReading 1), .arrive 1 (.login (.otp (plainUlid 1) "000001")),
    .advance 1 (plainReading 2), .advance 1 (plainReading 3),
    .arrive 2 (.refreshToken "admin@2"), .advance 2 (plainReading 4),
    .advance 2 (plainReading 5), .advance 2 (plainReading 6)]

theorem refresh_undone :
    RevocationUndone true "admin@2" ⟨"player", "admin", .ofSeconds 2, .ofSeconds 2 + .hours 24⟩ := by
  have hbefore : Permits plainEnv (fun _ _ => True) (.new true 0) refreshActions := by
    decide +kernel
  let st := (fireAll plainEnv (.new true 0) refreshActions).1
  have hadm : Admissible st (.advance 2 (plainReading 7)) := by decide +kernel
  have hafter : Permits plainEnv (fun _ _ => True)
      (fire plainEnv st (.advance 2 (plainReading 7))).1
      [.arrive 3 (.verifySession "admin@2" none), .advance 3 (plainReading 8)] := by
    decide +kernel
  have hexchanged : .exchanged "admin" ∈
      (fire plainEnv st (.advance 2 (plainReading 7))).2 := by decide +kernel
  refine ⟨_, st, _, _, _, _, run_script hbefore, ⟨1, _, rfl, ?_⟩, by decide +kernel,
    ⟨_, hadm, rfl⟩, .exchanged hexchanged, run_script hafter, by decide +kernel⟩
  decide +kernel

/-- A late write revives an idle session, and a bypass session survives its own exchange. -/
theorem revocation_undone :
    (∃ token claims, RevocationUndone false token claims) ∧
      ∃ token claims, RevocationUndone true token claims :=
  ⟨⟨_, _, idle_undone⟩, ⟨_, _, refresh_undone⟩⟩

end Aetheris.Auth
