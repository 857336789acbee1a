import Aetheris.Server.Actions

/-!
# Two runs side by side

`Twin` relates a state of a run with a client `u` to the state of the run from which the events of
`u` are deleted. The two agree in everything but the reassembler, which has seen the fragments of
`u` in the first run, and the login time of `u`, which a disconnect of `u` takes away. The events of
the other clients keep it (`Alike.handleEvent`).

In between, `Silent` says why nothing is sent to `u`: it has no record, no acknowledgement and no
pong waits for it, and the world has nothing queued for it (`Spares`).
-/

namespace Aetheris

open Function TickState

/-! ## The reassembler -/

namespace Reassembler

variable {R : Type} (ra : Reassembler R) (u : ClientId)

/-- The answers to the fragments of all clients but `u`. An operation is a fragment of a client, or
`none` for a prune. -/
def replies : R → List (Option (ClientId × FragmentedEvent)) → List (Option Bytes)
  | _, [] => []
  | r, none :: ops => replies (ra.prune r) ops
  | r, some (c, fragment) :: ops =>
    if c = u then replies (ra.ingest r c fragment).1 ops
    else (ra.ingest r c fragment).2 :: replies (ra.ingest r c fragment).1 ops

/-- The operations but for the fragments of `u`. -/
def ofOthers : Option (ClientId × FragmentedEvent) → Bool
  | some (c, _) => c ≠ u
  | none => true

/-- The fragments of `u` make no difference to what the others are answered. -/
def Independent : Prop :=
  ∀ r ops, ra.replies u r ops = ra.replies u r (ops.filter (ofOthers u))

/-- The two states answer everybody but `u` alike. -/
def Indist (r r' : R) : Prop := ∀ ops, ra.replies u r ops = ra.replies u r' ops

/-- The others cannot tell whether the reassembler was pruned. -/
def PrunesSilently : Prop := ∀ r, ra.Indist u (ra.prune r) r

variable {ra u}

theorem Indist.refl (r : R) : ra.Indist u r r := fun _ => rfl

theorem Indist.trans {r r' r'' : R} (h : ra.Indist u r r') (h' : ra.Indist u r' r'') :
    ra.Indist u r r'' := fun ops => (h ops).trans (h' ops)

theorem Independent.ingest_own (h : ra.Independent u) (r : R) (fragment : FragmentedEvent) :
    ra.Indist u (ra.ingest r u fragment).1 r := by
  intro ops
  have hop := h r (some (u, fragment) :: ops)
  have hskip : ofOthers u (some (u, fragment)) = false := by simp [ofOthers]
  rw [List.filter_cons, hskip, replies, if_pos rfl] at hop
  exact hop.trans (h r ops).symm

theorem Indist.prune {r r' : R} (h : ra.Indist u r r') :
    ra.Indist u (ra.prune r) (ra.prune r') := fun ops => h (none :: ops)

/-- A fragment of another client gets the same answer from both. -/
theorem Indist.ingest {r r' : R} (h : ra.Indist u r r') {c : ClientId} (hc : c ≠ u)
    (fragment : FragmentedEvent) :
    (ra.ingest r' c fragment).2 = (ra.ingest r c fragment).2 ∧
      ra.Indist u (ra.ingest r c fragment).1 (ra.ingest r' c fragment).1 := by
  have hop : ∀ ops, (ra.ingest r c fragment).2 = (ra.ingest r' c fragment).2 ∧
      ra.replies u (ra.ingest r c fragment).1 ops =
        ra.replies u (ra.ingest r' c fragment).1 ops := by
    intro ops
    have hcons := h (some (c, fragment) :: ops)
    rw [replies, replies, if_neg hc, if_neg hc] at hcons
    exact List.cons.inj hcons
  exact ⟨(hop []).1.symm, fun ops => (hop ops).2⟩

/-- A reassembler that keeps a slot for each client. -/
def perClient {S : Type} (ingest : S → FragmentedEvent → S × Option Bytes) (prune : S → S) :
    Reassembler (ClientId → S) where
  ingest r c fragment :=
    (Function.update r c (ingest (r c) fragment).1, (ingest (r c) fragment).2)
  prune r c := prune (r c)

theorem perClient_replies {S : Type} (ingest : S → FragmentedEvent → S × Option Bytes)
    (prune : S → S) (ops : List (Option (ClientId × FragmentedEvent))) :
    ∀ r r' : ClientId → S, (∀ c, c ≠ u → r' c = r c) →
      (perClient ingest prune).replies u r ops =
        (perClient ingest prune).replies u r' (ops.filter (ofOthers u)) := by
  induction ops with
  | nil => exact fun _ _ _ => rfl
  | cons op ops ih =>
    intro r r' h
    rcases op with _ | ⟨c, fragment⟩
    · exact ih _ _ fun c hc => congrArg prune (h c hc)
    · by_cases hc : c = u
      · rw [List.filter_cons_of_neg (by simp [ofOthers, hc]), replies, if_pos hc]
        refine ih _ _ fun c' hc' => ?_
        rw [h c' hc']
        exact (update_of_ne (hc ▸ hc') ..).symm
      · rw [List.filter_cons_of_pos (by simp [ofOthers, hc]), replies, if_neg hc, replies,
          if_neg hc]
        unfold perClient at ih ⊢
        dsimp only at ih ⊢
        rw [h c hc]
        refine congrArg _ (ih _ _ fun c' hc' => ?_)
        by_cases hcc : c' = c
        · rw [hcc, update_self, update_self]
        · rw [update_of_ne hcc, update_of_ne hcc, h c' hc']

/-- Slots keep the clients apart. -/
theorem perClient_independent {S : Type} (ingest : S → FragmentedEvent → S × Option Bytes)
    (prune : S → S) : (perClient ingest prune).Independent u :=
  fun r ops => perClient_replies ingest prune ops r r fun _ _ => rfl

end Reassembler

/-- A refused token leaves no trace. -/
def AuthSessionVerifier.RefusesSilently {A : Type} (v : AuthSessionVerifier A) : Prop :=
  ∀ auth token tick err, (v.verifySession auth token tick).2 = .error err →
    (v.verifySession auth token tick).1 = auth

/-! ## Twins -/

variable {W A R F : Type}

/-- A property of the world that lasts as long as nothing is queued for `u`. -/
structure Spares (ws : WorldState W F) (u : ClientId) (J : W → Prop) : Prop where
  advanceTick : ∀ w, J w → J (ws.advanceTick w)
  stressTest : ∀ w count rotate, J w → J (ws.stressTest w count rotate)
  despawnNetworked : ∀ w n, J w → J (ws.despawnNetworked w n).1
  spawnKindFor : ∀ w kind x y rot c, J w → J (ws.spawnKindFor w kind x y rot c).1
  spawnSessionAgent : ∀ w kind x y rot c, J w → J (ws.spawnSessionAgent w kind x y rot c).1
  queueReliableEvent : ∀ w c event, c ≠ u → J w → J (ws.queueReliableEvent w (some c) event)
  clearWorld : ∀ w, J w → J (ws.clearWorld w)
  applyUpdates : ∀ w updates, J w → J (ws.applyUpdates w updates)
  simulate : ∀ w, J w → J (ws.simulate w)
  extractDeltas : ∀ w, J w → J (ws.extractDeltas w).1
  extractReliableEvents : ∀ w, J w → J (ws.extractReliableEvents w).1
  postExtract : ∀ w, J w → J (ws.postExtract w)

/-- Login times that differ at most at `u`. If `u` had none at the start, it has none in either. -/
structure StampsAlike (u : ClientId) (t₀ : Option Instant) (t t' : ClientId → Option Instant) :
    Prop where
  others : ∀ c, c ≠ u → t' c = t c
  own : t₀ = none → t u = none ∧ t' u = none

namespace StampsAlike

variable {u : ClientId} {t₀ : Option Instant} {t t' : ClientId → Option Instant}

theorem refl (u : ClientId) (t : ClientId → Option Instant) : StampsAlike u (t u) t t :=
  ⟨fun _ _ => rfl, fun h => ⟨h, h⟩⟩

theorem update (h : StampsAlike u t₀ t t') (c : ClientId) {stamp : Option Instant}
    (hstamp : c = u → stamp = none) :
    StampsAlike u t₀ (Function.update t c stamp) (Function.update t' c stamp) where
  others c' hc' := by
    by_cases hc : c' = c
    · rw [hc, update_self, update_self]
    · rw [update_of_ne hc, update_of_ne hc, h.others c' hc']
  own hnone := by
    by_cases hc : u = c
    · rw [← hc, update_self, update_self]
      exact ⟨hstamp hc.symm, hstamp hc.symm⟩
    · rw [update_of_ne hc, update_of_ne hc]
      exact h.own hnone

theorem forget (h : StampsAlike u t₀ t t') (c : ClientId) :
    StampsAlike u t₀ (Function.update t c none) (Function.update t' c none) :=
  h.update c fun _ => rfl

theorem forget_own (h : StampsAlike u t₀ t t') :
    StampsAlike u t₀ (Function.update t u none) t' where
  others c hc := by rw [update_of_ne hc, h.others c hc]
  own hnone := ⟨update_self .., (h.own hnone).2⟩

theorem eq_of_none (h : StampsAlike u none t t') : t' = t := by
  funext c
  by_cases hc : c = u
  · rw [hc, (h.own rfl).1, (h.own rfl).2]
  · exact h.others c hc

end StampsAlike

/-- The same scheduler with another reassembler and other login times. -/
def TickScheduler.mask (s : TickScheduler A R) (r : R) (t : ClientId → Option Instant) :
    TickScheduler A R :=
  { s with reassembler := r, authTimestamps := t }

def TickState.mask (st : TickState W A R) (r : R) (t : ClientId → Option Instant) :
    TickState W A R :=
  { st with sched := st.sched.mask r t }

/-- `u` is not on record and nothing is on its way to it. -/
structure Silent (u : ClientId) (J : W → Prop) (st : TickState W A R) : Prop where
  unknown : st.sched.authenticatedClients.lookup u = none
  acks : u ∉ st.clearAckTargets
  pongs : ∀ p ∈ st.pongResponses, p.1 ≠ u
  world : J st.world

/-- `st` is a state of the run with `u`, whose reassembler is `r`; `st'` is the state of the run
without `u`, whose reassembler is `r'`. -/
structure Twin (u : ClientId) (t₀ : Option Instant) (J : W → Prop) (r r' : R)
    (st st' : TickState W A R) : Prop extends Silent u J st where
  reassembler : st.sched.reassembler = r
  mask : ∃ t, st' = st.mask r' t ∧ StampsAlike u t₀ st.sched.authTimestamps t

namespace Twin

variable {ws : WorldState W F} {u : ClientId} {t₀ : Option Instant} {J : W → Prop} {r r' : R}
  {st st' : TickState W A R}

theorem clients_eq (h : Twin u t₀ J r r' st st') :
    st'.sched.authenticatedClients = st.sched.authenticatedClients := by
  obtain ⟨t, rfl, -⟩ := h.mask
  rfl

theorem world_eq (h : Twin u t₀ J r r' st st') : st'.world = st.world := by
  obtain ⟨t, rfl, -⟩ := h.mask
  rfl

theorem updates_eq (h : Twin u t₀ J r r' st st') : st'.updates = st.updates := by
  obtain ⟨t, rfl, -⟩ := h.mask
  rfl

theorem dropClient (hJ : Spares ws u J) (h : Twin u t₀ J r r' st st') (c : ClientId) :
    Twin u t₀ J r r' (st.dropClient ws c) (st'.dropClient ws c) := by
  obtain ⟨⟨hunknown, hacks, hpongs, hworld⟩, hr, t, rfl, ht⟩ := h
  have hlookup := AList.lookup_erase_of_eq_none hunknown c
  unfold TickState.dropClient
  dsimp only [TickState.mask, TickScheduler.mask]
  split
  · exact ⟨⟨hlookup, hacks, hpongs, hJ.despawnNetworked _ _ hworld⟩, hr, _, rfl, ht.forget c⟩
  · exact ⟨⟨hlookup, hacks, hpongs, hworld⟩, hr, _, rfl, ht.forget c⟩

theorem kickClients (hJ : Spares ws u J) (cs : List ClientId) (h : Twin u t₀ J r r' st st') :
    Twin u t₀ J r r' (cs.foldl (kickClient ws) st) (cs.foldl (kickClient ws) st') := by
  induction cs generalizing st st' with
  | nil => exact h
  | cons c cs ih =>
    refine ih ?_
    obtain ⟨⟨hunknown, hacks, hpongs, hworld⟩, hr, t, hmask, ht⟩ := h.dropClient hJ c
    unfold kickClient
    rw [hmask]
    exact ⟨⟨hunknown, hacks, hpongs, hworld⟩, hr, t, rfl, ht⟩

theorem withAuth (h : Twin u t₀ J r r' st st') (auth : A) :
    Twin u t₀ J r r' { st with sched := { st.sched with authService := auth } }
      { st' with sched := { st'.sched with authService := auth } } := by
  obtain ⟨⟨hunknown, hacks, hpongs, hworld⟩, hr, t, rfl, ht⟩ := h
  exact ⟨⟨hunknown, hacks, hpongs, hworld⟩, hr, t, rfl, ht⟩

theorem withReassembler (h : Twin u t₀ J r r' st st') (q q' : R) :
    Twin u t₀ J q q' { st with sched := { st.sched with reassembler := q } }
      { st' with sched := { st'.sched with reassembler := q' } } := by
  obtain ⟨⟨hunknown, hacks, hpongs, hworld⟩, -, t, rfl, ht⟩ := h
  exact ⟨⟨hunknown, hacks, hpongs, hworld⟩, rfl, t, rfl, ht⟩

theorem withWorld (h : Twin u t₀ J r r' st st') {w : W} (hw : J w) :
    Twin u t₀ J r r' { st with world := w } { st' with world := w } := by
  obtain ⟨⟨hunknown, hacks, hpongs, -⟩, hr, t, rfl, ht⟩ := h
  exact ⟨⟨hunknown, hacks, hpongs, hw⟩, hr, t, rfl, ht⟩

theorem withUpdates (h : Twin u t₀ J r r' st st') (updates : List (ClientId × ComponentUpdate)) :
    Twin u t₀ J r r' { st with updates := st.updates ++ updates }
      { st' with updates := st'.updates ++ updates } := by
  obtain ⟨⟨hunknown, hacks, hpongs, hworld⟩, hr, t, rfl, ht⟩ := h
  exact ⟨⟨hunknown, hacks, hpongs, hworld⟩, hr, t, rfl, ht⟩

variable {c : ClientId} (hc : c ≠ u)
include hc

theorem withPong (h : Twin u t₀ J r r' st st') (tick : UInt64) :
    Twin u t₀ J r r' { st with pongResponses := st.pongResponses ++ [(c, tick)] }
      { st' with pongResponses := st'.pongResponses ++ [(c, tick)] } := by
  obtain ⟨⟨hunknown, hacks, hpongs, hworld⟩, hr, t, rfl, ht⟩ := h
  refine ⟨⟨hunknown, hacks, fun p hp => ?_, hworld⟩, hr, t, rfl, ht⟩
  rcases List.mem_append.mp hp with hold | hnew
  · exact hpongs p hold
  · rw [List.mem_singleton.mp hnew]
    exact hc

theorem record (h : Twin u t₀ J r r' st st') (now : Instant) (session : VerifiedSession) :
    Twin u t₀ J r r' (st.record now c session) (st'.record now c session) := by
  obtain ⟨⟨hunknown, hacks, hpongs, hworld⟩, hr, t, rfl, ht⟩ := h
  have hlookup : (st.sched.authenticatedClients.insert c (session, none)).lookup u = none := by
    rw [AList.lookup_insert_ne hc.symm]
    exact hunknown
  exact ⟨⟨hlookup, hacks, hpongs, hworld⟩, hr, _, rfl, ht.update c fun h => absurd h hc⟩

theorem login (env : ServerEnv A R F) (hJ : Spares ws u J) (h : Twin u t₀ J r r' st st')
    (now : Instant) (session : VerifiedSession) :
    Twin u t₀ J r r' (st.login env ws now c session) (st'.login env ws now c session) := by
  unfold TickState.login
  rw [h.clients_eq]
  exact (h.kickClients hJ _).record hc now session

theorem queuePossession (hJ : Spares ws u J) (h : Twin u t₀ J r r' st st') (n : NetworkId) :
    Twin u t₀ J r r' (st.queuePossession ws c n) (st'.queuePossession ws c n) := by
  obtain ⟨⟨hunknown, hacks, hpongs, hworld⟩, hr, t, rfl, ht⟩ := h
  exact ⟨⟨hunknown, hacks, hpongs, hJ.queueReliableEvent _ c _ hc hworld⟩, hr, _, rfl,
    ht.forget c⟩

omit hc in
theorem lookup_setAgent_of_none {records : Clients} (h : records.lookup u = none)
    (c : ClientId) (agent : Option NetworkId) : (setAgent records c agent).lookup u = none := by
  rw [lookup_setAgent, h]
  rfl

theorem clearWorld (hJ : Spares ws u J) (h : Twin u t₀ J r r' st st') :
    Twin u t₀ J r r' (st.clearWorld ws c) (st'.clearWorld ws c) := by
  obtain ⟨⟨hunknown, hacks, hpongs, hworld⟩, hr, t, rfl, ht⟩ := h
  refine ⟨⟨lookup_setAgent_of_none hunknown c none, fun hmem => ?_, hpongs,
    hJ.clearWorld _ hworld⟩, hr, t, rfl, ht⟩
  rcases List.mem_append.mp hmem with hold | hnew
  · exact hacks hold
  · exact hc (List.mem_singleton.mp hnew).symm

theorem startSession [F32 F] (hJ : Spares ws u J) (h : Twin u t₀ J r r' st st') :
    Twin u t₀ J r r' (st.startSession ws c) (st'.startSession ws c) := by
  obtain ⟨⟨hunknown, hacks, hpongs, hworld⟩, hr, t, rfl, ht⟩ := h
  have h : Twin u t₀ J r r' st (st.mask r' t) := ⟨⟨hunknown, hacks, hpongs, hworld⟩, hr, t, rfl, ht⟩
  unfold TickState.startSession
  dsimp only [TickState.mask, TickScheduler.mask] at h ⊢
  split
  · exact h.queuePossession hc hJ _
  · -- the new agent is put on record before the possession is queued
    refine queuePossession hc hJ ?_ _
    exact ⟨⟨lookup_setAgent_of_none hunknown c _, hacks, hpongs,
      hJ.spawnSessionAgent _ _ _ _ _ _ hworld⟩, hr, t, rfl, ht⟩
  · exact h

variable [F32 F] (env : ServerEnv A R F)

theorem handleProtocol (hJ : Spares ws u J) (h : Twin u t₀ J r r' st st') (jti : String)
    (raw : Bytes) :
    Twin u t₀ J r r' (st.handleProtocol env ws c jti raw)
      (st'.handleProtocol env ws c jti raw) := by
  obtain ⟨t, rfl, -⟩ := h.mask
  unfold TickState.handleProtocol
  split
  · exact h.withPong hc _
  · split
    · exact h.withWorld (hJ.stressTest _ _ _ h.world)
    · exact h
  · split
    · exact h.withWorld (hJ.spawnKindFor _ _ _ _ _ _ h.world)
    · exact h
  · exact h.startSession hc hJ
  · split
    · exact h.clearWorld hc hJ
    · exact h
  · exact h.withWorld (hJ.queueReliableEvent _ _ _ hc h.world)
  · exact h.withUpdates _
  · exact h
  · split
    · exact h.withUpdates _
    · exact h

omit [F32 F] in
theorem handleUnauthenticated (hJ : Spares ws u J) (h : Twin u t₀ J r r' st st') (tick : UInt64)
    (now : Instant) (raw : Bytes) :
    Twin u t₀ J r r' (st.handleUnauthenticated env ws tick now c raw)
      (st'.handleUnauthenticated env ws tick now c raw) := by
  obtain ⟨t, rfl, -⟩ := h.mask
  unfold TickState.handleUnauthenticated
  split
  · next token _ =>
    dsimp only [TickState.mask, TickScheduler.mask] at h ⊢
    split
    · exact (h.withAuth _).login hc env hJ now _
    · exact h.withAuth _
  · exact h

theorem handleMessage (hJ : Spares ws u J) (h : Twin u t₀ J r r' st st') (tick : UInt64)
    (now : Instant) (raw : Bytes) :
    Twin u t₀ J r r' (st.handleMessage env ws tick now c raw)
      (st'.handleMessage env ws tick now c raw) := by
  obtain ⟨t, rfl, -⟩ := h.mask
  unfold TickState.handleMessage
  dsimp only [TickState.mask, TickScheduler.mask] at h ⊢
  split
  · split
    · exact (h.withAuth _).handleProtocol hc env hJ _ _
    · exact (h.withAuth _).dropClient hJ _
  · exact h.handleUnauthenticated hc env hJ tick now raw

omit hc [F32 F] in
theorem validateSessions (hJ : Spares ws u J) (h : Twin u t₀ J r r' st st') (tick : UInt64) :
    Twin u t₀ J r r' (st.validateSessions env ws tick) (st'.validateSessions env ws tick) := by
  obtain ⟨t, rfl, -⟩ := h.mask
  exact (h.withAuth _).kickClients hJ _

end Twin

/-! ## Events of the other clients -/

/-- Twins whose reassemblers cannot be told apart by anybody but `u`. -/
structure Alike (ra : Reassembler R) (u : ClientId) (t₀ : Option Instant) (J : W → Prop)
    (st st' : TickState W A R) : Prop where
  twin : Twin u t₀ J st.sched.reassembler st'.sched.reassembler st st'
  indist : ra.Indist u st.sched.reassembler st'.sched.reassembler

theorem Twin.toAlike {ra : Reassembler R} {u : ClientId} {t₀ : Option Instant} {J : W → Prop}
    {r r' : R} {st st' : TickState W A R} (h : Twin u t₀ J r r' st st') (hi : ra.Indist u r r') :
    Alike ra u t₀ J st st' := by
  obtain ⟨hsilent, rfl, t, rfl, ht⟩ := h
  exact ⟨⟨hsilent, rfl, t, rfl, ht⟩, hi⟩

namespace Alike

variable {env : ServerEnv A R F} {ws : WorldState W F} {u : ClientId} {t₀ : Option Instant}
  {J : W → Prop} {st st' : TickState W A R}

theorem refl (ra : Reassembler R) {st : TickState W A R} (h : Silent u J st) :
    Alike ra u (st.sched.authTimestamps u) J st st :=
  ⟨⟨h, rfl, st.sched.authTimestamps, rfl, .refl _ _⟩, .refl _⟩

variable [F32 F] (hJ : Spares ws u J)
include hJ

theorem handleFragment {c : ClientId} (hc : c ≠ u) (h : Alike env.reassembler u t₀ J st st')
    (tick : UInt64) (now : Instant) (fragment : FragmentedEvent) :
    Alike env.reassembler u t₀ J (st.handleFragment env ws tick now c fragment)
      (st'.handleFragment env ws tick now c fragment) := by
  obtain ⟨hdata, hi⟩ := h.indist.ingest hc fragment
  have hnext := h.twin.withReassembler (env.reassembler.ingest st.sched.reassembler c fragment).1
    (env.reassembler.ingest st'.sched.reassembler c fragment).1
  unfold TickState.handleFragment
  dsimp only
  rw [hdata]
  cases (env.reassembler.ingest st.sched.reassembler c fragment).2 with
  | none => exact hnext.toAlike hi
  | some raw => exact (hnext.handleMessage hc env hJ tick now raw).toAlike hi

theorem handleRaw {c : ClientId} (hc : c ≠ u) (h : Alike env.reassembler u t₀ J st st')
    (tick : UInt64) (now : Instant) (data : Bytes) :
    Alike env.reassembler u t₀ J (st.handleRaw env ws tick now c data)
      (st'.handleRaw env ws tick now c data) := by
  unfold TickState.handleRaw
  split
  · exact h.handleFragment hJ hc tick now _
  · exact (h.twin.handleMessage hc env hJ tick now data).toAlike h.indist

omit [F32 F] in
theorem dropClient (h : Alike env.reassembler u t₀ J st st') (c : ClientId) :
    Alike env.reassembler u t₀ J (st.dropClient ws c) (st'.dropClient ws c) :=
  (h.twin.dropClient hJ c).toAlike h.indist

/-- The event of another client does the same in both runs. -/
theorem handleEvent (h : Alike env.reassembler u t₀ J st st') (tick : UInt64) (now : Instant)
    {event : NetworkEvent F} (hsender : event.sender ≠ some u) :
    Alike env.reassembler u t₀ J (st.handleEvent env ws tick now event)
      (st'.handleEvent env ws tick now event) := by
  have hc : ∀ c, event.sender = some c → c ≠ u := by
    rintro c hc rfl
    exact hsender hc
  cases event with
  | fragment c fragment => exact h.handleFragment hJ (hc c rfl) tick now fragment
  | unreliableMessage c data => exact h.handleRaw hJ (hc c rfl) tick now data
  | reliableMessage c data => exact h.handleRaw hJ (hc c rfl) tick now data
  | clientDisconnected c | disconnected c | sessionClosed c | streamReset c =>
    exact h.dropClient hJ c
  | ping c t =>
    unfold TickState.handleEvent
    rw [h.twin.clients_eq]
    dsimp only
    split
    · exact (h.twin.withPong (hc c rfl) t).toAlike h.indist
    · exact h
  | _ => exact h

end Alike

end Aetheris
