import Aetheris.Server.Matchmaking

/-!
# Entries of the queue map

The map holds one sender for each session token. A second join for a token replaces the sender of the
first one, which resolves the channel of a task that nobody has cancelled; and a task that ends
removes whatever is under its token, also the entry of a later join. Both happen in
`second_join_cancels_first`.

While joins for a token come only after its earlier tasks have ended, the map and the tasks agree
(`Owned`): every task that is still running and has not been signalled has its entry, and only
`cancel_queue` signals it. So a task is cancelled only on request (`cancelled_on_request`).
-/

namespace Aetheris.Matchmaking

open Function

/-! ## Ownership -/

def Phase.isEnded : Phase → Bool
  | .ended => true
  | _ => false

/-- `cancel_queue` was called for the token after the task had joined. -/
def Asked (t : Nat) (token : String) (trace : List Event) : Prop :=
  ∃ before found after, trace = before ++ .cancelReply token found :: after ∧
    .joined t token ∈ before

/-- A join comes only when the earlier tasks of its token have ended. -/
def Orderly (st : State) (events : List Event) : Prop :=
  ∀ t token, .joined t token ∈ events → ∀ t' task, st.tasks t' = some task →
    task.token = token → task.phase.isEnded = true

/-- The map and the running tasks agree. -/
structure Owned (trace : List Event) (st : State) : Prop where
  joined : ∀ t task, st.tasks t = some task → .joined t task.token ∈ trace
  unique : ∀ t t' task task', st.tasks t = some task → st.tasks t' = some task' →
    task.token = task'.token → task.phase.isEnded = false → task'.phase.isEnded = false → t = t'
  entry : ∀ token t, st.activeQueues token = some t → ∃ task, st.tasks t = some task ∧
    task.token = token ∧ task.phase.isEnded = false ∧ task.signal = none
  owner : ∀ t task, st.tasks t = some task → task.phase.isEnded = false → task.signal = none →
    st.activeQueues task.token = some t
  asked : ∀ t task, st.tasks t = some task → task.phase.isEnded = false → task.signal ≠ none →
    Asked t task.token trace
  cancelling : ∀ t task, st.tasks t = some task → task.phase = .cancelling → task.signal ≠ none

section

variable {env : MatchEnv} {trace events : List Event} {st st' : State} {t : Nat} {task : Task}

theorem Asked.append {token : String} (h : Asked t token trace) (events : List Event) :
    Asked t token (trace ++ events) := by
  obtain ⟨before, found, after, rfl, hjoined⟩ := h
  exact ⟨before, found, after ++ events, by rw [List.append_assoc, List.cons_append], hjoined⟩

theorem owned_new (now : Instant) : Owned [] (.new now) := by
  have htasks : ∀ t task, (State.new now).tasks t ≠ some task := fun _ _ h => by cases h
  have hqueues : ∀ token t, (State.new now).activeQueues token ≠ some t := fun _ _ h => by cases h
  exact ⟨fun t task h => absurd h (htasks t task), fun t _ task _ h => absurd h (htasks t task),
    fun token t h => absurd h (hqueues token t), fun t task h => absurd h (htasks t task),
    fun t task h => absurd h (htasks t task), fun t task h => absurd h (htasks t task)⟩

/-- The tasks and the map stay as they are. -/
theorem Owned.same (h : Owned trace st) (st' : State) (htasks : st'.tasks = st.tasks)
    (hqueues : st'.activeQueues = st.activeQueues) (events : List Event) :
    Owned (trace ++ events) st' := by
  refine ⟨?_, ?_, ?_, ?_, ?_, ?_⟩
  · rw [htasks]
    exact fun t task ht => List.mem_append_left _ (h.joined t task ht)
  · rw [htasks]
    exact h.unique
  · rw [htasks, hqueues]
    exact h.entry
  · rw [htasks, hqueues]
    exact h.owner
  · rw [htasks]
    exact fun t task ht hrunning hsignal => (h.asked t task ht hrunning hsignal).append events
  · rw [htasks]
    exact h.cancelling

/-- One running task changes its phase, and keeps running. -/
theorem Owned.proceed (h : Owned trace st) (ht : st.tasks t = some task) (task' : Task)
    (htoken : task'.token = task.token) (hsignal : task'.signal = task.signal)
    (hended : task'.phase.isEnded = task.phase.isEnded)
    (hcancelling : task'.phase = .cancelling → task.signal ≠ none) (events : List Event) :
    Owned (trace ++ events) (st.setTask t task') := by
  -- what the new table says of a task, the old one says as well
  have hold : ∀ k task'', (st.setTask t task').tasks k = some task'' → ∃ before,
      st.tasks k = some before ∧ task''.token = before.token ∧ task''.signal = before.signal ∧
        task''.phase.isEnded = before.phase.isEnded ∧
        (task''.phase = .cancelling → before.signal ≠ none) := by
    intro k task'' hk
    rcases of_update_some hk with ⟨rfl, rfl⟩ | ⟨-, hk⟩
    · exact ⟨task, ht, htoken, hsignal, hended, hcancelling⟩
    · exact ⟨task'', hk, rfl, rfl, rfl, h.cancelling k task'' hk⟩
  refine ⟨fun k task'' hk => ?_, fun k k' a b hk hk' hsame ha hb => ?_, fun token k hk => ?_,
    fun k task'' hk hrunning hnone => ?_, fun k task'' hk hrunning hsome => ?_,
    fun k task'' hk hphase => ?_⟩
  · obtain ⟨before, hbefore, htok, -⟩ := hold k task'' hk
    rw [htok]
    exact List.mem_append_left _ (h.joined k before hbefore)
  · obtain ⟨before, hbefore, htok, -, hend, -⟩ := hold k a hk
    obtain ⟨before', hbefore', htok', -, hend', -⟩ := hold k' b hk'
    exact h.unique k k' before before' hbefore hbefore' (htok ▸ htok' ▸ hsame) (hend ▸ ha)
      (hend' ▸ hb)
  · obtain ⟨before, hbefore, htok, hrunning, hnone⟩ := h.entry token k hk
    by_cases hkt : k = t
    · subst hkt
      obtain rfl := Option.some.inj (hbefore.symm.trans ht)
      exact ⟨task', update_self .., htoken.trans htok, hended.trans hrunning,
        hsignal.trans hnone⟩
    · exact ⟨before, (update_of_ne hkt _ _).trans hbefore, htok, hrunning, hnone⟩
  · obtain ⟨before, hbefore, htok, hsig, hend, -⟩ := hold k task'' hk
    rw [htok]
    exact h.owner k before hbefore (hend ▸ hrunning) (hsig ▸ hnone)
  · obtain ⟨before, hbefore, htok, hsig, hend, -⟩ := hold k task'' hk
    rw [htok]
    exact (h.asked k before hbefore (hend ▸ hrunning) (hsig ▸ hsome)).append events
  · obtain ⟨before, hbefore, -, hsig, -, hcancel⟩ := hold k task'' hk
    rw [hsig]
    exact hcancel hphase

theorem Owned.join (h : Owned trace st) (token : String) (ht : st.tasks t = none)
    (horderly : Orderly st [.joined t token]) :
    Owned (trace ++ [.joined t token])
      (({ st with
          activeQueues := update st.activeQueues token (some t) } : State).dropSender
        (st.activeQueues token) |>.setTask t ⟨token, none, .spawned, false⟩) := by
  have hearlier := horderly t token List.mem_cons_self
  -- an entry would belong to a running task of the token
  have hfree : st.activeQueues token = none := by
    refine Option.eq_none_iff_forall_ne_some.mpr fun k hk => ?_
    obtain ⟨task, hk, htoken, hrunning, -⟩ := h.entry token k hk
    rw [hearlier k task hk htoken] at hrunning
    cases hrunning
  rw [hfree]
  have hne : ∀ k task, st.tasks k = some task → k ≠ t := by
    rintro k task hk rfl
    rw [ht] at hk
    cases hk
  have hotherToken : ∀ k task, st.tasks k = some task → task.phase.isEnded = false →
      task.token ≠ token := by
    intro k task hk hrunning htoken
    rw [hearlier k task hk htoken] at hrunning
    cases hrunning
  refine ⟨fun k task hk => ?_, fun k k' a b hk hk' hsame ha hb => ?_, fun token' k hk => ?_,
    fun k task hk hrunning hnone => ?_, fun k task hk hrunning hsome => ?_,
    fun k task hk hphase => ?_⟩
  · rcases of_update_some hk with ⟨rfl, rfl⟩ | ⟨-, hk⟩
    · exact List.mem_append_right _ List.mem_cons_self
    · exact List.mem_append_left _ (h.joined k task hk)
  · rcases of_update_some hk with ⟨rfl, rfl⟩ | ⟨-, hk⟩ <;>
      rcases of_update_some hk' with ⟨rfl, rfl⟩ | ⟨-, hk'⟩
    · rfl
    · exact absurd hsame.symm (hotherToken k' b hk' hb)
    · exact absurd hsame (hotherToken k a hk ha)
    · exact h.unique k k' a b hk hk' hsame ha hb
  · rcases of_update_some hk with ⟨rfl, rfl⟩ | ⟨-, hk⟩
    · exact ⟨_, update_self .., rfl, rfl, rfl⟩
    · obtain ⟨task, hk, hrest⟩ := h.entry token' k hk
      exact ⟨task, (update_of_ne (hne k task hk) _ _).trans hk, hrest⟩
  · rcases of_update_some hk with ⟨rfl, rfl⟩ | ⟨-, hk⟩
    · exact update_self ..
    · exact (update_of_ne (hotherToken k task hk hrunning) _ _).trans
        (h.owner k task hk hrunning hnone)
  · rcases of_update_some hk with ⟨rfl, rfl⟩ | ⟨-, hk⟩
    · exact absurd rfl hsome
    · exact (h.asked k task hk hrunning hsome).append _
  · rcases of_update_some hk with ⟨rfl, rfl⟩ | ⟨-, hk⟩
    · cases hphase
    · exact h.cancelling k task hk hphase

/-- What is under the token of a running task is its own entry. -/
theorem Owned.own_entry (h : Owned trace st) (ht : st.tasks t = some task)
    (hrunning : task.phase.isEnded = false) {k : Nat}
    (hk : st.activeQueues task.token = some k) : k = t := by
  obtain ⟨task', hk, htoken, hrunning', -⟩ := h.entry task.token k hk
  exact h.unique k t task' task hk ht htoken hrunning' hrunning

theorem Owned.leave (h : Owned trace st) (ht : st.tasks t = some task)
    (hphase : task.phase = .leaving) (events : List Event) :
    Owned (trace ++ events)
      (({ st.setTask t { task with phase := .ended } with
          activeQueues := update st.activeQueues task.token none } : State).dropSender
        (st.activeQueues task.token)) := by
  have hrunning : task.phase.isEnded = false := by rw [hphase]; rfl
  -- the task itself has ended, and the others are as they were
  have hold : ∀ k task', (({ st.setTask t { task with phase := .ended } with
      activeQueues := update st.activeQueues task.token none } : State).dropSender
        (st.activeQueues task.token)).tasks k = some task' →
      (k = t ∧ task'.phase = .ended ∧ task'.token = task.token) ∨
        (k ≠ t ∧ st.tasks k = some task') := by
    intro k task' hk
    rw [State.tasks_dropSender] at hk
    obtain ⟨before, hbefore, rfl⟩ := Option.map_eq_some_iff.mp hk
    rcases of_update_some hbefore with ⟨rfl, rfl⟩ | ⟨hne, hbefore⟩
    · refine Or.inl ⟨rfl, ?_⟩
      split
      · exact ⟨rfl, rfl⟩
      · exact ⟨rfl, rfl⟩
    · refine Or.inr ⟨hne, ?_⟩
      rw [if_neg fun hk => hne (h.own_entry ht hrunning hk)]
      exact hbefore
  have hothers : ∀ k task', st.tasks k = some task' → k ≠ t → task'.phase.isEnded = false →
      task'.token ≠ task.token := fun k task' hk hne hrunning' hsame =>
    hne (h.unique k t task' task hk ht hsame hrunning' hrunning)
  refine ⟨fun k task' hk => ?_, fun k k' a b hk hk' hsame ha hb => ?_, fun token k hk => ?_,
    fun k task' hk hrun hnone => ?_, fun k task' hk hrun hsome => ?_, fun k task' hk hcancel => ?_⟩
  · rcases hold k task' hk with ⟨rfl, -, htoken⟩ | ⟨-, hk⟩
    · rw [htoken]
      exact List.mem_append_left _ (h.joined k task ht)
    · exact List.mem_append_left _ (h.joined k task' hk)
  · rcases hold k a hk with ⟨-, hended, -⟩ | ⟨-, hk⟩
    · rw [hended] at ha
      cases ha
    · rcases hold k' b hk' with ⟨-, hended, -⟩ | ⟨-, hk'⟩
      · rw [hended] at hb
        cases hb
      · exact h.unique k k' a b hk hk' hsame ha hb
  · rw [State.dropSender_activeQueues] at hk
    have hne : token ≠ task.token := Function.ne_of_update_none hk
    obtain ⟨task', hk', htoken, hrun, hnone⟩ := h.entry token k (Function.of_update_none hk)
    have hkt : k ≠ t := by
      rintro rfl
      obtain rfl := Option.some.inj (hk'.symm.trans ht)
      exact hne htoken.symm
    refine ⟨task', ?_, htoken, hrun, hnone⟩
    rw [State.tasks_dropSender, show State.tasks _ k = st.tasks k from update_of_ne hkt _ _,
      hk', Option.map_some, if_neg fun hk => hkt (h.own_entry ht hrunning hk)]
  · rcases hold k task' hk with ⟨-, hended, -⟩ | ⟨hne, hk⟩
    · rw [hended] at hrun
      cases hrun
    · rw [State.dropSender_activeQueues]
      exact (update_of_ne (hothers k task' hk hne hrun) _ _).trans
        (h.owner k task' hk hrun hnone)
  · rcases hold k task' hk with ⟨-, hended, -⟩ | ⟨-, hk⟩
    · rw [hended] at hrun
      cases hrun
    · exact (h.asked k task' hk hrun hsome).append events
  · rcases hold k task' hk with ⟨-, hended, -⟩ | ⟨-, hk⟩
    · rw [hended] at hcancel
      cases hcancel
    · exact h.cancelling k task' hk hcancel

theorem Owned.cancel (h : Owned trace st) {token : String} (hentry : st.activeQueues token = some t) :
    Owned (trace ++ [.cancelReply token (some t)])
      (({ st with
          activeQueues := update st.activeQueues token none } : State).signal t .sent) := by
  obtain ⟨task, ht, htoken, hrunning, hnone⟩ := h.entry token t hentry
  -- the owner of the entry is signalled, and the others are as they were
  have hold : ∀ k task', (({ st with
      activeQueues := update st.activeQueues token none } : State).signal t .sent).tasks k =
        some task' →
      (k = t ∧ task' = { task with signal := some .sent }) ∨ (k ≠ t ∧ st.tasks k = some task') := by
    intro k task' hk
    rw [State.tasks_signal] at hk
    obtain ⟨before, hbefore, rfl⟩ := Option.map_eq_some_iff.mp hk
    by_cases hkt : k = t
    · subst hkt
      obtain rfl := Option.some.inj (ht.symm.trans hbefore)
      refine Or.inl ⟨rfl, ?_⟩
      rw [if_pos rfl, hnone]
      rfl
    · rw [if_neg hkt]
      exact Or.inr ⟨hkt, hbefore⟩
  refine ⟨fun k task' hk => ?_, fun k k' a b hk hk' hsame ha hb => ?_, fun token' k hk => ?_,
    fun k task' hk hrun hfree => ?_, fun k task' hk hrun hsome => ?_, fun k task' hk hcancel => ?_⟩
  · rcases hold k task' hk with ⟨rfl, rfl⟩ | ⟨-, hk⟩
    · exact List.mem_append_left _ (h.joined k task ht)
    · exact List.mem_append_left _ (h.joined k task' hk)
  · rcases hold k a hk with ⟨rfl, rfl⟩ | ⟨-, hka⟩ <;>
      rcases hold k' b hk' with ⟨rfl, rfl⟩ | ⟨-, hkb⟩
    · rfl
    · exact h.unique k k' task b ht hkb hsame ha hb
    · exact h.unique k k' a task hka ht hsame ha hb
    · exact h.unique k k' a b hka hkb hsame ha hb
  · rw [State.signal_activeQueues] at hk
    have hne : token' ≠ token := Function.ne_of_update_none hk
    obtain ⟨task', hk', htoken', hrun, hfree⟩ := h.entry token' k (Function.of_update_none hk)
    have hkt : k ≠ t := by
      rintro rfl
      obtain rfl := Option.some.inj (hk'.symm.trans ht)
      exact hne (htoken'.symm.trans htoken)
    refine ⟨task', ?_, htoken', hrun, hfree⟩
    rw [State.tasks_signal, show State.tasks _ k = st.tasks k from rfl, hk', Option.map_some,
      if_neg hkt]
  · rcases hold k task' hk with ⟨-, rfl⟩ | ⟨hne, hk⟩
    · cases hfree
    · rw [State.signal_activeQueues]
      have htokens : task'.token ≠ token := fun hsame =>
        hne (h.unique k t task' task hk ht (hsame.trans htoken.symm) hrun hrunning)
      exact (update_of_ne htokens _ _).trans (h.owner k task' hk hrun hfree)
  · rcases hold k task' hk with ⟨rfl, rfl⟩ | ⟨-, hk⟩
    · refine ⟨trace, some k, [], ?_, h.joined k task ht⟩
      rw [← htoken]
    · exact (h.asked k task' hk hrun hsome).append _
  · rcases hold k task' hk with ⟨-, rfl⟩ | ⟨-, hk⟩
    · exact nofun
    · exact h.cancelling k task' hk hcancel

theorem Moves.running {phase : Phase} (h : Moves env st t task phase events) :
    phase.isEnded = false ∧ task.phase.isEnded = false ∧
      (phase = .cancelling → task.signal ≠ none) := by
  cases h with
  | start h => exact ⟨rfl, by rw [h]; rfl, fun heq => by cases heq⟩
  | sleep h hnow => exact ⟨rfl, by rw [h]; rfl, fun heq => by cases heq⟩
  | signal h hsignal => exact ⟨rfl, by rw [h]; rfl, fun _ => hsignal⟩
  | choose h horder => exact ⟨rfl, by rw [h]; rfl, fun heq => by cases heq⟩
  | issue h r => exact ⟨rfl, by rw [h]; rfl, fun heq => by cases heq⟩
  | cancel h => exact ⟨rfl, by rw [h]; rfl, fun heq => by cases heq⟩
  | exhausted h => exact ⟨rfl, by rw [h]; rfl, fun heq => by cases heq⟩
  | matched h => exact ⟨rfl, by rw [h]; rfl, fun heq => by cases heq⟩
  | failed h => exact ⟨rfl, by rw [h]; rfl, fun heq => by cases heq⟩

theorem Owned.step (h : Owned trace st) (hstep : Step env st events st')
    (horderly : Orderly st events) : Owned (trace ++ events) st' := by
  cases hstep.cases with
  | idle => exact h.same st rfl rfl []
  | refused status => exact h.same st rfl rfl _
  | @clock now hnow => exact h.same { st with now := now } rfl rfl _
  | joined token ht => exact h.join token ht horderly
  | @announced t task ht =>
    exact h.proceed ht { task with announced := true } rfl rfl rfl (h.cancelling t task ht) _
  | @moved t task phase _ ht hmoves =>
    obtain ⟨hafter, hbefore, hcancelling⟩ := hmoves.running
    exact h.proceed ht { task with phase := phase } rfl rfl (hafter.trans hbefore.symm)
      hcancelling _
  | left ht hphase => exact h.leave ht hphase _
  | cancelled hentry => exact h.cancel hentry
  | missed hnone => exact h.same st rfl rfl _
  | @reported id server hid =>
    exact h.same { st with servers := st.servers.insert id server } rfl rfl _

/-! ## Cancellations and removals -/

/-- A task reports a cancellation only if it was asked for, and removes only its own entry. -/
def OnRequest (before : List Event) : Event → Prop
  | .update t (.error status) => status = cancelledByUser → ∃ token, Asked t token before
  | .left t removed => ∀ k, removed = some k → k = t
  | _ => True

theorem Owned.move_onRequest (h : Owned trace st) (ht : st.tasks t = some task) {phase : Phase}
    (hmoves : Moves env st t task phase events) : ∀ e ∈ events, OnRequest trace e := by
  intro e he
  cases hmoves with
  | start _ => cases he
  | sleep _ _ => cases he
  | signal _ _ => cases he
  | choose _ _ =>
    obtain rfl := List.mem_singleton.mp he
    trivial
  | issue _ _ =>
    obtain rfl := List.mem_singleton.mp he
    trivial
  | cancel hphase =>
    obtain rfl := List.mem_singleton.mp he
    have hrunning : task.phase.isEnded = false := by rw [hphase]; rfl
    exact fun _ => ⟨task.token, h.asked t task ht hrunning (h.cancelling t task ht hphase)⟩
  | exhausted _ =>
    obtain rfl := List.mem_singleton.mp he
    exact fun heq => by cases heq
  | matched _ =>
    obtain rfl := List.mem_singleton.mp he
    trivial
  | failed _ =>
    obtain rfl := List.mem_singleton.mp he
    -- the code of this answer is another one
    exact fun heq => nomatch congrArg Status.code heq

theorem Owned.step_onRequest (h : Owned trace st) (hstep : Step env st events st') :
    ∀ e ∈ events, OnRequest trace e := by
  intro e he
  cases hstep.cases with
  | moved ht hmoves => exact h.move_onRequest ht hmoves e he
  | left ht hphase =>
    obtain rfl := List.mem_singleton.mp he
    have hrunning : Phase.isEnded _ = false := congrArg Phase.isEnded hphase
    exact fun k hk => h.own_entry ht hrunning hk
  | idle => cases he
  | refused _ | clock _ | joined _ _ | announced _ | cancelled _ | missed _ | reported _ =>
    obtain rfl := List.mem_singleton.mp he
    trivial

theorem OnRequest.append {e : Event} (h : OnRequest trace e) (events : List Event) :
    OnRequest (trace ++ events) e := by
  unfold OnRequest at h ⊢
  split
  · exact fun hstatus => (h hstatus).imp fun _ hasked => hasked.append events
  · exact h
  · trivial

theorem run_onRequest {now : Instant}
    (h : Run (fun st events st' => Step env st events st' ∧ Orderly st events)
      (.new now) trace st) :
    Owned trace st ∧
      ∀ before e after, trace = before ++ e :: after → OnRequest before e := by
  refine h.forall_before (owned_new now) fun trace st events st' howned hstep => ?_
  refine ⟨howned.step hstep.1 hstep.2, fun before e after hevents => ?_⟩
  have he : e ∈ events := hevents ▸ List.mem_append_right before List.mem_cons_self
  exact (howned.step_onRequest hstep.1 e he).append before

/-- While every join comes after the earlier tasks of its token have ended, a task reports a
cancellation only after `cancel_queue` was called for its token since it joined, a task that ends
removes no entry but its own, and a task that runs and was not asked to stop can be cancelled. -/
theorem cancelled_on_request {now : Instant}
    (h : Run (fun st events st' => Step env st events st' ∧ Orderly st events)
      (.new now) trace st) :
    (∀ before t after, trace = before ++ .update t (.error cancelledByUser) :: after →
      ∃ token, Asked t token before) ∧
    (∀ t k, .left t (some k) ∈ trace → k = t) ∧
    ∀ t task, st.tasks t = some task → task.phase.isEnded = false →
      Asked t task.token trace ∨ st.activeQueues task.token = some t := by
  obtain ⟨howned, hevents⟩ := run_onRequest h
  refine ⟨fun before t after heq => hevents before _ after heq rfl, fun t k hleft => ?_,
    fun t task ht hrunning => ?_⟩
  · obtain ⟨before, after, heq⟩ := List.append_of_mem hleft
    exact hevents before _ after heq k rfl
  · by_cases hsignal : task.signal = none
    · exact Or.inr (howned.owner t task ht hrunning hsignal)
    · exact Or.inl (howned.asked t task ht hrunning hsignal)

end

/-! ## Two joins for one token -/

/-- The first task is cancelled on request and ends before the second one joins. -/
def rejoin : List Action :=
  [.join 0 "a" true, .proceed 0 .start, .cancel "a", .proceed 0 (.wake false), .proceed 0 .send,
    .leave 0, .join 1 "a" true]

theorem orderly_of_no_join {st : State} {events : List Event}
    (h : ∀ t token, .joined t token ∉ events) : Orderly st events :=
  fun t token hjoined => absurd hjoined (h t token)

theorem orderly_join {st : State} {t : Nat} {token : String}
    (h : ∀ t' task, st.tasks t' = some task → task.phase.isEnded = true) :
    Orderly st [.joined t token] :=
  fun _ _ _ t' task ht' _ => h t' task ht'

theorem allows_rejoin : Allows Admissible (fire plainEnv) Orderly (.new 0) rejoin := by
  refine ⟨rfl, orderly_join ?_, trivial, ?_, trivial, ?_, trivial, ?_, trivial, ?_, trivial, ?_,
    rfl, orderly_join ?_, trivial⟩
  · exact fun _ _ ht => by cases ht
  · exact orderly_of_no_join fun _ _ => List.not_mem_nil
  · exact orderly_of_no_join fun _ _ hjoined => by cases List.mem_singleton.mp hjoined
  · exact orderly_of_no_join fun _ _ => List.not_mem_nil
  · exact orderly_of_no_join fun _ _ hjoined => by cases List.mem_singleton.mp hjoined
  · exact orderly_of_no_join fun _ _ hjoined => by cases List.mem_singleton.mp hjoined
  · intro t task ht
    -- the only task is the one that has ended
    cases t with
    | zero =>
      cases ht
      rfl
    | succ t => cases ht

theorem cancelled_on_request_rejoin :
    (∃ token, Asked 0 token [.joined 0 "a", .cancelReply "a" (some 0)]) ∧
      (fires (fire plainEnv) (.new 0) rejoin).1.activeQueues "a" = some 1 := by
  obtain ⟨hcancelled, -, hrunning⟩ := cancelled_on_request (run_fires allows_rejoin)
  refine ⟨hcancelled _ 0 [.left 0 none, .joined 1 "a"] rfl, ?_⟩
  refine (hrunning 1 ⟨"a", none, .spawned, false⟩ rfl rfl).resolve_left ?_
  rintro ⟨before, found, after, heq, hjoined⟩
  -- the only call of `cancel_queue` comes before the second join
  change [Event.joined 0 "a", .cancelReply "a" (some 0), .update 0 (.error cancelledByUser),
    .left 0 none, .joined 1 "a"] = _ at heq
  have hbefore : before = [.joined 0 "a"] := by
    simp [List.cons_eq_append_iff] at heq
    exact heq.1
  rw [hbefore] at hjoined
  cases List.mem_singleton.mp hjoined

/-- A second join for the token replaces the sender of the first one. -/
def secondJoin : List Action :=
  [.join 0 "a" true, .join 1 "a" true, .proceed 0 .start, .proceed 0 (.wake false),
    .proceed 0 .send, .leave 0]

/-- The first task takes the branch of the channel and reports a cancellation, though `cancel_queue`
is never called. Then it removes the entry of the second task, which runs on and can no longer be
cancelled. -/
theorem second_join_cancels_first :
    ∃ st, Run (Step plainEnv) (.new 0)
        [.joined 0 "a", .joined 1 "a", .update 0 (.error cancelledByUser), .left 0 (some 1)] st ∧
      (∃ task, st.tasks 1 = some task ∧ task.token = "a" ∧ task.phase.isEnded = false) ∧
      st.activeQueues "a" = none := by
  have hallows : Allows Admissible (fire plainEnv) (fun _ _ => True) (.new 0) secondJoin := by
    refine ⟨rfl, trivial, rfl, trivial, ?_⟩
    repeat' constructor
  exact ⟨_, (run_fires hallows).mono fun _ _ _ h => h.1, ⟨_, rfl, rfl, rfl⟩, rfl⟩

end Aetheris.Matchmaking
