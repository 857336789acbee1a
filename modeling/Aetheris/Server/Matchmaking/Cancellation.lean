import Aetheris.Server.Matchmaking

/-!
# Cancellations and matches

`cancel_queue` answers that it succeeded whenever the entry is there. The entry stays in the map until
the task ends, so the task may be past its wait: the answer is a success and the match is delivered
(`cancelled_task_matched`). And when the channel and the sleep are both ready, the `select!` may take
the branch of the sleep.

While a cancellation finds its task before the end of its sleep, and the task is polled before the
sleep ends, a task that was cancelled never delivers a match (`cancelled_never_matched`).
-/

namespace Aetheris.Matchmaking

/-- The sleep of the task has not ended. -/
def Phase.pending (now : Instant) : Phase → Prop
  | .spawned => True
  | .waiting deadline => now < deadline
  | _ => False

/-- Every cancellation finds its task before the end of its sleep, and a task whose channel has
resolved is polled before that. -/
structure Prompt (st : State) (events : List Event) : Prop where
  cancel : ∀ token t, .cancelReply token (some t) ∈ events →
    ∃ task, st.tasks t = some task ∧ task.phase.pending st.now
  clock : ∀ now, .clock now ∈ events → ∀ t task deadline, st.tasks t = some task →
    task.signal ≠ none → task.phase = .waiting deadline → now < deadline

/-- The stream of the task delivers a match. -/
def Matched (t : Nat) (trace : List Event) : Prop :=
  ∃ token addr id, .update t (.ok (.matched token addr id)) ∈ trace

/-- A task that was cancelled in time: it waits with its sleep running, or is past the branch of the
channel. -/
def Phase.barred (now : Instant) : Phase → Prop
  | .spawned | .cancelling | .leaving | .ended => True
  | .waiting deadline => now < deadline
  | .woken | .chosen _ | .issued _ _ => False

/-- The last update is sent. -/
def Phase.isOver : Phase → Bool
  | .leaving | .ended => true
  | _ => false

structure Barred (trace : List Event) (st : State) : Prop where
  matched : ∀ t, Matched t trace → ∃ task, st.tasks t = some task ∧ task.phase.isOver = true
  cancelled : ∀ token t, .cancelReply token (some t) ∈ trace → ¬ Matched t trace ∧
    ∃ task, st.tasks t = some task ∧ task.signal ≠ none ∧ task.phase.barred st.now

section

variable {env : MatchEnv} {trace events : List Event} {st st' : State} {t : Nat} {task : Task}
  {phase : Phase}

theorem Phase.pending.barred {now : Instant} (h : phase.pending now) : phase.barred now := by
  cases phase with
  | spawned => trivial
  | waiting deadline => exact h
  | cancelling | woken | chosen _ | issued _ _ | leaving | ended => exact h.elim

theorem Phase.pending.not_over {now : Instant} (h : phase.pending now) : phase.isOver ≠ true := by
  cases phase with
  | spawned | waiting _ => exact Bool.false_ne_true
  | cancelling | woken | chosen _ | issued _ _ | leaving | ended => exact h.elim

theorem matched_append : Matched t (trace ++ events) ↔ Matched t trace ∨ Matched t events := by
  constructor
  · rintro ⟨token, addr, id, hupdate⟩
    rcases List.mem_append.mp hupdate with hupdate | hupdate
    · exact Or.inl ⟨token, addr, id, hupdate⟩
    · exact Or.inr ⟨token, addr, id, hupdate⟩
  · rintro (⟨token, addr, id, hupdate⟩ | ⟨token, addr, id, hupdate⟩)
    · exact ⟨token, addr, id, List.mem_append_left _ hupdate⟩
    · exact ⟨token, addr, id, List.mem_append_right _ hupdate⟩

/-! ## One task -/

/-- A task delivers a match when it has a token, and then is over. -/
theorem Moves.of_matched (h : Moves env st t task phase events) (hmatched : Matched t events) :
    (∃ server token, task.phase = .issued server (.ok token)) ∧ phase = .leaving := by
  obtain ⟨token, addr, id, hupdate⟩ := hmatched
  cases h with
  | start _ | sleep _ _ | signal _ _ => cases hupdate
  | choose _ _ | issue _ _ | cancel _ | exhausted _ | failed _ =>
    cases List.mem_singleton.mp hupdate
  | matched hphase => exact ⟨⟨_, _, hphase⟩, rfl⟩

theorem Progress.of_matched (h : Progress env st t task events phase)
    (hmatched : Matched t events) :
    (∃ server token, task.phase = .issued server (.ok token)) ∧ phase = .leaving := by
  cases h with
  | stays hquiet =>
    obtain ⟨token, addr, id, hupdate⟩ := hmatched
    cases hquiet _ hupdate rfl
  | moves hmoves => exact hmoves.of_matched hmatched
  | ends _ _ =>
    obtain ⟨token, addr, id, hupdate⟩ := hmatched
    cases List.mem_singleton.mp hupdate

theorem Progress.over (h : Progress env st t task events phase)
    (hover : task.phase.isOver = true) : phase.isOver = true := by
  cases h with
  | stays _ => exact hover
  | ends _ _ => rfl
  | moves hmoves =>
    -- a task that is over has no section left
    cases hmoves with
    | start h | sleep h _ | signal h _ | choose h _ | issue h _ | cancel h | exhausted h
    | matched h | failed h =>
      rw [h] at hover
      cases hover

theorem Progress.barred (h : Progress env st t task events phase)
    (hbarred : task.phase.barred st.now) : phase.barred st.now := by
  cases h with
  | stays _ => exact hbarred
  | ends _ _ => trivial
  | moves hmoves =>
    cases hmoves with
    | start _ => exact Nat.lt_add_of_pos_right (by decide)
    | signal _ _ | cancel _ | exhausted _ | matched _ | failed _ => trivial
    | sleep h hnow =>
      rw [h] at hbarred
      exact absurd hnow (Nat.not_le_of_lt hbarred)
    | choose h _ | issue h _ =>
      rw [h] at hbarred
      exact hbarred.elim

/-! ## One step -/

theorem StepCase.now_eq (h : StepCase env st events st') :
    st'.now = st.now ∨ ∃ now, events = [.clock now] ∧ st' = { st with now := now } := by
  cases h with
  | clock _ => exact Or.inr ⟨_, rfl, rfl⟩
  | joined token _ => exact Or.inl (State.dropSender_now _ _)
  | left _ _ => exact Or.inl (State.dropSender_now _ _)
  | cancelled _ => exact Or.inl (State.signal_now _ _ _)
  | idle | refused _ | announced _ | moved _ _ | missed _ | reported _ => exact Or.inl rfl

theorem StepCase.task_of_mover (h : StepCase env st events st') {e : Event} (he : e ∈ events)
    (hmover : e.mover = some t) : ∃ task, st.tasks t = some task := by
  cases h with
  | idle => cases he
  | refused _ | clock _ | joined _ _ | cancelled _ | missed _ | reported _ =>
    rw [List.mem_singleton.mp he] at hmover
    cases hmover
  | announced ht | left ht _ =>
    rw [List.mem_singleton.mp he] at hmover
    cases hmover
    exact ⟨_, ht⟩
  | moved ht hmoves =>
    cases (hmoves.mover e he).symm.trans hmover
    exact ⟨_, ht⟩

/-- What a successful cancellation does to its task. -/
theorem StepCase.of_cancelReply (h : StepCase env st events st') {token : String}
    (hreply : .cancelReply token (some t) ∈ events) (ht : st.tasks t = some task) :
    st'.now = st.now ∧ ¬ Matched t events ∧
      ∃ task', st'.tasks t = some task' ∧ task'.signal ≠ none ∧ task'.phase = task.phase := by
  cases h with
  | idle => cases hreply
  | refused _ | clock _ | joined _ _ | announced _ | left _ _ | missed _ | reported _ =>
    cases List.mem_singleton.mp hreply
  | moved _ hmoves => cases hmoves.mover _ hreply
  | cancelled hentry =>
    cases List.mem_singleton.mp hreply
    refine ⟨State.signal_now _ _ _, ?_, ?_⟩
    · rintro ⟨token, addr, id, hupdate⟩
      cases List.mem_singleton.mp hupdate
    · refine ⟨_, (State.tasks_signal _ t .sent t).trans (congrArg (Option.map _) ht), ?_, ?_⟩
      · simp
      · simp

theorem Barred.step (h : Barred trace st) (hstep : Step env st events st')
    (hprompt : Prompt st events) : Barred (trace ++ events) st' := by
  have hcase := hstep.cases
  refine ⟨fun t hmatched => ?_, fun token t hreply => ?_⟩
  · rcases matched_append.mp hmatched with hmatched | hmatched
    · obtain ⟨task, ht, hover⟩ := h.matched t hmatched
      obtain ⟨task', ht', -, -, hprogress⟩ := hcase.progress ht
      exact ⟨task', ht', hprogress.over hover⟩
    · obtain ⟨token, addr, id, hupdate⟩ := hmatched
      obtain ⟨task, ht⟩ := hcase.task_of_mover hupdate rfl
      obtain ⟨task', ht', -, -, hprogress⟩ := hcase.progress ht
      refine ⟨task', ht', ?_⟩
      rw [(hprogress.of_matched ⟨token, addr, id, hupdate⟩).2]
      rfl
  · rcases List.mem_append.mp hreply with hreply | hreply
    · obtain ⟨hnot, task, ht, hsignal, hbarred⟩ := h.cancelled token t hreply
      obtain ⟨task', ht', -, hsignal', hprogress⟩ := hcase.progress ht
      refine ⟨fun hmatched => ?_, task', ht', hsignal' hsignal, ?_⟩
      · rcases matched_append.mp hmatched with hmatched | hmatched
        · exact hnot hmatched
        · obtain ⟨⟨server, connect, hphase⟩, -⟩ := hprogress.of_matched hmatched
          rw [hphase] at hbarred
          exact hbarred
      · have hafter := hprogress.barred hbarred
        rcases hcase.now_eq with hnow | ⟨now, rfl, rfl⟩
        · rw [hnow]
          exact hafter
        · -- the clock moves, and the sleep of the task goes on
          cases Option.some.inj (ht'.symm.trans ht)
          cases hphase : task.phase with
          | waiting deadline =>
            exact hprompt.clock now List.mem_cons_self t task deadline ht hsignal hphase
          | spawned | cancelling | leaving | ended => trivial
          | woken | chosen _ | issued _ _ =>
            rw [hphase] at hbarred
            exact hbarred.elim
    · obtain ⟨task, ht, hpending⟩ := hprompt.cancel token t hreply
      obtain ⟨hnow, hnot, task', ht', hsignal, hphase⟩ := hcase.of_cancelReply hreply ht
      refine ⟨fun hmatched => ?_, task', ht', hsignal, ?_⟩
      · -- a task that has delivered a match is over
        refine (matched_append.mp hmatched).elim (fun hmatched => ?_) hnot
        obtain ⟨before, hbefore, hover⟩ := h.matched t hmatched
        obtain rfl := Option.some.inj (hbefore.symm.trans ht)
        exact hpending.not_over hover
      · rw [hphase, hnow]
        exact hpending.barred

theorem barred_new (now : Instant) : Barred [] (.new now) := by
  refine ⟨fun t hmatched => ?_, fun token t hreply => ?_⟩
  · obtain ⟨token, addr, id, hupdate⟩ := hmatched
    cases hupdate
  · cases hreply

/-- While the cancellations are prompt, the stream of a task that `cancel_queue` has cancelled never
delivers a match, neither before nor after the answer. -/
theorem cancelled_never_matched {now : Instant}
    (h : Run (fun st events st' => Step env st events st' ∧ Prompt st events)
      (.new now) trace st) {token : String} (hreply : .cancelReply token (some t) ∈ trace) :
    ¬ Matched t trace := by
  have hbarred : Barred trace st :=
    h.history (barred_new now) fun _ _ _ _ hinv hstep => hinv.step hstep.1 hstep.2
  exact (hbarred.cancelled token t hreply).1

end

/-! ## A cancellation in time, and a late one -/

theorem prompt_nil (st : State) : Prompt st [] :=
  ⟨fun _ _ hreply => (nomatch hreply), fun _ hclock => nomatch hclock⟩

theorem prompt_singleton {st : State} {e : Event} (hreply : ∀ token t, e ≠ .cancelReply token (some t))
    (hclock : ∀ now, e ≠ .clock now) : Prompt st [e] :=
  ⟨fun token t h => absurd (List.mem_singleton.mp h).symm (hreply token t),
    fun now h => absurd (List.mem_singleton.mp h).symm (hclock now)⟩

def timelyCancel : List Action :=
  [.register (some plainServer), .join 0 "a" true, .proceed 0 .start, .cancel "a",
    .proceed 0 (.wake false), .advance 2000000000, .proceed 0 .send, .leave 0]

theorem allows_timelyCancel :
    Allows Admissible (fire plainEnv) Prompt (.new 0) timelyCancel := by
  refine ⟨trivial, ?_, rfl, ?_, trivial, ?_, trivial, ?_, trivial, ?_, ?_, ?_, trivial, ?_, trivial, ?_,
    trivial⟩
  · exact prompt_singleton (fun _ _ => nofun) (fun _ => nofun)
  · exact prompt_singleton (fun _ _ => nofun) (fun _ => nofun)
  · exact prompt_nil _
  · -- the sleep has just begun
    refine ⟨fun token t hreply => ?_, fun now hclock => ?_⟩
    · cases List.mem_singleton.mp hreply
      exact ⟨_, rfl, Nat.lt_add_of_pos_right (by decide)⟩
    · cases List.mem_singleton.mp hclock
  · exact prompt_nil _
  · exact Nat.zero_le _
  · -- the task has left the wait
    refine ⟨fun token t hreply => ?_, fun now _ t task deadline ht _ hphase => ?_⟩
    · cases List.mem_singleton.mp hreply
    · cases t with
      | zero =>
        cases ht
        cases hphase
      | succ t => cases ht
  · exact prompt_singleton (fun _ _ => nofun) (fun _ => nofun)
  · exact prompt_singleton (fun _ _ => nofun) (fun _ => nofun)

theorem cancelled_never_matched_timely :
    .cancelReply "a" (some 0) ∈ (fires (fire plainEnv) (.new 0) timelyCancel).2 ∧
      ¬ Matched 0 (fires (fire plainEnv) (.new 0) timelyCancel).2 := by
  have hreply : .cancelReply "a" (some 0) ∈ (fires (fire plainEnv) (.new 0) timelyCancel).2 :=
    List.mem_cons_of_mem _ (List.mem_cons_of_mem _ List.mem_cons_self)
  exact ⟨hreply, cancelled_never_matched (run_fires allows_timelyCancel) hreply⟩

/-- The cancellation comes when the task has picked its server. -/
def lateCancel : List Action :=
  [.register (some plainServer), .join 0 "a" true, .proceed 0 .start, .advance 1000000000,
    .proceed 0 (.wake true), .proceed 0 (.choose ["s"]), .cancel "a",
    .proceed 0 (.issue ⟨0, 7, []⟩), .proceed 0 .send]

/-- The answer is a success, and the match is delivered after it. -/
theorem cancelled_task_matched :
    ∃ before after st, Run (Step plainEnv) (.new 0)
        (before ++ .cancelReply "a" (some 0) :: after) st ∧ Matched 0 after := by
  have hallows : Allows Admissible (fire plainEnv) (fun _ _ => True) (.new 0) lateCancel := by
    refine ⟨trivial, trivial, rfl, trivial, trivial, trivial, ?_, trivial, trivial, trivial, ?_,
      trivial, trivial, trivial, trivial, trivial, trivial, trivial, trivial⟩
    · exact Nat.zero_le _
    · exact List.Perm.refl ["s"]
  have hrun := (run_fires hallows).mono fun _ _ _ h => h.1
  refine ⟨[.reported "s", .joined 0 "a", .clock 1000000000, .chose 0 (some plainServer)],
    [.issued 0 "a" (.ok ⟨"v4.local.10.0.0.1:7000", "10.0.0.1:7000", 300000, 7⟩),
      .update 0 (.ok (.matched ⟨"v4.local.10.0.0.1:7000", "10.0.0.1:7000", 300000, 7⟩
        "10.0.0.1:7000" "s"))], _, hrun, ?_⟩
  exact ⟨_, _, _, List.mem_cons_of_mem _ List.mem_cons_self⟩

end Aetheris.Matchmaking
