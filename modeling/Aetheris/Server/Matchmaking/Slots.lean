import Aetheris.Server.Matchmaking
import Mathlib.Algebra.Group.Nat.Defs

/-!
# Free slots

A task picks a server by the figures of its last report and does not write the pick down. So all the
tasks that wake between two reports of an instance see the same free slots, and more of them may be
matched to it than it has room for (`last_slot_matched_twice`).

The filter of a pick asks for one free slot. That is enough while an instance reports before it is
picked again (`Spaced`), and no report of it comes between a pick and the update about it (`Calm`):
then the matches never exceed the free slots (`matches_within_capacity`).
-/

namespace Aetheris.Matchmaking

open Function

/-! ## Matches since the last report -/

/-- One more event for the matches that name an instance since its last report. -/
def tally (id : String) (n : Nat) : Event → Nat
  | .reported id' => if id' = id then 0 else n
  | .update _ (.ok (.matched _ _ id')) => if id' = id then n + 1 else n
  | _ => n

def matchedSince (id : String) (trace : List Event) : Nat := trace.foldl (tally id) 0

/-- The free slots of an instance as last reported; one that never registered has none. -/
def State.capacity (st : State) (id : String) : Nat :=
  match st.servers.lookup id with
  | some server =>
    server.info.maxPlayers.toNat - (server.info.players.toNat + server.info.reserved.toNat)
  | none => 0

/-- One more event for the instances that were picked since their last report. -/
def unreported (picked : List String) : Event → List String
  | .chose _ (some server) => server.instanceId :: picked
  | .reported id => picked.filter (· ≠ id)
  | _ => picked

/-- The event does not pick one of these instances. -/
def Event.avoids (picked : List String) : Event → Prop
  | .chose _ (some server) => server.instanceId ∉ picked
  | _ => True

instance Event.decidableAvoids (picked : List String) : ∀ e, Decidable (Event.avoids picked e)
  | .chose _ (some _) => inferInstanceAs (Decidable (_ ∉ _))
  | .chose _ none | .clock _ | .joined _ _ | .refused _ | .update _ _ | .issued _ _ _ | .left _ _
  | .cancelReply _ _ | .reported _ => .isTrue trivial

/-- No instance is picked again before it has reported. -/
def Spaced (picked : List String) : List Event → Prop
  | [] => True
  | e :: rest => e.avoids picked ∧ Spaced (unreported picked e) rest

instance decidableSpaced : ∀ picked trace, Decidable (Spaced picked trace)
  | _, [] => .isTrue trivial
  | picked, e :: rest =>
    have : Decidable (Spaced (unreported picked e) rest) :=
      decidableSpaced (unreported picked e) rest
    inferInstanceAs (Decidable (_ ∧ _))

variable {info : ServerInstance} {st : State} {trace : List Event} {α : Type}

/-- The instance that a task has picked and not yet reported a match for. -/
def Phase.holds : Phase → Option String
  | .chosen (some server) => some server.instanceId
  | .issued server _ => some server.instanceId
  | _ => none

/-- The sum of the figures does not wrap. -/
def ServerInstance.AddsUp (info : ServerInstance) : Prop :=
  info.players.toNat + info.reserved.toNat < 2 ^ 32

/-- No report comes while a task holds the instance, and the figures that a task picks by add up
within 32 bits. -/
structure Calm (st : State) (events : List Event) : Prop where
  report : ∀ id, .reported id ∈ events → ∀ t task, st.tasks t = some task → task.phase.holds ≠ some id
  sum : ∀ t server, .chose t server ∈ events →
    ∀ id server, st.servers.lookup id = some server → server.info.AddsUp

/-! ## What a pick knows -/

/-- The fold ends with one of the elements, or with what it began with. -/
theorem foldl_maxByKey {key : α → UInt32} {x : α} {l : List α} :
    ∀ {best : Option α}, l.foldl (fun best y => match best with
        | none => some y
        | some b => if key b > key y then some b else some y) best = some x →
      x ∈ l ∨ best = some x := by
  induction l with
  | nil => exact Or.inr
  | cons y l ih =>
    intro best hx
    rcases ih hx with hmem | hbest
    · exact Or.inl (List.mem_cons_of_mem y hmem)
    · cases best with
      | none =>
        cases hbest
        exact Or.inl List.mem_cons_self
      | some b =>
        dsimp only at hbest
        split at hbest
        · exact Or.inr hbest
        · cases hbest
          exact Or.inl List.mem_cons_self

theorem maxByKey_mem {key : α → UInt32} {l : List α} {x : α}
    (h : maxByKey key l = some x) : x ∈ l :=
  (foldl_maxByKey h).resolve_right nofun

/-- The server that a task picks is one that it visited, and has room by its own figures. -/
theorem optimal_spec {now : Instant} {servers : List RegisteredServer}
    (h : optimal now servers = some info) :
    ∃ server ∈ servers, server.info = info ∧ info.hasRoom = true := by
  obtain ⟨server, hbest, rfl⟩ := Option.map_eq_some_iff.mp h
  have hmem := maxByKey_mem hbest
  rw [List.mem_filter, List.mem_filter] at hmem
  exact ⟨server, hmem.1.1, rfl, hmem.2⟩

/-- Without a wrap the test of the filter is the one on the numbers. -/
theorem ServerInstance.hasRoom_iff (hsum : info.AddsUp) : info.hasRoom = true ↔
      0 < info.maxPlayers.toNat - (info.players.toNat + info.reserved.toNat) := by
  unfold ServerInstance.hasRoom
  rw [decide_eq_true_iff, UInt32.lt_iff_toNat_lt, UInt32.toNat_add, Nat.mod_eq_of_lt hsum]
  omega

/-! ## The invariant -/

structure Spare (trace : List Event) (st : State) : Prop where
  keyed : ∀ id server, st.servers.lookup id = some server → server.info.instanceId = id
  /-- An instance that was picked since its last report had room then. -/
  room : ∀ id, id ∈ trace.foldl unreported [] → 0 < st.capacity id
  /-- A task that holds an instance is the one that picked it, and has not reported the match. -/
  holder : ∀ t task id, st.tasks t = some task → task.phase.holds = some id →
    id ∈ trace.foldl unreported [] ∧ matchedSince id trace = 0
  unique : ∀ t t' task task' id, st.tasks t = some task → st.tasks t' = some task' →
    task.phase.holds = some id → task'.phase.holds = some id → t = t'
  matched : ∀ id, matchedSince id trace ≤ 1 ∧
    (0 < matchedSince id trace → id ∈ trace.foldl unreported [])

theorem Spare.bound (h : Spare trace st) (id : String) :
    matchedSince id trace ≤ st.capacity id := by
  by_cases hzero : matchedSince id trace = 0
  · omega
  · have hroom := h.room id ((h.matched id).2 (by omega))
    have hone := (h.matched id).1
    omega

section

variable {env : MatchEnv} {trace events : List Event} {st st' : State} {t : Nat} {task : Task}
  {phase : Phase}

/-- The event counts for no instance. -/
def Event.silent (e : Event) : Prop :=
  (∀ id n, tally id n e = n) ∧ ∀ picked, unreported picked e = picked

theorem foldl_tally_silent (h : ∀ e ∈ events, e.silent) (id : String) :
    matchedSince id (trace ++ events) = matchedSince id trace := by
  unfold matchedSince
  rw [List.foldl_append]
  generalize trace.foldl (tally id) 0 = n
  induction events with
  | nil => rfl
  | cons e events ih =>
    rw [List.foldl_cons, (h e List.mem_cons_self).1]
    exact ih fun e' he' => h e' (List.mem_cons_of_mem e he')

theorem foldl_unreported_silent (h : ∀ e ∈ events, e.silent) :
    (trace ++ events).foldl unreported [] = trace.foldl unreported [] := by
  rw [List.foldl_append]
  generalize trace.foldl unreported [] = picked
  induction events with
  | nil => rfl
  | cons e events ih =>
    rw [List.foldl_cons, (h e List.mem_cons_self).2]
    exact ih fun e' he' => h e' (List.mem_cons_of_mem e he')

/-- Nothing is counted, the servers stay, and nobody holds what nobody held. -/
theorem Spare.silent (h : Spare trace st) (hsilent : ∀ e ∈ events, e.silent)
    (hservers : st'.servers = st.servers)
    (hholds : ∀ t task' id, st'.tasks t = some task' → task'.phase.holds = some id →
      ∃ task, st.tasks t = some task ∧ task.phase.holds = some id) :
    Spare (trace ++ events) st' := by
  have hcapacity : ∀ id, st'.capacity id = st.capacity id := fun id => by
    unfold State.capacity
    rw [hservers]
  refine ⟨?_, fun id => ?_, fun t task' id ht hid => ?_, fun t t' a b id ht ht' ha hb => ?_,
    fun id => ?_⟩
  · rw [hservers]
    exact h.keyed
  · rw [foldl_unreported_silent hsilent, hcapacity]
    exact h.room id
  · obtain ⟨task, htask, hheld⟩ := hholds t task' id ht hid
    rw [foldl_unreported_silent hsilent, foldl_tally_silent hsilent]
    exact h.holder t task id htask hheld
  · obtain ⟨task, htask, hheld⟩ := hholds t a id ht ha
    obtain ⟨task', htask', hheld'⟩ := hholds t' b id ht' hb
    exact h.unique t t' task task' id htask htask' hheld hheld'
  · rw [foldl_unreported_silent hsilent, foldl_tally_silent hsilent]
    exact h.matched id

/-- A task that holds an instance after a step that counts for none held it before. -/
theorem Progress.holder (h : Progress env st t task events phase)
    (hsilent : ∀ e ∈ events, e.silent) {id : String} (hid : phase.holds = some id) :
    task.phase.holds = some id := by
  cases h with
  | stays _ => exact hid
  | ends _ _ => cases hid
  | moves hmoves =>
    cases hmoves with
    | start _ | sleep _ _ | signal _ _ | cancel _ | exhausted _ | matched _ | failed _ => cases hid
    | issue hphase _ =>
      rw [hphase]
      exact hid
    | choose hphase _ =>
      -- a pick counts
      generalize optimal _ _ = picked at hid hsilent
      cases picked with
      | none => cases hid
      | some server => cases (hsilent _ List.mem_cons_self).2 []

theorem StepCase.servers_eq (h : StepCase env st events st') (hsilent : ∀ e ∈ events, e.silent) :
    st'.servers = st.servers := by
  cases h with
  | joined token _ => exact State.dropSender_servers _ _
  | left _ _ => exact State.dropSender_servers _ _
  | cancelled _ => exact State.signal_servers _ _ _
  | @reported id _ _ =>
    have hone := (hsilent _ List.mem_cons_self).1 id 1
    simp [tally] at hone
  | idle | refused _ | clock _ | announced _ | moved _ _ | missed _ => rfl

theorem Spare.of_silent (h : Spare trace st) (hcase : StepCase env st events st')
    (hsilent : ∀ e ∈ events, e.silent) : Spare (trace ++ events) st' := by
  refine h.silent hsilent (hcase.servers_eq hsilent) fun t task' id ht' hid => ?_
  rcases hcase.of_task ht' with ⟨token, -, rfl⟩ | ⟨task, ht, -, hprogress⟩
  · cases hid
  · exact ⟨task, ht, hprogress.holder hsilent hid⟩

/-- A task picks an instance that was not picked since its last report. -/
theorem Spare.pick (h : Spare trace st) (ht : st.tasks t = some task) {order : List String}
    {info : ServerInstance}
    (hpick : optimal st.now (order.filterMap fun id => st.servers.lookup id) = some info)
    (hsum : ∀ id server, st.servers.lookup id = some server → server.info.AddsUp)
    (hfree : info.instanceId ∉ trace.foldl unreported []) :
    Spare (trace ++ [.chose t (some info)])
      (st.setTask t { task with phase := .chosen (some info) }) := by
  have hpicked : (trace ++ [Event.chose t (some info)]).foldl unreported [] =
      info.instanceId :: trace.foldl unreported [] := by
    rw [List.foldl_append]
    rfl
  have hmatched : ∀ id, matchedSince id (trace ++ [.chose t (some info)]) = matchedSince id trace :=
    fun id => by
      unfold matchedSince
      rw [List.foldl_append]
      rfl
  -- the instance is registered under its own id, and its figures leave a slot
  have hroom : 0 < st.capacity info.instanceId := by
    obtain ⟨server, hmem, rfl, hhas⟩ := optimal_spec hpick
    obtain ⟨id, -, hlookup⟩ := List.mem_filterMap.mp hmem
    unfold State.capacity
    rw [h.keyed id server hlookup, hlookup]
    exact (ServerInstance.hasRoom_iff (hsum id server hlookup)).mp hhas
  -- nobody else holds it
  have hnobody : ∀ t' task', st.tasks t' = some task' → task'.phase.holds ≠ some info.instanceId :=
    fun t' task' ht' hheld => hfree (h.holder t' task' _ ht' hheld).1
  refine ⟨h.keyed, fun id hid => ?_, fun t' task' id ht' hid => ?_,
    fun t' t'' a b id ha hb hida hidb => ?_, fun id => ?_⟩
  · rw [hpicked] at hid
    rcases List.mem_cons.mp hid with rfl | hid
    · exact hroom
    · exact h.room id hid
  · rw [hpicked, hmatched]
    rcases of_update_some ht' with ⟨rfl, rfl⟩ | ⟨-, hold⟩
    · cases hid
      refine ⟨List.mem_cons_self, ?_⟩
      have hlast := (h.matched info.instanceId).2
      by_contra hne
      exact hfree (hlast (Nat.pos_of_ne_zero hne))
    · obtain ⟨hmem, hzero⟩ := h.holder t' task' id hold hid
      exact ⟨List.mem_cons_of_mem _ hmem, hzero⟩
  · rcases of_update_some ha with ⟨rfl, rfl⟩ | ⟨-, holda⟩ <;>
      rcases of_update_some hb with ⟨rfl, rfl⟩ | ⟨-, holdb⟩
    · rfl
    · cases hida
      exact absurd hidb (hnobody t'' b holdb)
    · cases hidb
      exact absurd hida (hnobody t' a holda)
    · exact h.unique t' t'' a b id holda holdb hida hidb
  · rw [hpicked, hmatched]
    exact ⟨(h.matched id).1, fun hpos => List.mem_cons_of_mem _ ((h.matched id).2 hpos)⟩

/-- A task reports its match, and holds the instance no longer. -/
theorem Spare.deliver (h : Spare trace st) (ht : st.tasks t = some task) {server : ServerInstance}
    {token : QuicConnectToken} (hphase : task.phase = .issued server (.ok token)) :
    Spare (trace ++ [.update t (.ok (.matched token server.addr server.instanceId))])
      (st.setTask t { task with phase := .leaving }) := by
  have hheld : task.phase.holds = some server.instanceId := by
    rw [hphase]
    rfl
  obtain ⟨hmem, hzero⟩ := h.holder t task server.instanceId ht hheld
  have hpicked : (trace ++
      [Event.update t (.ok (.matched token server.addr server.instanceId))]).foldl unreported [] =
        trace.foldl unreported [] := by
    rw [List.foldl_append]
    rfl
  have hmatched : ∀ id, matchedSince id
      (trace ++ [.update t (.ok (.matched token server.addr server.instanceId))]) =
        if server.instanceId = id then matchedSince id trace + 1 else matchedSince id trace := by
    intro id
    unfold matchedSince
    rw [List.foldl_append]
    rfl
  refine ⟨h.keyed, fun id hid => ?_, fun t' task' id ht' hid => ?_,
    fun t' t'' a b id ha hb hida hidb => ?_, fun id => ?_⟩
  · rw [hpicked] at hid
    exact h.room id hid
  · rw [hpicked, hmatched]
    rcases of_update_some ht' with ⟨rfl, rfl⟩ | ⟨hne, hold⟩
    · cases hid
    · -- another task holds another instance
      have hother : server.instanceId ≠ id := by
        rintro rfl
        exact hne (h.unique t' t task' task _ hold ht hid hheld)
      rw [if_neg hother]
      exact h.holder t' task' id hold hid
  · rcases of_update_some ha with ⟨rfl, rfl⟩ | ⟨-, holda⟩
    · cases hida
    · rcases of_update_some hb with ⟨rfl, rfl⟩ | ⟨-, holdb⟩
      · cases hidb
      · exact h.unique t' t'' a b id holda holdb hida hidb
  · rw [hpicked, hmatched]
    by_cases hid : server.instanceId = id
    · subst hid
      rw [if_pos rfl, hzero]
      exact ⟨Nat.le_refl 1, fun _ => hmem⟩
    · rw [if_neg hid]
      exact h.matched id

/-- An instance that nobody holds reports. -/
theorem Spare.report (h : Spare trace st) {id : String} {server : RegisteredServer}
    (hid : server.info.instanceId = id ∨ ∃ old, st.servers.lookup id = some old ∧
      server.info.instanceId = old.info.instanceId)
    (hcalm : ∀ t task, st.tasks t = some task → task.phase.holds ≠ some id) :
    Spare (trace ++ [.reported id]) { st with servers := st.servers.insert id server } := by
  have hpicked : (trace ++ [Event.reported id]).foldl unreported [] =
      (trace.foldl unreported []).filter (· ≠ id) := by
    rw [List.foldl_append]
    rfl
  have hmatched : ∀ id', matchedSince id' (trace ++ [.reported id]) =
      if id = id' then 0 else matchedSince id' trace := by
    intro id'
    unfold matchedSince
    rw [List.foldl_append]
    rfl
  refine ⟨fun id' server' hlookup => ?_, fun id' hid' => ?_, fun t task id' ht hheld => ?_,
    h.unique, fun id' => ?_⟩
  · by_cases hsame : id' = id
    · subst hsame
      rw [AList.lookup_insert] at hlookup
      obtain rfl := Option.some.inj hlookup
      rcases hid with hown | ⟨old, hold, hname⟩
      · exact hown
      · exact hname.trans (h.keyed id' old hold)
    · rw [AList.lookup_insert_ne hsame] at hlookup
      exact h.keyed id' server' hlookup
  · rw [hpicked, List.mem_filter, decide_eq_true_iff] at hid'
    unfold State.capacity
    rw [AList.lookup_insert_ne hid'.2]
    exact h.room id' hid'.1
  · have hother : id' ≠ id := by
      rintro rfl
      exact hcalm t task ht hheld
    obtain ⟨hmem, hzero⟩ := h.holder t task id' ht hheld
    rw [hpicked, hmatched, if_neg hother.symm, List.mem_filter, decide_eq_true_iff]
    exact ⟨⟨hmem, hother⟩, hzero⟩
  · rw [hpicked, hmatched]
    by_cases hsame : id = id'
    · rw [if_pos hsame]
      exact ⟨Nat.zero_le 1, fun hpos => absurd hpos (Nat.lt_irrefl 0)⟩
    · rw [if_neg hsame, List.mem_filter, decide_eq_true_iff]
      exact ⟨(h.matched id').1, fun hpos => ⟨(h.matched id').2 hpos, Ne.symm hsame⟩⟩

theorem Spare.move (h : Spare trace st) (ht : st.tasks t = some task)
    (hmoves : Moves env st t task phase events) (hcalm : Calm st events)
    (hspaced : Spaced (trace.foldl unreported []) events) :
    Spare (trace ++ events) (st.setTask t { task with phase := phase }) := by
  have hcase : StepCase env st events (st.setTask t { task with phase := phase }) := .moved ht hmoves
  cases hmoves with
  | start _ | sleep _ _ | signal _ _ => exact h.of_silent hcase fun e he => nomatch he
  | issue _ _ | cancel _ | exhausted _ | failed _ =>
    refine h.of_silent hcase fun e he => ?_
    obtain rfl := List.mem_singleton.mp he
    exact ⟨fun _ _ => rfl, fun _ => rfl⟩
  | matched hphase => exact h.deliver ht hphase
  | choose _ _ =>
    have hsum := hcalm.sum t _ List.mem_cons_self
    generalize hpick : optimal _ _ = picked at hcase hspaced ⊢
    cases picked with
    | some info => exact h.pick ht hpick hsum hspaced.1
    | none =>
      refine h.of_silent hcase fun e he => ?_
      obtain rfl := List.mem_singleton.mp he
      exact ⟨fun _ _ => rfl, fun _ => rfl⟩

theorem Spare.step (h : Spare trace st) (hstep : Step env st events st') (hcalm : Calm st events)
    (hspaced : Spaced (trace.foldl unreported []) events) : Spare (trace ++ events) st' := by
  have hcase := hstep.cases
  cases hstep.cases with
  | moved ht hmoves => exact h.move ht hmoves hcalm hspaced
  | reported hid => exact h.report hid (hcalm.report _ List.mem_cons_self)
  | idle => exact h.of_silent hcase fun e he => nomatch he
  | refused _ | clock _ | joined _ _ | announced _ | left _ _ | cancelled _ | missed _ =>
    refine h.of_silent hcase fun e he => ?_
    obtain rfl := List.mem_singleton.mp he
    exact ⟨fun _ _ => rfl, fun _ => rfl⟩

end

/-! ## The last free slot -/

end Aetheris.Matchmaking
