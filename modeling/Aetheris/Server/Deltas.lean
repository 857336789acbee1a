import Aetheris.EcsBevy.Deltas
import Aetheris.Server.Sessions

/-!
# Extractions of a run

Between two extractions the pipeline changes the world only through the operations of the adapter,
and the change tick has advanced before the first of them. So the deltas of every extraction are
exactly what was written since the one before (`extraction_exact`), whatever events arrive, whether
or not polls fail, and with or without clears.
-/

namespace Aetheris

open Relation TickState BevyWorldAdapter

variable {W A R F : Type}

/-! ## The receiving half of a tick -/

/-- The world as the receiving half of a tick sees it: nothing there simulates or extracts. -/
def inboundOnly (ws : WorldState W F) : WorldState W F :=
  { ws with
    advanceTick := id
    simulate := id
    extractDeltas := fun w => (w, [])
    extractReliableEvents := fun w => (w, [])
    postExtract := id }

variable [F32 F]

theorem receiveStage_inboundOnly (env : ServerEnv A R F) (ws : WorldState W F) (tick : UInt64)
    (now : Instant) (s : TickScheduler A R) (world : W) (events : List (NetworkEvent F)) :
    receiveStage env (inboundOnly ws) tick now s world events =
      receiveStage env ws tick now s world events := rfl

/-- A client clears the world at this moment. -/
def Observation.isCleared : Observation W → Bool
  | .cleared .. => true
  | _ => false

/-- `ops` lead from the world of `st` to that of `st'`, none of them extracts, and the trace shows
the clears among them. -/
structure Performed (P : Platform F) (st st' : TickState (BevyWorldAdapter F) A R)
    (ops : List (Op F)) : Prop where
  world : st'.world = st.world.runOps P ops
  noExtraction : ∀ op ∈ ops, op ≠ .extractDeltas
  cleared : st'.trace.any Observation.isCleared =
    (st.trace.any Observation.isCleared || ops.any Op.clears)

namespace Performed

variable {P : Platform F} {st st' st'' : TickState (BevyWorldAdapter F) A R}

theorem nil (hworld : st'.world = st.world)
    (htrace : st'.trace.any Observation.isCleared = st.trace.any Observation.isCleared) :
    Performed P st st' [] :=
  ⟨hworld, by simp, by rw [htrace, List.any_nil, Bool.or_false]⟩

theorem single {op : Op F} (hworld : st'.world = op.run P st.world) (hop : op ≠ .extractDeltas)
    (htrace : st'.trace.any Observation.isCleared =
      (st.trace.any Observation.isCleared || op.clears)) : Performed P st st' [op] :=
  ⟨hworld, by simpa using hop, by rw [htrace, List.any_cons, List.any_nil, Bool.or_false]⟩

theorem trans {ops ops' : List (Op F)} (h : Performed P st st' ops)
    (h' : Performed P st' st'' ops') : Performed P st st'' (ops ++ ops') where
  world := by rw [h'.world, h.world, runOps_append]
  noExtraction op hop := (List.mem_append.mp hop).elim (h.noExtraction op) (h'.noExtraction op)
  cleared := by rw [h'.cleared, h.cleared, List.any_append, Bool.or_assoc]

end Performed

/-- What an action of the receiving half does to the world is one operation, or nothing. -/
theorem Action.performed (P : Platform F) {st st' : TickState (BevyWorldAdapter F) A R}
    (h : Action (inboundOnly (bevyWorldState P)) st st') : ∃ ops, Performed P st st' ops := by
  have hany : ∀ o : Observation (BevyWorldAdapter F), o.isCleared = false →
      (st.trace ++ [o]).any Observation.isCleared = st.trace.any Observation.isCleared := by
    intro o ho
    rw [List.any_append, List.any_cons, List.any_nil, Bool.or_false, ho, Bool.or_false]
  cases h with
  | other _ _ _ hworld _ htrace => exact ⟨[], .nil hworld (by rw [htrace])⟩
  | world w hw =>
    cases hw with
    | stressTest count rotate =>
      exact ⟨[.stressTest count rotate], .single rfl nofun (Bool.or_false _).symm⟩
    | spawnKindFor kind x y rot c =>
      exact ⟨[.spawnKindFor kind x y rot c], .single rfl nofun (Bool.or_false _).symm⟩
    | queueReliableEvent c event =>
      exact ⟨[.queueReliableEvent c event], .single rfl nofun (Bool.or_false _).symm⟩
    | applyUpdates updates =>
      exact ⟨[.applyUpdates updates], .single rfl nofun (Bool.or_false _).symm⟩
    | _ => exact ⟨[], .nil rfl rfl⟩
  | drop c =>
    unfold dropClient
    dsimp only
    split
    · next n _ =>
      refine ⟨[.despawnNetworked n], .single rfl nofun ?_⟩
      exact (hany _ rfl).trans (Bool.or_false _).symm
    · exact ⟨[], .nil rfl rfl⟩
  | disconnect c => exact ⟨[], .nil rfl rfl⟩
  | record now c session _ _ => exact ⟨[], .nil rfl rfl⟩
  | possess c session n _ =>
    refine ⟨[.queueReliableEvent (some c) (.possession n)], .single rfl nofun ?_⟩
    exact (hany _ rfl).trans (Bool.or_false _).symm
  | spawnAgent c session _ =>
    exact ⟨[.spawnSessionAgent 1 0.0 0.0 0.0 c], .single rfl nofun (Bool.or_false _).symm⟩
  | clear c =>
    refine ⟨[.clearWorld], .single rfl nofun ?_⟩
    show (st.trace ++ [_]).any _ = _
    rw [List.any_append]
    rfl
  | simulate => exact ⟨[], .nil rfl (hany _ rfl)⟩

theorem Actions.performed (P : Platform F) {st st' : TickState (BevyWorldAdapter F) A R}
    (h : Actions (inboundOnly (bevyWorldState P)) st st') : ∃ ops, Performed P st st' ops := by
  induction h with
  | refl => exact ⟨[], .nil rfl rfl⟩
  | tail _ hstep ih =>
    obtain ⟨ops, hops⟩ := ih
    obtain ⟨ops', hops'⟩ := hstep.performed P
    exact ⟨ops ++ ops', hops.trans hops'⟩

variable (env : ServerEnv A R F)

theorem receiveStage_performed (P : Platform F) (tick : UInt64) (now : Instant)
    (s : TickScheduler A R) (a : BevyWorldAdapter F) (events : List (NetworkEvent F)) :
    ∃ ops, Performed P (.start s a)
      (receiveStage env (bevyWorldState P) tick now s a events) ops := by
  have hactions := receiveStage_actions env (inboundOnly (bevyWorldState P)) tick now s a events
  rw [receiveStage_inboundOnly] at hactions
  exact Actions.performed P hactions

/-! ## Extractions -/

section Extractions

variable (ws : WorldState W F)

/-- The world right before `extract_deltas`. A tick whose poll fails does not get there. -/
def extractionPoint (s : TickScheduler A R) (world : W) (input : TickInput F) : Option W :=
  match input.polled with
  | .error _ => none
  | .ok events =>
    some (ws.simulate (receiveStage env ws s.currentTick input.now
      { s with currentTick := s.currentTick + 1 } (preStage ws s world) events).world)

/-- The world at the last extraction of a run; `prev` is the one at the last extraction before. -/
def lastExtraction (prev : Option W) (s : TickScheduler A R) (world : W) :
    List (TickInput F) → Option W
  | [] => prev
  | input :: inputs =>
    let ((s', world'), _) := tickStep env ws s world input
    lastExtraction ((extractionPoint env ws s world input).or prev) s' world' inputs

/-- The state in which a tick with these events comes to `simulate`. -/
def received (s : TickScheduler A R) (world : W) (now : Instant) (events : List (NetworkEvent F)) :
    TickState W A R :=
  receiveStage env ws s.currentTick now { s with currentTick := s.currentTick + 1 }
    (preStage ws s world) events

variable {env ws} {s : TickScheduler A R} {world x : W} {input : TickInput F}

theorem tickStep_of_ok {events : List (NetworkEvent F)} (h : input.polled = .ok events) :
    tickStep env ws s world input =
      sendStage env ws (received env ws s world input.now events) := by
  unfold tickStep received
  rw [h]

theorem polled_of_extractionPoint (hx : extractionPoint env ws s world input = some x) :
    ∃ events, input.polled = .ok events ∧
      ws.simulate (received env ws s world input.now events).world = x := by
  unfold extractionPoint at hx
  cases hpolled : input.polled with
  | error err =>
    rw [hpolled] at hx
    cases hx
  | ok events =>
    rw [hpolled] at hx
    exact ⟨events, rfl, Option.some.inj hx⟩

theorem polled_of_no_extractionPoint (hx : extractionPoint env ws s world input = none) :
    ∃ err, input.polled = .error err := by
  unfold extractionPoint at hx
  cases hpolled : input.polled with
  | error err => exact ⟨err, rfl⟩
  | ok events =>
    rw [hpolled] at hx
    cases hx

/-- Without an extraction only the world before the poll is left of a tick. -/
theorem tickStep_of_no_extractionPoint (hx : extractionPoint env ws s world input = none) :
    (tickStep env ws s world input).1 =
      ({ s with currentTick := s.currentTick + 1 }, preStage ws s world) := by
  obtain ⟨err, hpolled⟩ := polled_of_no_extractionPoint hx
  unfold tickStep
  rw [hpolled]

end Extractions

/-- The world before the poll has advanced, and in recording mode it may have been filled. -/
theorem preStage_performed (P : Platform F) (s : TickScheduler A R) (a : BevyWorldAdapter F) :
    ∃ ops, preStage (bevyWorldState P) s a = a.runOps P ops ∧ (∀ op ∈ ops, op ≠ .extractDeltas) ∧
      ops.any Op.clears = false := by
  unfold preStage
  dsimp only
  split
  · refine ⟨[.advanceTick, .stressTest 100 true], ?_, by simp, rfl⟩
    have hstress : ∀ w count, (bevyWorldState P).stressTest w count true =
        Op.run P w (.stressTest count true) := fun _ _ => rfl
    rw [runOps_cons, runOps_cons, runOps_nil, hstress]
    rfl
  · exact ⟨[.advanceTick], rfl, by simp, rfl⟩

variable {a : BevyWorldAdapter F} {input : TickInput F} {prev : Option (BevyWorldAdapter F)}
  {s : TickScheduler A R}

/-- The operations from one tick to the extraction of the next. -/
theorem extractionPoint_performed (P : Platform F) {x : BevyWorldAdapter F}
    (hx : extractionPoint env (bevyWorldState P) s a input = some x) :
    ∃ ops, x = a.runOps P ops ∧ (∀ op ∈ ops, op ≠ .extractDeltas) ∧
      ops.any Op.clears =
        (tickStep env (bevyWorldState P) s a input).2.trace.any Observation.isCleared := by
  obtain ⟨events, hpolled, hsimulate⟩ := polled_of_extractionPoint hx
  obtain ⟨pre, hpre, hpreNo, hpreClear⟩ := preStage_performed P s a
  obtain ⟨ops, hworld, hno, hcleared⟩ := receiveStage_performed env P s.currentTick input.now
    { s with currentTick := s.currentTick + 1 } (preStage (bevyWorldState P) s a) events
  rw [tickStep_of_ok hpolled]
  change (received env (bevyWorldState P) s a input.now events).world = _ at hworld
  change (received env (bevyWorldState P) s a input.now events).trace.any _ = _ at hcleared
  generalize received env (bevyWorldState P) s a input.now events = st
    at hsimulate hworld hcleared ⊢
  have hst : st.world = a.runOps P (pre ++ ops) := by rw [hworld, runOps_append, ← hpre]; rfl
  refine ⟨pre ++ ops ++ [.simulate], ?_, ?_, ?_⟩
  · rw [runOps_append, ← hst, runOps_cons, runOps_nil, Op.run, ← hsimulate, bevyWorldState_simulate]
  · intro op hop
    rcases List.mem_append.mp hop with hop | hop
    · exact (List.mem_append.mp hop).elim (hpreNo op) (hno op)
    · rw [List.mem_singleton.mp hop]
      intro heq
      cases heq
  · rw [List.any_append, List.any_append, hpreClear, Bool.false_or]
    show (ops.any Op.clears || false) = (st.trace ++ [_]).any Observation.isCleared
    rw [List.any_append, hcleared]
    rfl

/-- After the extraction the tick empties the reliable queue and advances the change tick. -/
theorem tickStep_of_extractionPoint (P : Platform F) {x : BevyWorldAdapter F}
    (hx : extractionPoint env (bevyWorldState P) s a input = some x) :
    (tickStep env (bevyWorldState P) s a input).1.2 =
      (x.extractDeltas P).1.extractReliableEvents.1.postExtract := by
  obtain ⟨events, hpolled, rfl⟩ := polled_of_extractionPoint hx
  rw [tickStep_of_ok hpolled]
  rfl

variable {env} {P : Platform F}

/-- Before the extraction of a tick. -/
theorem Since.of_extractionPoint
    {x : BevyWorldAdapter F} (h : Since prev false a) (ha : Running P a)
    (hx : extractionPoint env (bevyWorldState P) s a input = some x) :
    Running P x ∧ Since prev ((tickStep env (bevyWorldState P) s a input).2.trace.any
      Observation.isCleared) x := by
  obtain ⟨ops, rfl, hno, hcleared⟩ := extractionPoint_performed env P hx
  have hsince := h.runOps ha hno
  rw [Bool.false_or, hcleared] at hsince
  exact ⟨ha.runOps ops, hsince⟩

/-- From the end of one tick to the end of the next. A clear is always followed by an extraction in
the same tick. -/
theorem Since.of_tickStep (env : ServerEnv A R F) (h : Since prev false a) (ha : Running P a)
    (s : TickScheduler A R)
    (input : TickInput F) :
    Running P (tickStep env (bevyWorldState P) s a input).1.2 ∧
      Since ((extractionPoint env (bevyWorldState P) s a input).or prev) false
        (tickStep env (bevyWorldState P) s a input).1.2 := by
  cases hx : extractionPoint env (bevyWorldState P) s a input with
  | none =>
    rw [tickStep_of_no_extractionPoint hx]
    obtain ⟨ops, hops, hno, hcleared⟩ := preStage_performed P s a
    have hsince := h.runOps ha hno
    rw [hcleared] at hsince
    rw [hops]
    exact ⟨ha.runOps ops, hsince⟩
  | some x =>
    rw [tickStep_of_extractionPoint env P hx]
    obtain ⟨hx', hsince⟩ := Since.of_extractionPoint h ha hx
    exact ⟨((hx'.run .extractDeltas).run .extractReliableEvents).run .postExtract,
      hsince.extracted P⟩

theorem Since.of_runTicks (env : ServerEnv A R F) (h : Since prev false a) (ha : Running P a)
    (s : TickScheduler A R)
    (inputs : List (TickInput F)) :
    Running P (runTicks env (bevyWorldState P) s a inputs).1.2 ∧
      Since (lastExtraction env (bevyWorldState P) prev s a inputs) false
        (runTicks env (bevyWorldState P) s a inputs).1.2 := by
  induction inputs generalizing prev s a with
  | nil => exact ⟨ha, h⟩
  | cons input inputs ih =>
    obtain ⟨ha', h'⟩ := Since.of_tickStep env h ha s input
    exact ih h' ha' _

/-- In every run from a fresh adapter, set up in any way short of an extraction: the deltas of each
extraction have different keys; each is the current payload of a component that is due; each
component that is due has one. Due is everything at the first extraction and after a clear, and
otherwise what was written since the previous extraction `y`, by any account of the storage
operations that lead from there to here, of which there is one. A second extraction finds nothing. -/
theorem extraction_exact (env : ServerEnv A R F) {a₀ : BevyWorldAdapter F} (hfresh : Fresh a₀)
    (hrs : Standard P a₀.replicators) {hook : Option (World F → World F)}
    (hhook : ∀ f, hook = some f → Lawful f) (hencode : ∀ k v, (P.encode k v).isSome = true)
    (setup : List (Op F)) (hsetup : ∀ op ∈ setup, op ≠ .extractDeltas) (s : TickScheduler A R)
    (inputs : List (TickInput F)) (input : TickInput F) :
    let a := runOps P { a₀ with postSimulateHook := hook } setup
    let run := (runTicks env (bevyWorldState P) s a inputs).1
    let prev := lastExtraction env (bevyWorldState P) none s a inputs
    let cleared := (tickStep env (bevyWorldState P) run.1 run.2 input).2.trace.any
      Observation.isCleared
    ∀ x, extractionPoint env (bevyWorldState P) run.1 run.2 input = some x →
      ((x.extractDeltas P).2.map fun d => (d.networkId, d.componentKind)).Nodup ∧
      (∀ d ∈ (x.extractDeltas P).2, ∃ e k v, Carries P x d.networkId e k d.componentKind v ∧
        Due prev cleared x e k ∧ P.encode k v = some d.payload ∧
        d.tick = x.world.currentServerTick) ∧
      (∀ n e k kind v, Carries P x n e k kind v → Due prev cleared x e k →
        ∃ d ∈ (x.extractDeltas P).2, d.networkId = n ∧ d.componentKind = kind ∧
          P.encode k v = some d.payload ∧ d.tick = x.world.currentServerTick) ∧
      (∀ y, prev = some y →
        ∃ log, Run Ecs.Storage.Performs y.postExtract.world.ecs log x.world.ecs) ∧
      ((x.extractDeltas P).1.extractDeltas P).2 = [] := by
  intro a run prev cleared x hx
  have hstart := hfresh.running hrs hhook
  have hbegin : Since none false a := ((hfresh.since hook).runOps hstart hsetup).forget
  obtain ⟨hrun, hsince⟩ := Since.of_runTicks env hbegin (hstart.runOps setup) s inputs
  obtain ⟨hrunning, hpoint⟩ := Since.of_extractionPoint hsince hrun hx
  have hmem := fun d => hpoint.mem_extractDeltas hrunning.toSound hrunning.standard (d := d)
  refine ⟨nodup_extractDeltas hrunning.standard, fun d hd => ?_, ?_, ?_, ?_⟩
  · obtain ⟨e, k, v, hcarries, hpayload, htick, hdue⟩ := (hmem d).mp hd
    exact ⟨e, k, v, hcarries, hdue, hpayload, htick⟩
  · intro n e k kind v hcarries hdue
    obtain ⟨payload, hpayload⟩ := Option.isSome_iff_exists.mp (hencode k v)
    refine ⟨⟨n, kind, payload, x.world.currentServerTick⟩, ?_, rfl, rfl, hpayload, rfl⟩
    exact (hmem _).mpr ⟨e, k, v, hcarries, hpayload, rfl, hdue⟩
  · exact fun y hy => (hpoint.history y hy).2
  · exact extractDeltas_twice hrunning.toSound hrunning.standard hpoint.dated

/-- A session agent in its workspace, with a hook that does nothing. -/
def populatedAdapter : BevyWorldAdapter ℚ :=
  runOps rationalPlatform { emptyAdapter with postSimulateHook := some id }
    [.spawnSessionAgent 1 0 0 0 ⟨7⟩]

/-- One tick that extracts and one whose poll fails. -/
def quietInputs : List (TickInput ℚ) := [⟨.ok [], 0⟩, ⟨.error .io, 1⟩]

def quietRun : TickScheduler Unit Unit × BevyWorldAdapter ℚ :=
  (runTicks byteEnv (bevyWorldState rationalPlatform) (.new 60 () ()) populatedAdapter
    quietInputs).1

/-- The next extraction reports what the simulation has moved or wrapped since the first: two
components of the agent and one of the resource. -/
theorem extraction_exact_quiet :
    ∃ x, extractionPoint byteEnv (bevyWorldState rationalPlatform) quietRun.1 quietRun.2
        ⟨.ok [], 2⟩ = some x ∧
      (x.extractDeltas rationalPlatform).2.map (fun d => (d.networkId.val, d.componentKind.val)) =
        [(1, 1), (1, 2), (3, 1)] ∧
      ((x.extractDeltas rationalPlatform).2.map fun d => (d.networkId, d.componentKind)).Nodup ∧
      ((x.extractDeltas rationalPlatform).1.extractDeltas rationalPlatform).2 = [] := by
  have hkeys : (extractionPoint byteEnv (bevyWorldState rationalPlatform) quietRun.1 quietRun.2
      ⟨.ok [], 2⟩).map (fun x => (x.extractDeltas rationalPlatform).2.map
        fun d => (d.networkId.val, d.componentKind.val)) = some [(1, 1), (1, 2), (3, 1)] := by
    decide +kernel
  obtain ⟨x, hx, hkeys⟩ := Option.map_eq_some_iff.mp hkeys
  have hid : ∀ f, some id = some f → Lawful (F := ℚ) f := by
    rintro f ⟨⟩
    exact ⟨fun _ => ⟨rfl, rfl⟩, fun _ => ⟨[], .nil⟩⟩
  have hfresh : Fresh emptyAdapter :=
    .newWithRng World.new blank_new 60 ⟨1, 0⟩ _ (platformReplicators_plain rationalPlatform)
  have hexact := extraction_exact byteEnv hfresh (platformReplicators_standard rationalPlatform)
    hid (fun _ _ => rfl) [.spawnSessionAgent 1 0 0 0 ⟨7⟩] (by simp) (.new 60 () ()) quietInputs
    ⟨.ok [], 2⟩ x
  have hrun := hx
  unfold quietRun populatedAdapter at hrun
  dsimp only at hrun
  have hparts := hexact hrun
  exact ⟨x, hx, hkeys, hparts.1, hparts.2.2.2.2⟩

end Aetheris
