import Aetheris.EcsBevy.Accounting
import Aetheris.EcsBevy.AntiReplay

/-!
# Which toggles switch the extraction beam

An accepted command waits in the `LatestInput` slot of its agent until the next step of the
simulation, whose targeted-action stage looks at the slot once: the beam remembers the tick it has
seen. A command accepted in the meantime takes the place of the one that waits, so of all commands
accepted between two steps the stage sees the last one only.

A run is a list of rounds. A round delivers any number of commands, to the agent and to others, with
server ticks in between, and then steps the simulation. `rounds` reports for each round which
commands of the agent were accepted and whether the stage switched its beam.
-/

namespace Aetheris

open Ecs

/-- What the targeted-action stage makes of a beam whose agent has the command in its slot. -/
def ExtractionBeam.toggled {F : Type} (b : ExtractionBeam F) (command : InputCommand F) :
    ExtractionBeam F :=
  if b.lastSeenInputTick ≠ some command.tick then
    match toggleTarget command.actions with
    | some target =>
      { b with active := !b.active, target := some target, lastSeenInputTick := some command.tick }
    | none => { b with lastSeenInputTick := some command.tick }
  else b

theorem ExtractionBeam.lastSeenInputTick_toggled {F : Type} (b : ExtractionBeam F)
    (command : InputCommand F) : (b.toggled command).lastSeenInputTick = some command.tick := by
  unfold toggled
  split
  · split <;> rfl
  · next hseen => exact not_not.mp hseen

namespace Toggles

open BevyWorldAdapter

variable {F : Type}

/-! ## The stage, entity by entity -/

/-- The two components the stage works with. -/
def toggleComps : List Comp := [.latestInput, .extractionBeam]

variable {e : Entity} {w : World F}

theorem get_toggleEntity_other (w : World F) {e' : Entity} (h : e ≠ e') (k : Comp) :
    (toggleEntity w e').get e k = w.get e k := by
  unfold toggleEntity
  split
  · dsimp only
    split
    · exact World.get_modify_of_ne w _ (Or.inl h)
    · rfl
  · rfl

theorem get_toggleEntity_self (w : World F) (e : Entity) :
    (toggleEntity w e).get e .extractionBeam =
      (w.get e .extractionBeam).map fun b : ExtractionBeam F =>
        match w.get e .latestInput with
        | some latest => b.toggled (LatestInput.command latest)
        | none => b := by
  unfold toggleEntity
  cases hlatest : w.get e .latestInput with
  | none => cases w.get e .extractionBeam <;> rfl
  | some latest =>
    cases hbeam : w.get e .extractionBeam with
    | none => exact hbeam
    | some beam =>
      dsimp only
      split
      · next hnew =>
        rw [World.get_modify_self, hbeam]
        refine congrArg some ?_
        unfold ExtractionBeam.toggled
        exact (if_pos hnew).symm
      · next hseen =>
        rw [hbeam]
        refine congrArg some ?_
        unfold ExtractionBeam.toggled
        exact (if_neg hseen).symm

theorem get_foldl_toggleEntity_other (es : List Entity) (w : World F) (h : e ∉ es)
    (k : Comp) : (es.foldl toggleEntity w).get e k = w.get e k := by
  induction es generalizing w with
  | nil => rfl
  | cons e' es ih =>
    rw [List.mem_cons, not_or] at h
    obtain ⟨hne, hrest⟩ := h
    exact (ih _ hrest).trans (get_toggleEntity_other w hne k)

theorem get_foldl_toggleEntity (es : List Entity) (hes : es.Nodup) (w : World F) (h : e ∈ es) :
    (es.foldl toggleEntity w).get e .extractionBeam = (toggleEntity w e).get e .extractionBeam := by
  induction es generalizing w with
  | nil => cases h
  | cons e' es ih =>
    obtain ⟨hfresh, hes⟩ := List.nodup_cons.mp hes
    by_cases he : e = e'
    · subst he
      exact get_foldl_toggleEntity_other es _ hfresh _
    · have hrest : e ∈ es := (List.mem_cons.mp h).resolve_left he
      have hcells : ∀ k, (toggleEntity w e').get e k = w.get e k := get_toggleEntity_other w he
      rw [List.foldl_cons, ih hes _ hrest, get_toggleEntity_self, get_toggleEntity_self, hcells,
        hcells]

/-- The stage toggles every beam by the command in its agent's slot. -/
theorem get_toggleStage (w : World F) (e : Entity) :
    (toggleStage w).get e .extractionBeam =
      (w.get e .extractionBeam).map fun b : ExtractionBeam F =>
        match w.get e .latestInput with
        | some latest => b.toggled (LatestInput.command latest)
        | none => b := by
  unfold toggleStage
  by_cases hmem : e ∈ w.query [.latestInput, .extractionBeam]
  · rw [get_foldl_toggleEntity _ (w.nodup_query _) w hmem, get_toggleEntity_self]
  · rw [get_foldl_toggleEntity_other _ w hmem]
    -- an entity that the query passes over lacks one of the two components
    cases hlatest : w.get e .latestInput with
    | none => cases w.get e .extractionBeam <;> rfl
    | some latest =>
      cases hbeam : w.get e .extractionBeam with
      | none => rfl
      | some beam =>
        refine absurd (World.mem_query.mpr ⟨Storage.alive_of_get hbeam, fun k hk => ?_⟩) hmem
        rcases List.mem_cons.mp hk with rfl | hk
        · exact Option.isSome_iff_exists.mpr ⟨latest, hlatest⟩
        · cases List.mem_singleton.mp hk
          exact Option.isSome_iff_exists.mpr ⟨beam, hbeam⟩

/-! ## Rounds -/

section Rounds

variable (P : Platform F)

/-- The command the replicator stores for an update, if it accepts the update. -/
def acceptedCommand (w : World F) (e : Entity) (payload : Bytes) : Option (InputCommand F) :=
  match AntiReplay.acceptedTick P w e payload, deserializeCommand P payload with
  | some tick, some command => some { command with tick := tick }
  | _, _ => none

/-- What happens between two steps of the simulation. -/
inductive Input where
  | command (target : Entity) (u : ComponentUpdate)
  | advanceTick

def Input.run (a : BevyWorldAdapter F) : Input → BevyWorldAdapter F
  | .command target u => { a with world := (inputCommandReplicator P).apply a.world target u }
  | .advanceTick => a.advanceTick

/-- The command accepted for the agent `e`. -/
def Input.accepted (e : Entity) (a : BevyWorldAdapter F) : Input → Option (InputCommand F)
  | .command target u => if target = e then acceptedCommand P a.world e u.payload else none
  | .advanceTick => none

def feed (a : BevyWorldAdapter F) (inputs : List Input) : BevyWorldAdapter F :=
  inputs.foldl (Input.run P) a

def acceptedOf (e : Entity) : BevyWorldAdapter F → List Input → List (InputCommand F)
  | _, [] => []
  | a, i :: is => (i.accepted P e a).toList ++ acceptedOf e (i.run P a) is

/-- The accepted commands of a round, and the target of the beam if the stage switched it. -/
structure Round (F : Type) where
  accepted : List (InputCommand F)
  flip : Option (Option NetworkId)

variable {r : Round F}

/-- The new target of a beam that has been switched on or off. -/
def switched (b b' : ExtractionBeam F) : Option (Option NetworkId) :=
  if b.active ≠ b'.active then some b'.target else none

/-- The same of the beam of `e`. -/
def flipOf (w w' : World F) (e : Entity) : Option (Option NetworkId) :=
  match w.get e .extractionBeam, w'.get e .extractionBeam with
  | some b, some b' => switched b b'
  | _, _ => none

variable [F32 F]

/-- The world when the targeted-action stage starts. -/
def beforeToggles (a : BevyWorldAdapter F) : World F :=
  wrapStage a.bimap (moveStage P.headingFuel (1.0 / F32.ofU64 a.tickRate) a.world)

theorem motionStage_eq (a : BevyWorldAdapter F) :
    (a.motionStage P).world = toggleStage (beforeToggles P a) := rfl

/-- The reports of a run from `a`. -/
def rounds (e : Entity) : BevyWorldAdapter F → List (List Input) → List (Round F)
  | _, [] => []
  | a, inputs :: rest =>
    let b := feed P a inputs
    ⟨acceptedOf P e a inputs, flipOf (beforeToggles P b) (toggleStage (beforeToggles P b)) e⟩ ::
      rounds e (b.simulate P) rest

end Rounds

/-- The target of the first toggle, for every command that has one. -/
def toggles (commands : List (InputCommand F)) : List NetworkId :=
  commands.filterMap fun c => toggleTarget c.actions

/-- The tick of the last of the commands. -/
def lastTick (commands : List (InputCommand F)) : Option UInt64 :=
  commands.getLast?.map InputCommand.tick

theorem lastTick_append (cs cs' : List (InputCommand F)) :
    lastTick (cs ++ cs') = (lastTick cs').or (lastTick cs) := by
  unfold lastTick
  rw [List.getLast?_append, Option.map_or]

/-! ## Between two steps -/

/-- The slot with a command in it. -/
def slotOf (c : InputCommand F) : LatestInput F := ⟨c, c.tick⟩

section Inputs

variable (P : Platform F)

variable {a : BevyWorldAdapter F} {c c' : InputCommand F} {e : Entity} {payload : Bytes}
  {w : World F}

theorem deserialize_of_acceptedTick {t : UInt64}
    (h : AntiReplay.acceptedTick P w e payload = some t) :
    ∃ command, deserializeCommand P payload = some command := by
  unfold AntiReplay.acceptedTick at h
  split at h
  · cases hcommand : deserializeCommand P payload with
    | none => simp [hcommand] at h
    | some command => exact ⟨command, rfl⟩
  · cases h

theorem acceptedTick_of_command :
    AntiReplay.acceptedTick P w e payload = (acceptedCommand P w e payload).map InputCommand.tick := by
  unfold acceptedCommand
  cases htick : AntiReplay.acceptedTick P w e payload with
  | none => rfl
  | some t =>
    obtain ⟨command, hcommand⟩ := deserialize_of_acceptedTick P htick
    rw [hcommand]
    rfl

/-- What is accepted is what is stored. -/
theorem slot_of_accepted {u : ComponentUpdate} (h : acceptedCommand P w e u.payload = some c) :
    ((inputCommandReplicator P).apply w e u).get e .latestInput = some (slotOf c) := by
  have htick : AntiReplay.acceptedTick P w e u.payload = some c.tick := by
    rw [acceptedTick_of_command, h]
    rfl
  obtain ⟨command, hcommand⟩ := deserialize_of_acceptedTick P htick
  have hstored : c = { command with tick := c.tick } := by
    unfold acceptedCommand at h
    rw [htick, hcommand] at h
    exact (Option.some.inj h).symm
  rw [hstored]
  unfold AntiReplay.acceptedTick at htick
  simp only [inputCommandReplicator]
  by_cases hgate : validateAccessGate w e = true
  · have halive := AntiReplay.alive_of_gate hgate
    rw [if_pos hgate] at htick ⊢
    simp only [hcommand] at htick ⊢
    unfold applyCommandUpdate
    rw [if_pos halive]
    cases hlatest : w.get e .latestInput with
    | none =>
      -- the first command of an agent is stored with its tick capped
      simp only [hlatest] at htick
      rw [World.get_insert, if_pos ⟨rfl, halive⟩, bundle_singleton_self, Option.some_or]
      exact congrArg (fun t => some (slotOf { command with tick := t })) (Option.some.inj htick)
    | some latest =>
      simp only [hlatest] at htick
      split at htick
      · next haccept =>
        dsimp only
        rw [if_pos haccept, World.get_modify_self, hlatest]
        exact congrArg (fun t => some (slotOf { command with tick := t })) (Option.some.inj htick)
      · cases htick
  · rw [if_neg hgate] at htick
    cases htick

/-- One input fills the slot with what is accepted, and leaves the beam and all lives alone. -/
theorem Input.run_cells (e : Entity) (a : BevyWorldAdapter F) (i : Input) :
    (i.run P a).world.alive e = a.world.alive e ∧
      (i.run P a).world.ecs.next = a.world.ecs.next ∧
      (i.run P a).world.get e .extractionBeam = a.world.get e .extractionBeam ∧
      (i.run P a).world.get e .latestInput =
        ((i.accepted P e a).map slotOf).or (a.world.get e .latestInput) := by
  cases i with
  | advanceTick => exact ⟨rfl, rfl, rfl, rfl⟩
  | command target u =>
    have hwrites := (inputCommandReplicator_writesOnly P).writes a.world target u
    refine ⟨hwrites.alive e, hwrites.next, hwrites.get e _ (Or.inr (by decide)), ?_⟩
    simp only [Input.accepted]
    by_cases htarget : target = e
    · subst htarget
      rw [if_pos rfl]
      cases hcommand : acceptedCommand P a.world target u.payload with
      | some c => exact slot_of_accepted P hcommand
      | none =>
        have hreject : AntiReplay.acceptedTick P a.world target u.payload = none := by
          rw [acceptedTick_of_command, hcommand]
          rfl
        exact congrArg (·.get target .latestInput) (AntiReplay.apply_of_rejected P hreject)
    · rw [if_neg htarget]
      exact hwrites.get e _ (Or.inl (Ne.symm htarget))

theorem feed_cells (e : Entity) (inputs : List Input) (a : BevyWorldAdapter F) :
    (feed P a inputs).world.alive e = a.world.alive e ∧
      (feed P a inputs).world.ecs.next = a.world.ecs.next ∧
      (feed P a inputs).world.get e .extractionBeam = a.world.get e .extractionBeam ∧
      (feed P a inputs).world.get e .latestInput =
        ((acceptedOf P e a inputs).getLast?.map slotOf).or (a.world.get e .latestInput) := by
  induction inputs generalizing a with
  | nil => exact ⟨rfl, rfl, rfl, rfl⟩
  | cons i inputs ih =>
    obtain ⟨halive, hnext, hbeam, hslot⟩ := i.run_cells P e a
    obtain ⟨halive', hnext', hbeam', hslot'⟩ := ih (i.run P a)
    refine ⟨halive'.trans halive, hnext'.trans hnext, hbeam'.trans hbeam, hslot'.trans ?_⟩
    rw [hslot, acceptedOf, List.getLast?_append, Option.map_or, Option.or_assoc]
    cases i.accepted P e a <;> rfl

/-- A command is not accepted at the tick of the one in the slot. -/
theorem Input.tick_ne_of_accepted {i : Input} (h : i.accepted P e a = some c)
    (hslot : a.world.get e .latestInput = some (slotOf c')) : c'.tick ≠ c.tick := by
  cases i with
  | advanceTick => cases h
  | command target u =>
    simp only [Input.accepted] at h
    split at h
    · have htick : AntiReplay.acceptedTick P a.world e u.payload = some c.tick := by
        rw [acceptedTick_of_command, h]
        rfl
      have hlast : AntiReplay.lastTick a.world e = some c'.tick := by
        unfold AntiReplay.lastTick
        rw [hslot]
        rfl
      have hfollows := (AntiReplay.acceptsTick_iff _ _ _).mp
        (AntiReplay.accepts_of_accepted P htick hlast)
      intro heq
      rw [heq] at hfollows
      rcases hfollows with ⟨hlt, -⟩ | ⟨hin, hout⟩
      · exact absurd hlt (Nat.lt_irrefl _)
      · exact hout hin
    · cases h

/-- So the first command accepted in a round differs in its tick from the one before the round. -/
theorem tick_ne_of_head {inputs : List Input} (h : (acceptedOf P e a inputs).head? = some c)
    (hslot : a.world.get e .latestInput = some (slotOf c')) : c'.tick ≠ c.tick := by
  induction inputs generalizing a with
  | nil => cases h
  | cons i inputs ih =>
    rw [acceptedOf] at h
    obtain ⟨-, -, -, hnext⟩ := i.run_cells P e a
    cases haccepted : i.accepted P e a with
    | some c₀ =>
      rw [haccepted] at h
      obtain rfl := Option.some.inj h
      exact i.tick_ne_of_accepted P haccepted hslot
    | none =>
      rw [haccepted] at h hnext
      exact ih h (hnext.trans hslot)

theorem acceptedOf_of_dead (inputs : List Input)
    (h : a.world.alive e = false) : acceptedOf P e a inputs = [] := by
  have hcells := (feed_cells P e inputs a).2.2.2
  rw [World.get_of_not_alive h, World.get_of_not_alive ((feed_cells P e inputs a).1.trans h),
    Option.or_none] at hcells
  exact List.getLast?_eq_none_iff.mp (Option.map_eq_none_iff.mp hcells.symm)

theorem feed_hook (inputs : List Input) (a : BevyWorldAdapter F) :
    (feed P a inputs).postSimulateHook = a.postSimulateHook := by
  induction inputs generalizing a with
  | nil => rfl
  | cons i inputs ih =>
    refine (ih (i.run P a)).trans ?_
    cases i <;> rfl

end Inputs

/-! ## One step -/

/-- The hook may do anything but touch the two components of an entity that was there before, or
bring one back to life. -/
structure SparesToggles (hook : World F → World F) : Prop where
  next : ∀ w, w.ecs.next ≤ (hook w).ecs.next
  alive : ∀ w e, e.id < w.ecs.next → (hook w).alive e = true → w.alive e = true
  get : ∀ w e, e.id < w.ecs.next → (hook w).alive e = true →
    ∀ k ∈ toggleComps, (hook w).get e k = w.get e k

/-- What the switching off of beams leaves of a beam. -/
theorem seen_afterTransfers [F32 F] (w : World F) (bimap : BiMap NetworkId Entity) (e : Entity) :
    ((afterTransfers w bimap).get e .extractionBeam).map ExtractionBeam.lastSeenInputTick =
      (w.get e .extractionBeam).map ExtractionBeam.lastSeenInputTick := by
  obtain ⟨disabled, transfers, hshape⟩ := afterTransfers_shape w bimap
  have htransfers := (Written.foldl id executeTransfer_written transfers
    (disabled.foldl disableBeam w)).edits.get e .extractionBeam (by decide)
  rw [hshape]
  refine (congrArg _ (htransfers.trans (get_disableBeams disabled w e))).trans ?_
  split
  · cases w.get e .extractionBeam <;> rfl
  · rfl

section Step

variable [F32 F] (P : Platform F)

/-- From the end of the targeted-action stage to the hook a survivor keeps the tick it has seen. -/
theorem seen_beforeHook (a : BevyWorldAdapter F) {e : Entity}
    (hmotion : (a.motionStage P).world.alive e = true)
    (halive : (a.beforeHook P).world.alive e = true) :
    ((a.beforeHook P).world.get e .extractionBeam).map ExtractionBeam.lastSeenInputTick =
      ((a.motionStage P).world.get e .extractionBeam).map ExtractionBeam.lastSeenInputTick := by
  have hlast := beforeHook_evolves P a
  have hcollect := (handedOut_edited P a).edits
  have hextract : Evolves [.tool] (processExtraction (a.motionStage P).world
      (a.motionStage P).bimap).1 (a.beforeCollection P).world := by
    unfold beforeCollection extractionStage
    generalize processExtraction (a.motionStage P).world (a.motionStage P).bimap = out
    have hgone := (Deeds.foldl Prod.fst (despawnMapped_deeds [.tool]
      PlatformEvent.resourceExhausted) out.2 ({ a.motionStage P with world := out.1 }, [])).evolves
    exact hgone.trans ((Evolves.of_edits (processInteraction_edits P _ _)).mono (by decide))
  have hmid : Evolves ([.tool] ++ ([.dataStore, .dataDropComponent] ++ sceneComps))
      (processExtraction (a.motionStage P).world (a.motionStage P).bimap).1
      (a.beforeHook P).world :=
    (hextract.mono (List.subset_append_left _ _)).trans (((Evolves.of_edits hcollect).mono
      (by decide)).trans (hlast.mono (by decide)))
  rw [hmid.get e .extractionBeam (by decide) halive, get_processExtraction _ _ hmotion]
  exact seen_afterTransfers (a.motionStage P).world (a.motionStage P).bimap e

theorem beforeToggles_edits (a : BevyWorldAdapter F) :
    Edits [.velocity, .transform] a.world (beforeToggles P a) := by
  have hmove := moveStage_written P.headingFuel (1.0 / F32.ofU64 a.tickRate) a.world
  have hwrap := wrapStage_written a.bimap (moveStage P.headingFuel (1.0 / F32.ofU64 a.tickRate)
    a.world)
  exact Written.edits (hmove.trans (hwrap.mono (by decide)))

/-- A step on an entity that was there before: if it survives it was alive, its slot is untouched,
and the tick its beam has seen is the one the targeted-action stage left. -/
theorem simulate_cells {a : BevyWorldAdapter F}
    (hhook : ∀ hook, a.postSimulateHook = some hook → SparesToggles hook) {e : Entity}
    (hknown : e.id < a.world.ecs.next) (halive : (a.simulate P).world.alive e = true) :
    a.world.alive e = true ∧
      (a.simulate P).world.get e .latestInput = a.world.get e .latestInput ∧
      ((a.simulate P).world.get e .extractionBeam).map ExtractionBeam.lastSeenInputTick =
        ((toggleStage (beforeToggles P a)).get e .extractionBeam).map
          ExtractionBeam.lastSeenInputTick := by
  have hsetup := (beforeHook_moves P a).setup.hook
  have hevolves := simulation_evolves P a
  have hseen := seen_beforeHook P a (e := e)
  have hmotion : (a.motionStage P).world.alive e = a.world.alive e :=
    (motionStage_written P a).edits.alive e
  rw [simulate_eq] at halive ⊢
  generalize a.beforeHook P = b at hsetup hevolves hseen halive ⊢
  have hknown' : e.id < b.world.ecs.next := Nat.lt_of_lt_of_le hknown hevolves.next
  obtain ⟨hb, hget⟩ : b.world.alive e = true ∧
      ∀ k ∈ toggleComps, b.runHook.world.get e k = b.world.get e k := by
    unfold runHook at halive ⊢
    split at halive
    · next hook hsome =>
      have hspares := hhook hook (hsetup ▸ hsome)
      exact ⟨hspares.alive b.world e hknown' halive, hspares.get b.world e hknown' halive⟩
    · exact ⟨halive, fun _ _ => rfl⟩
  have ha : a.world.alive e = true := (hevolves.alive e hb).resolve_right (Nat.not_le.mpr hknown)
  refine ⟨ha, ?_, ?_⟩
  · rw [hget _ (by decide), hevolves.get e .latestInput (by decide) hb]
  · rw [hget _ (by decide), ← motionStage_eq]
    exact hseen (hmotion.trans ha) hb

theorem next_simulate {a : BevyWorldAdapter F}
    (hhook : ∀ hook, a.postSimulateHook = some hook → SparesToggles hook) :
    a.world.ecs.next ≤ (a.simulate P).world.ecs.next := by
  have hsetup := (beforeHook_moves P a).setup.hook
  have hevolves := simulation_evolves P a
  rw [simulate_eq]
  generalize a.beforeHook P = b at hsetup hevolves ⊢
  refine Nat.le_trans hevolves.next ?_
  unfold runHook
  split
  · next hook hsome => exact (hhook hook (hsetup ▸ hsome)).next b.world
  · exact Nat.le_refl _

end Step

/-! ## Runs -/

/-- The target of the beam after the stage has acted on a command, if it switches the beam. -/
def effect (seen : Option UInt64) (c : InputCommand F) : Option (Option NetworkId) :=
  if seen = some c.tick then none else (toggleTarget c.actions).map some

theorem switched_toggled (b : ExtractionBeam F) (c : InputCommand F) :
    switched b (b.toggled c) = effect b.lastSeenInputTick c := by
  unfold switched ExtractionBeam.toggled effect
  by_cases hseen : b.lastSeenInputTick = some c.tick
  · rw [if_neg (not_not.mpr hseen), if_pos hseen]
    exact if_neg (not_not.mpr rfl)
  · rw [if_pos hseen, if_neg hseen]
    cases toggleTarget c.actions with
    | none => exact if_neg (not_not.mpr rfl)
    | some target => exact if_pos (Bool.eq_not_self b.active).mp

theorem flipOf_toggleStage {b : ExtractionBeam F} (h : w.get e .extractionBeam = some b) :
    flipOf w (toggleStage w) e =
      (w.get e .latestInput).bind fun latest : LatestInput F =>
        effect b.lastSeenInputTick latest.command := by
  unfold flipOf
  rw [get_toggleStage, h]
  cases w.get e .latestInput with
  | none => exact if_neg (not_not.mpr rfl)
  | some latest => exact switched_toggled b (LatestInput.command latest)

theorem flipOf_of_dead {w' : World F} (h : w.alive e = false) : flipOf w w' e = none := by
  unfold flipOf
  rw [World.get_of_not_alive h]

/-- Between two rounds: the stage has seen the last command that was accepted, and that command is
still in the slot. -/
structure Caught (a : BevyWorldAdapter F) (e : Entity) (last : Option UInt64) : Prop where
  known : e.id < a.world.ecs.next
  beam : a.world.alive e = true → ∃ b : ExtractionBeam F,
    a.world.get e .extractionBeam = some b ∧ b.lastSeenInputTick = last
  slot : a.world.alive e = true → ∃ c : Option (InputCommand F),
    a.world.get e .latestInput = c.map slotOf ∧ c.map InputCommand.tick = last

section Law

variable [F32 F] (P : Platform F)

variable {a : BevyWorldAdapter F} {e : Entity} {last : Option UInt64}

/-- The report of the first round, in terms of the last tick accepted before it. -/
theorem Caught.report (h : Caught a e last) (inputs : List Input) : let b := feed P a inputs
    flipOf (beforeToggles P b) (toggleStage (beforeToggles P b)) e =
        (acceptedOf P e a inputs).getLast?.bind (effect last) ∧
      ∀ c, (acceptedOf P e a inputs).head? = some c → last ≠ some c.tick := by
  obtain ⟨halive, -, hbeam, hslot⟩ := feed_cells P e inputs a
  have hmotion := beforeToggles_edits P (feed P a inputs)
  cases hlive : a.world.alive e with
  | false =>
    have haccepted := acceptedOf_of_dead P inputs hlive
    rw [haccepted]
    exact ⟨flipOf_of_dead ((hmotion.alive e).trans (halive.trans hlive)), nofun⟩
  | true =>
    obtain ⟨b, hb, hlast⟩ := h.beam hlive
    obtain ⟨c, hc, hlast'⟩ := h.slot hlive
    constructor
    · have hget : (beforeToggles P (feed P a inputs)).get e .extractionBeam = some b :=
        (hmotion.get e _ (by decide)).trans (hbeam.trans hb)
      rw [flipOf_toggleStage hget, hmotion.get e _ (by decide), hslot, hc, hlast]
      cases (acceptedOf P e a inputs).getLast? with
      | some c' => rfl
      | none =>
        -- nothing new: the stage has seen what is in the slot
        cases c with
        | none => rfl
        | some c' => exact if_pos hlast'.symm
    · intro c' hhead heq
      rw [heq] at hlast'
      obtain ⟨c₀, rfl, htick⟩ := Option.map_eq_some_iff.mp hlast'
      exact tick_ne_of_head P hhead hc htick

/-- The stage catches up in every round. -/
theorem Caught.step (hhook : ∀ hook, a.postSimulateHook = some hook → SparesToggles hook)
    (h : Caught a e last) (inputs : List Input) :
    Caught ((feed P a inputs).simulate P) e ((lastTick (acceptedOf P e a inputs)).or last) := by
  obtain ⟨halive, hnext, hbeam, hslot⟩ := feed_cells P e inputs a
  have hmotion := beforeToggles_edits P (feed P a inputs)
  have hhook' : ∀ hook, (feed P a inputs).postSimulateHook = some hook → SparesToggles hook :=
    fun hook hsome => hhook hook ((feed_hook P inputs a).symm.trans hsome)
  have hknown : e.id < (feed P a inputs).world.ecs.next := hnext.symm ▸ h.known
  have hslot' : a.world.alive e = true → ∃ c : Option (InputCommand F),
      (feed P a inputs).world.get e .latestInput = c.map slotOf ∧
        c.map InputCommand.tick = (lastTick (acceptedOf P e a inputs)).or last := by
    intro hlive
    obtain ⟨c, hc, hlast⟩ := h.slot hlive
    refine ⟨(acceptedOf P e a inputs).getLast?.or c, ?_, ?_⟩
    · rw [hslot, hc, Option.map_or]
    · rw [Option.map_or, hlast]
      rfl
  refine ⟨Nat.lt_of_lt_of_le hknown (next_simulate P hhook'), fun hsurvives => ?_,
    fun hsurvives => ?_⟩
  · obtain ⟨hfed, -, hseen⟩ := simulate_cells P hhook' hknown hsurvives
    obtain ⟨b, hb, hlast⟩ := h.beam (halive.symm.trans hfed)
    obtain ⟨c, hc, htick⟩ := hslot' (halive.symm.trans hfed)
    rw [get_toggleStage, hmotion.get e _ (by decide), hmotion.get e _ (by decide), hbeam, hb, hc]
      at hseen
    obtain ⟨b', hb', hlast'⟩ := Option.map_eq_some_iff.mp hseen
    refine ⟨b', hb', hlast'.trans ?_⟩
    cases c with
    | some c => exact (b.lastSeenInputTick_toggled c).trans htick
    | none =>
      -- no command at all so far, so none has been seen
      obtain ⟨-, hnone⟩ := Option.or_eq_none_iff.mp htick.symm
      exact hlast.trans (hnone.trans htick)
  · obtain ⟨hfed, hkept, -⟩ := simulate_cells P hhook' hknown hsurvives
    obtain ⟨c, hc, htick⟩ := hslot' (halive.symm.trans hfed)
    exact ⟨c, hkept.trans hc, htick⟩

theorem simulate_hook (a : BevyWorldAdapter F) :
    (a.simulate P).postSimulateHook = a.postSimulateHook := by
  have hsetup := (beforeHook_moves P a).setup.hook
  rw [simulate_eq]
  generalize a.beforeHook P = b at hsetup ⊢
  unfold runHook
  split
  · exact hsetup
  · exact hsetup

end Law

/-- Every round acts on the last command it accepts, unless the beam has seen its tick, and starts
from a tick other than the last one. -/
def Lawful : Option UInt64 → List (Round F) → Prop
  | _, [] => True
  | last, r :: rs =>
    r.flip = r.accepted.getLast?.bind (effect last) ∧
      (∀ c, r.accepted.head? = some c → last ≠ some c.tick) ∧
      Lawful ((lastTick r.accepted).or last) rs

theorem lawful_rounds [F32 F] (P : Platform F) (run : List (List Input)) :
    ∀ {a : BevyWorldAdapter F} {last : Option UInt64},
      (∀ hook, a.postSimulateHook = some hook → SparesToggles hook) → Caught a e last →
      Lawful last (rounds P e a run) := by
  induction run with
  | nil => exact fun _ _ => trivial
  | cons inputs run ih =>
    intro a last hhook h
    obtain ⟨hflip, hhead⟩ := h.report P inputs
    refine ⟨hflip, hhead, ih (fun hook hsome => hhook hook ?_) (h.step P hhook inputs)⟩
    rw [← hsome, simulate_hook, feed_hook]

theorem Lawful.flip_eq {before after : List (Round F)} :
    ∀ {last : Option UInt64}, Lawful last (before ++ r :: after) →
      r.flip = r.accepted.getLast?.bind
        (effect ((lastTick (before.flatMap Round.accepted)).or last)) := by
  induction before with
  | nil => exact fun h => h.1
  | cons r₀ before ih =>
    intro last h
    rw [List.flatMap_cons, lastTick_append, Option.or_assoc]
    exact ih h.2.2

/-- A round that accepts at most one command has the effect of that command. -/
theorem flip_of_single {last : Option UInt64} (h : Lawful last [r])
    (hsingle : r.accepted.length ≤ 1) : r.flip.toList = (toggles r.accepted).map some := by
  obtain ⟨hflip, hhead, -⟩ := h
  rw [hflip]
  match hcommands : r.accepted, hsingle with
  | [], _ => rfl
  | [c], _ =>
    have hnew := hhead c (congrArg List.head? hcommands)
    show (effect last c).toList = ([c].filterMap fun c => toggleTarget c.actions).map some
    rw [effect, if_neg hnew]
    cases htarget : toggleTarget c.actions <;> simp [htarget]
  | _ :: _ :: _, hsingle => simp at hsingle

theorem Lawful.flips_eq {log : List (Round F)} :
    ∀ {last : Option UInt64}, Lawful last log → (∀ r ∈ log, r.accepted.length ≤ 1) →
      log.filterMap Round.flip = (toggles (log.flatMap Round.accepted)).map some := by
  induction log with
  | nil => exact fun _ _ => rfl
  | cons r log ih =>
    intro last h hsingle
    obtain ⟨hr, hlog⟩ := List.forall_mem_cons.mp hsingle
    have hfirst := flip_of_single (r := r) ⟨h.1, h.2.1, trivial⟩ hr
    have hrest := ih h.2.2 hlog
    have hcons : (r :: log).filterMap Round.flip = r.flip.toList ++ log.filterMap Round.flip := by
      cases hf : r.flip <;> simp [hf]
    rw [hcons, hfirst, hrest, List.flatMap_cons, ← List.map_append]
    exact congrArg (List.map some) (List.filterMap_append).symm

/-- An agent with a beam that has not been given a command. -/
structure NewAgent (w : World F) (e : Entity) : Prop where
  beam : ∃ b : ExtractionBeam F, w.get e .extractionBeam = some b ∧ b.lastSeenInputTick = none
  input : w.get e .latestInput = none

theorem NewAgent.caught {a : BevyWorldAdapter F} (h : NewAgent a.world e) : Caught a e none := by
  obtain ⟨b, hb, hseen⟩ := h.beam
  exact ⟨Storage.lt_next_of_alive (Storage.alive_of_get hb), fun _ => ⟨b, hb, hseen⟩,
    fun _ => ⟨none, h.input, rfl⟩⟩

/-- In every run from a new agent on, a round switches the beam by the last command it accepts,
unless the stage has seen the tick of that command last; so no command acts twice, and one that is
followed by another in its round does not act. In a run that never accepts two commands in one
round, the switches are the accepted toggles, each with the target of the command's first one. -/
theorem last_toggle_takes_effect [F32 F] (P : Platform F) {a : BevyWorldAdapter F} {e : Entity}
    (h : NewAgent a.world e)
    (hhook : ∀ hook, a.postSimulateHook = some hook → SparesToggles hook)
    (run : List (List Input)) :
    let log := rounds P e a run
    (∀ before r after, log = before ++ r :: after →
      r.flip = r.accepted.getLast?.bind
        (effect (lastTick (before.flatMap Round.accepted)))) ∧
      ((∀ r ∈ log, r.accepted.length ≤ 1) →
        log.filterMap Round.flip = (toggles (log.flatMap Round.accepted)).map some) := by
  have hlawful := lawful_rounds P run hhook h.caught
  refine ⟨fun before r after hlog => ?_, hlawful.flips_eq⟩
  rw [hlog] at hlawful
  have hflip := hlawful.flip_eq
  rwa [Option.or_none] at hflip

/-! ## An agent and its commands -/

/-- Two bytes are a toggle with its tick, one byte is a command that does nothing. -/
def togglePlatform : Platform ℚ :=
  { rationalPlatform with
    decodeInput := fun
      | [tick, target] => some ⟨tick.toUInt64, [.toggleExtraction ⟨target.toNat⟩], 0, none⟩
      | [tick] => some ⟨tick.toUInt64, [], 0, none⟩
      | _ => none }

/-- The agent is the third entity, after the workspace and its first resource. -/
def toggleAdapter : BevyWorldAdapter ℚ :=
  ((newWithRng World.new 60 ⟨1, 0⟩).spawnSessionAgent entityTypeAgent 25 0 0 ⟨7⟩).1

def send (payload : Bytes) : Input := .command ⟨2⟩ ⟨⟨1⟩, inputCommandKind, payload, 0⟩

theorem toggleAdapter_new : NewAgent toggleAdapter.world ⟨2⟩ where
  beam := by
    have hseen : (toggleAdapter.world.get ⟨2⟩ .extractionBeam).map
        ExtractionBeam.lastSeenInputTick = some none := by decide +kernel
    exact Option.map_eq_some_iff.mp hseen
  input := Option.isNone_iff_eq_none.mp (by decide +kernel)

theorem toggleAdapter_hook : ∀ hook, toggleAdapter.postSimulateHook = some hook →
    SparesToggles hook := by
  have hnone : toggleAdapter.postSimulateHook.isNone = true := by decide +kernel
  intro hook hsome
  rw [hsome] at hnone
  cases hnone

/-- Two toggles are accepted before the next step, and the stage switches the beam once. -/
theorem overwritten_toggle :
    let log := rounds togglePlatform ⟨2⟩ toggleAdapter [[send [1, 3], send [2, 4]]]
    NewAgent toggleAdapter.world ⟨2⟩ ∧ toggleAdapter.postSimulateHook.isNone = true ∧
      toggles (log.flatMap Round.accepted) = [⟨3⟩, ⟨4⟩] ∧
      log.filterMap Round.flip = [some ⟨4⟩] :=
  ⟨toggleAdapter_new, by decide +kernel⟩

/-- One command in each round: on, nothing new, and off again. -/
theorem last_toggle_takes_effect_single :
    let log := rounds togglePlatform ⟨2⟩ toggleAdapter [[send [1, 3]], [], [send [2, 3]]]
    ((∀ before r after, log = before ++ r :: after →
      r.flip = r.accepted.getLast?.bind
        (effect (lastTick (before.flatMap Round.accepted)))) ∧
      ((∀ r ∈ log, r.accepted.length ≤ 1) →
        log.filterMap Round.flip = (toggles (log.flatMap Round.accepted)).map some)) ∧
      log.map (fun r => r.accepted.length) = [1, 0, 1] ∧
      log.filterMap Round.flip = [some ⟨3⟩, some ⟨3⟩] :=
  ⟨last_toggle_takes_effect togglePlatform toggleAdapter_new toggleAdapter_hook _,
    by decide +kernel⟩

end Toggles

end Aetheris
