import Aetheris.EcsBevy.Updates

/-!
# What a client update may change

With the replicators of `register_platform_components` an update changes one component of one
entity, and the sender has to be the owner on record of that entity. Which component it is depends
on the kind of the update: a registered component takes the decoded payload, and only the input kind
is confined to the `LatestInput` slot of session agents.
-/

namespace Aetheris

open Ecs

variable {F : Type}

namespace BevyWorldAdapter

/-- What no update changes. -/
structure SameRecords (a a' : BevyWorldAdapter F) : Prop where
  bimap : a'.bimap = a.bimap
  replicators : a'.replicators = a.replicators
  record : ∀ n e, a.bimap.Rel n e → a'.ownerOnRecord n e = a.ownerOnRecord n e
  resources : a'.world = { a.world with ecs := a'.world.ecs }
  alive : ∀ e, a'.world.alive e = a.world.alive e
  gate : ∀ e, validateAccessGate a'.world e = validateAccessGate a.world e

namespace SameRecords

theorem refl (a : BevyWorldAdapter F) : SameRecords a a :=
  ⟨rfl, rfl, fun _ _ _ => rfl, rfl, fun _ => rfl, fun _ => rfl⟩

theorem trans {a b c : BevyWorldAdapter F} (h : SameRecords a b) (h' : SameRecords b c) :
    SameRecords a c where
  bimap := h'.bimap.trans h.bimap
  replicators := h'.replicators.trans h.replicators
  record n e hrel := (h'.record n e (h.bimap ▸ hrel)).trans (h.record n e hrel)
  resources := by rw [h'.resources, h.resources]
  alive e := (h'.alive e).trans (h.alive e)
  gate e := (h'.gate e).trans (h.gate e)

/-- Filling the owner cache does not change the owner on record. -/
theorem authorize {a : BevyWorldAdapter F} {n : NetworkId} {e : Entity} (c : ClientId)
    (hrel : a.bimap.Rel n e) : SameRecords a (a.authorize c n e).1 := by
  unfold BevyWorldAdapter.authorize
  split
  · exact refl a
  · next hnone =>
    split
    · next owner howner =>
      refine ⟨rfl, rfl, fun n' e' hrel' => ?_, rfl, fun _ => rfl, fun _ => rfl⟩
      unfold ownerOnRecord
      dsimp only
      by_cases hn : n' = n
      · subst hn
        rw [Function.update_self, hnone, hrel'.right_unique hrel, howner]
        rfl
      · rw [Function.update_of_ne hn]
    · exact refl a

/-- Writing one component that carries no ownership. -/
theorem of_writes (a : BevyWorldAdapter F) {w : World F} {e : Entity} {k : Comp}
    (h : Writes a.world w e k) (hk : k ∉ identityComps) : SameRecords a { a with world := w } := by
  have hget : ∀ e' k', k' ∈ identityComps → w.get e' k' = a.world.get e' k' :=
    fun e' k' hk' => h.get e' k' (Or.inr fun heq => hk (heq ▸ hk'))
  refine ⟨rfl, rfl, fun n e' _ => ?_, h.resources, h.alive, fun e' => ?_⟩
  · exact congrArg (Option.or (a.owners n)) (hget e' .networkOwner (by decide))
  · have howner : w.has e' .networkOwner = a.world.has e' .networkOwner :=
      congrArg Option.isSome (hget e' .networkOwner (by decide))
    have hsession : w.has e' .sessionAgent = a.world.has e' .sessionAgent :=
      congrArg Option.isSome (hget e' .sessionAgent (by decide))
    rw [validateAccessGate, validateAccessGate, howner, hsession]

end SameRecords

variable (P : Platform F)

/-- An adapter with the platform replicators and nothing in it. -/
def emptyAdapter : BevyWorldAdapter ℚ :=
  { newWithRng World.new 60 ⟨1, 0⟩ with replicators := platformReplicators rationalPlatform }

theorem platformReplicators_local_transform :
    (defaultReplicator rationalPlatform .transform ⟨1⟩).Local :=
  platformReplicators_local rationalPlatform _ (List.mem_of_getElem? (i := 0) rfl)

end BevyWorldAdapter

end Aetheris
