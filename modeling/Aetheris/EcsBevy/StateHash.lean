import Aetheris.EcsBevy.Adapter
import Aetheris.EcsBevy.Rational
import Mathlib.Data.List.Sort

/-!
# The state hash

`state_hash` is there to compare two runs. It sorts the identifiers, so that the hash is a function
of `view`: neither the order of the map nor the handles of the entities show.
-/

namespace Aetheris.BevyWorldAdapter

variable {F : Type}

/-- A value written to the hasher. -/
inductive Word where
  | u64 (n : Nat)
  | u32 (n : UInt32)
  | u16 (n : UInt16)

def hashTransform (toBits : F → UInt32) (t : Transform F) : List Word :=
  [.u32 (toBits t.x), .u32 (toBits t.y), .u32 (toBits t.z), .u32 (toBits t.rotation),
    .u16 t.entityType]

def hashProperties (p : AgentProperties) : List Word :=
  [.u16 p.integrity, .u16 p.priority, .u16 p.energy]

def sortedIds (P : Platform F) (a : BevyWorldAdapter F) : List Nat :=
  (((P.bimapOrder a.bimap.pairs).map Prod.fst).map NetworkId.val).insertionSort (· ≤ ·)

/-- `state_hash`; `finish` is the hasher, as a function of all that is written to it. -/
def stateHash (P : Platform F) (toBits : F → UInt32) (finish : List Word → UInt64)
    (a : BevyWorldAdapter F) : UInt64 :=
  finish ((a.sortedIds P).flatMap fun n => .u64 n ::
    match a.getLocalId ⟨n⟩ with
    | some l =>
      (a.world.get ⟨l.val⟩ .transform).elim [] (hashTransform toBits) ++
        (a.world.get ⟨l.val⟩ .agentProperties).elim [] hashProperties
    | none => [])

/-- What an identifier stands for, as far as the hash goes. -/
def view (a : BevyWorldAdapter F) (n : NetworkId) :
    Option (Option (Transform F) × Option AgentProperties) :=
  (a.bimap.getByLeft n).map fun e => (a.world.get e .transform, a.world.get e .agentProperties)

theorem mem_ids_iff (a : BevyWorldAdapter F) (n : NetworkId) :
    n ∈ a.bimap.pairs.map Prod.fst ↔ (a.view n).isSome = true := by
  rw [view, Option.isSome_map, Option.isSome_iff_exists]
  simp [BiMap.getByLeft_eq_some, BiMap.Rel]

theorem sortedIds_eq (P Q : Platform F) {a b : BevyWorldAdapter F}
    (h : ∀ n, a.view n = b.view n) : a.sortedIds P = b.sortedIds Q := by
  have hids : (a.bimap.pairs.map Prod.fst).Perm (b.bimap.pairs.map Prod.fst) :=
    (List.perm_ext_iff_of_nodup a.bimap.nodupLeft b.bimap.nodupLeft).mpr fun n => by
      rw [mem_ids_iff, mem_ids_iff, h n]
  have hvisits := (((P.bimapOrder_perm _).map Prod.fst).trans
    (hids.trans ((Q.bimapOrder_perm _).map Prod.fst).symm)).map NetworkId.val
  exact (((List.perm_insertionSort _ _).trans hvisits).trans
    (List.perm_insertionSort _ _).symm).eq_of_pairwise' (List.pairwise_insertionSort _ _)
      (List.pairwise_insertionSort _ _)

/-- Two adapters that show the same have the same hash, however their maps are visited and whatever
their entities are. -/
theorem stateHash_eq_of_view (P Q : Platform F) (toBits : F → UInt32)
    (finish : List Word → UInt64) (a b : BevyWorldAdapter F) (h : ∀ n, a.view n = b.view n) :
    a.stateHash P toBits finish = b.stateHash Q toBits finish := by
  unfold stateHash
  rw [sortedIds_eq P Q h]
  refine congrArg finish (List.flatMap_congr fun n _ => congrArg (_ :: ·) ?_)
  have hview := h ⟨n⟩
  unfold view at hview
  unfold getLocalId
  cases hb : b.bimap.getByLeft ⟨n⟩ with
  | none =>
    rw [hb, Option.map_none, Option.map_eq_none_iff] at hview
    rw [hview]
    rfl
  | some e' =>
    rw [hb, Option.map_some, Option.map_eq_some_iff] at hview
    obtain ⟨e, he, hcomps⟩ := hview
    obtain ⟨htransform, hproperties⟩ := Prod.mk.inj hcomps
    rw [he]
    simp only [Option.map_some, htransform, hproperties]

/-- A map that is visited from its end. -/
theorem stateHash_eq_of_view_reverse :
    let P := { rationalPlatform with
      bimapOrder := List.reverse, bimapOrder_perm := List.reverse_perm }
    let a : BevyWorldAdapter ℚ := ((newWithRng World.new 60 ⟨1, 0⟩).spawnKind 1 7 0 0).1
    a.sortedIds P = [1, 2, 3] ∧
      ∀ finish, a.stateHash P (fun x => x.num.toNat.toUInt32) finish =
        a.stateHash rationalPlatform (fun x => x.num.toNat.toUInt32) finish :=
  ⟨by decide +kernel, fun finish => stateHash_eq_of_view _ _ _ finish _ _ fun _ => rfl⟩

end Aetheris.BevyWorldAdapter
