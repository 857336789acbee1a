import Aetheris.EcsBevy.Refines

/-!
# Operations that unmap nothing

Only despawns, a cleared world and the simulation take an identifier away from an entity. Every
other operation the server calls leaves the pairs of the identifier map in place: it hands out fresh
identifiers to fresh entities at most. The last stage of the simulation is one of them.
-/

namespace Aetheris

open Ecs

variable {F : Type}

namespace BevyWorldAdapter

/-- Moves after which every pair of the identifier map is still there. -/
structure Grows (a a' : BevyWorldAdapter F) : Prop extends Moves a a' where
  rel : a.roster.Bounded → ∀ n e, a.bimap.Rel n e → a'.bimap.Rel n e

namespace Grows

theorem of_bimap {a a' : BevyWorldAdapter F} (h : Moves a a') (hbimap : a'.bimap = a.bimap) :
    Grows a a' :=
  ⟨h, fun _ _ _ hrel => hbimap ▸ hrel⟩

theorem refl (a : BevyWorldAdapter F) : Grows a a := of_bimap (Moves.refl a) rfl

theorem trans {a b c : BevyWorldAdapter F} (h : Grows a b) (h' : Grows b c) : Grows a c where
  toMoves := h.toMoves.trans h'.toMoves
  rel hb n e hrel :=
    h'.rel (Roster.bounded_steps (h.steps _ (Nat.le_refl _) hb) hb) n e (h.rel hb n e hrel)

/-- A pair of a fresh identifier and a fresh entity. -/
theorem of_insert {a a' b : BevyWorldAdapter F} (h : Grows a b) (hmoves : Moves a a')
    {n : NetworkId} (hn : a.allocator.next ≤ n.val)
    (hbimap : a'.bimap = b.bimap.insert n b.world.spawned) : Grows a a' where
  toMoves := hmoves
  rel hb n' e hrel := by
    have hb' := Roster.bounded_steps (h.steps _ (Nat.le_refl _) hb) hb
    have hrel' := h.rel hb n' e hrel
    have hid : n'.val < a.allocator.next := hb.ids n' e hrel
    have hne : n' ≠ n := fun heq => by rw [heq] at hid; omega
    rw [hbimap]
    exact BiMap.rel_insert.mpr (Or.inr ⟨hrel', hne, hb'.ne_fresh hrel'⟩)

theorem foldl {α : Type} {f : BevyWorldAdapter F → α → BevyWorldAdapter F}
    (h : ∀ a x, Grows a (f a x)) (l : List α) (a : BevyWorldAdapter F) :
    Grows a (l.foldl f a) := by
  induction l generalizing a with
  | nil => exact refl a
  | cons x l ih => exact (h a x).trans (ih (f a x))

end Grows

section Kinds

variable [F32 F]

variable (a : BevyWorldAdapter F)

theorem createMaster_grows : Grows a a.createMaster.1 := by
  refine (Grows.refl a).of_insert (createMaster_moves a) (n := ⟨a.allocator.next⟩)
    (Nat.le_refl _) ?_
  unfold createMaster
  dsimp only
  split <;> rfl

theorem spawnKindFuel_grows (fuel : Nat) :
    ∀ (a : BevyWorldAdapter F) (kind : UInt16) (x y rot : F),
      Grows a (spawnKindFuel fuel a kind x y rot).1 := by
  induction fuel with
  | zero => exact fun a _ _ _ _ => Grows.refl a
  | succ fuel ih =>
    intro a kind x y rot
    let a₁ := { a with allocator := a.allocator.allocate.2 }
    have hfirst : Grows a a₁ := .of_bimap (allocate_moves a) rfl
    have hmoves := spawnKindFuel_moves (fuel + 1) a kind x y rot
    unfold spawnKindFuel at hmoves ⊢
    cases hmaster : a₁.findMaster with
    | some master =>
      simp only [a₁] at hmaster
      simp only [hmaster] at hmoves ⊢
      exact hfirst.of_insert hmoves (Nat.le_refl _) rfl
    | none =>
      simp only [a₁] at hmaster
      simp only [hmaster] at hmoves ⊢
      have hnested := (createMaster_grows a₁).trans
        (ih a₁.createMaster.1 entityTypeResource 30.0 0.0 0.0)
      exact (hfirst.trans hnested).of_insert hmoves (Nat.le_refl _) rfl

theorem spawnKind_grows (kind : UInt16) (x y rot : F) :
    Grows a (a.spawnKind kind x y rot).1 := spawnKindFuel_grows 2 a kind x y rot

omit [F32 F] in
theorem setOwner_bimap (n : NetworkId) (c : ClientId) (l : Comps F) :
    (a.setOwner n c l).bimap = a.bimap := by
  unfold setOwner
  split <;> rfl

theorem spawnKindFor_grows (kind : UInt16) (x y rot : F) (c : ClientId) :
    Grows a (a.spawnKindFor kind x y rot c).1 where
  toMoves := spawnKindFor_moves a kind x y rot c
  rel hb n e hrel := by
    have hspawn := (spawnKind_grows a kind x y rot).rel hb n e hrel
    unfold spawnKindFor
    rwa [setOwner_bimap]

theorem spawnSessionAgent_bimap (kind : UInt16) (x y rot : F) (c : ClientId) :
    (a.spawnSessionAgent kind x y rot c).1.bimap = (a.spawnKindFor kind x y rot c).1.bimap := by
  unfold spawnSessionAgent
  dsimp only
  split
  · split <;> rfl
  · rfl

theorem respawnResource_grows (r : F × F × UInt16) : Grows a (a.respawnResource r) where
  toMoves := (respawnResource_deeds a r).moves
  rel hb n e hrel := by
    have hspawn := (spawnKind_grows a entityTypeResource r.1 r.2.1 0.0).rel hb n e hrel
    unfold respawnResource
    dsimp only
    split
    · exact hspawn
    · exact hspawn

/-- The trackers that have run out are on no map. -/
theorem respawnStage_grows : Grows a a.respawnStage :=
  (Grows.of_bimap (processRespawn_deeds a).moves rfl).trans (Grows.foldl respawnResource_grows _ _)

variable (P : Platform F)

theorem stressTest_grows (a : BevyWorldAdapter F) (count : UInt16) (rotate : Bool) :
    Grows a (a.stressTest P count rotate) := by
  have hdraw : ∀ (b : BevyWorldAdapter F) (lo hi : F), Grows b (b.drawRange P lo hi).1 :=
    fun b lo hi => .of_bimap (Moves.of_world rfl rfl rfl rfl rfl rfl rfl) rfl
  refine Grows.foldl (fun b i => ?_) _ a
  let b₁ := (b.drawRange P (F32.neg 20.0) 20.0).1
  let b₂ := (b₁.drawRange P (F32.neg 20.0) 20.0).1
  have hb₂ : Grows b b₂ := (hdraw b _ _).trans (hdraw b₁ _ _)
  show Grows b (stressSpawn P rotate b i)
  cases rotate with
  | false => exact hb₂.trans (spawnKind_grows b₂ _ _ _ _)
  | true => exact (hb₂.trans (hdraw b₂ 0.0 F32.tau)).trans (spawnKind_grows _ _ _ _ _)

end Kinds

end BevyWorldAdapter

end Aetheris
