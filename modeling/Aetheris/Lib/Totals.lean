import Aetheris.Lib.Ecs
import Mathlib.Algebra.BigOperators.Group.Finset.Basic
import Mathlib.Algebra.Ring.Nat

/-!
# Totals over the live entities of a storage

A quantity is a number for each entity that is zero for those that do not live. Its total over the
live entities depends on the numbers only, not on the order of the rows, so a change at one entity
changes the total by what it changes there.
-/

namespace Ecs

variable {C : Type} {V : C → Type}

namespace Storage

/-- The sum of `φ` over the live entities. -/
def total (s : Storage V) (φ : Entity → Nat) : Nat := (s.entities.map φ).sum

/-- `φ` is zero where nothing lives. -/
def Vanishes (s : Storage V) (φ : Entity → Nat) : Prop := ∀ e, s.alive e = false → φ e = 0

variable {s s' : Storage V} {φ φ' : Entity → Nat}

theorem total_eq_sum (h : s.Vanishes φ) {T : Finset Entity}
    (hT : ∀ e ∈ s.entities, e ∈ T) : s.total φ = ∑ e ∈ T, φ e := by
  have hlive : s.total φ = ∑ e ∈ s.entities.toFinset, φ e :=
    (List.sum_toFinset φ s.nodup).symm
  rw [hlive]
  refine Finset.sum_subset (fun e he => hT e (List.mem_toFinset.mp he)) fun e _ hdead => ?_
  refine h e (Bool.eq_false_of_not_eq_true fun halive => hdead ?_)
  exact List.mem_toFinset.mpr ((s.mem_entities e).mpr halive)

/-- The quantities agree except at `e`. -/
theorem total_update (h : s.Vanishes φ)
    (h' : s'.Vanishes φ') (e : Entity) (hother : ∀ e', e' ≠ e → φ' e' = φ e') :
    s'.total φ' + φ e = s.total φ + φ' e := by
  let T : Finset Entity := {e} ∪ (s.entities.toFinset ∪ s'.entities.toFinset)
  have he : e ∈ T := by simp [T]
  have hT : ∀ x ∈ s.entities, x ∈ T := fun x hx => by simp [T, hx]
  have hT' : ∀ x ∈ s'.entities, x ∈ T := fun x hx => by simp [T, hx]
  have hrest : ∑ x ∈ T.erase e, φ' x = ∑ x ∈ T.erase e, φ x :=
    Finset.sum_congr rfl fun x hx => hother x (Finset.ne_of_mem_erase hx)
  rw [total_eq_sum h hT, total_eq_sum h' hT', ← Finset.sum_erase_add T φ he,
    ← Finset.sum_erase_add T φ' he, hrest]
  omega

theorem total_congr (h : s.Vanishes φ)
    (h' : s'.Vanishes φ') (hsame : ∀ e, φ' e = φ e) : s'.total φ' = s.total φ := by
  have hupdate := total_update h h' ⟨0⟩ fun e _ => hsame e
  rw [hsame] at hupdate
  omega

end Storage

end Ecs
