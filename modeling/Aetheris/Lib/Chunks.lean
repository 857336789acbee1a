import Mathlib.Data.List.Nodup
import Mathlib.Algebra.Order.Floor.Div

/-!
# Cutting a list into chunks and putting it back together

`List.toChunks n` cuts a list into pieces of length `n`, the last one shorter: their number is the
rounded-up quotient, and in order they give the list back. Pieces that carry their position can come
back in any order: sorting by position restores it.
-/

namespace List

variable {α : Type}

/-! ## Chunks -/

theorem flatten_toChunks_go (n : Nat) (xs : List α) (acc₁ : Array α) (acc₂ : Array (List α)) :
    (toChunks.go n xs acc₁ acc₂).flatten = acc₂.toList.flatten ++ acc₁.toList ++ xs := by
  induction xs generalizing acc₁ acc₂ with
  | nil => simp [toChunks.go]
  | cons x xs ih =>
    unfold toChunks.go
    split
    · rw [ih]; simp
    · rw [ih]; simp

theorem flatten_toChunks (n : Nat) (xs : List α) : (xs.toChunks n).flatten = xs := by
  unfold toChunks
  split
  · rfl
  · exact flatten_singleton
  · rw [flatten_toChunks_go]; simp

/-- The piece under construction is neither empty nor longer than `n`. -/
theorem length_toChunks_go {n : Nat} (hn : 0 < n) (xs : List α) (acc₁ : Array α)
    (acc₂ : Array (List α)) (hpos : 0 < acc₁.size) (hle : acc₁.size ≤ n) :
    (toChunks.go n xs acc₁ acc₂).length = acc₂.size + (acc₁.size + xs.length) ⌈/⌉ n := by
  induction xs generalizing acc₁ acc₂ with
  | nil =>
    have hone : acc₁.size ⌈/⌉ n = 1 := by
      rw [Nat.ceilDiv_eq_add_pred_div, Nat.div_eq_iff (by omega)]
      omega
    simp [toChunks.go, hone]
  | cons x xs ih =>
    unfold toChunks.go
    split
    · next hfull =>
      -- the piece is complete, and the next one starts with `x`
      have hsize : acc₁.size = n := by simpa using hfull
      rw [ih _ _ (by simp) (by simp; omega), hsize]
      have hcarry : (n + (xs.length + 1)) ⌈/⌉ n = (1 + xs.length) ⌈/⌉ n + 1 := by
        rw [Nat.ceilDiv_eq_add_pred_div, Nat.ceilDiv_eq_add_pred_div,
          show n + (xs.length + 1) + n - 1 = (1 + xs.length + n - 1) + n by omega,
          Nat.add_div_right _ hn]
      have hstart : ((Array.mkEmpty n).push x).size = 1 := by simp
      rw [hstart, Array.size_push, length_cons, hcarry]
      omega
    · next hroom =>
      have hsize : acc₁.size ≠ n := by simpa using hroom
      rw [ih _ _ (by simp) (by simp; omega), Array.size_push, length_cons,
        show acc₁.size + 1 + xs.length = acc₁.size + (xs.length + 1) by omega]

theorem length_toChunks {n : Nat} (hn : 0 < n) (xs : List α) :
    (xs.toChunks n).length = xs.length ⌈/⌉ n := by
  cases xs with
  | nil => simp [toChunks]
  | cons x xs =>
    obtain ⟨n, rfl⟩ := Nat.exists_eq_succ_of_ne_zero hn.ne'
    show (toChunks.go (n + 1) xs #[x] #[]).length = _
    rw [length_toChunks_go hn _ _ _ (by simp) (by simp)]
    simp [Nat.add_comm]

/-! ## Pieces in any order -/

/-- Sorting by a key that tells the elements apart undoes every permutation of a sorted list. -/
theorem mergeSort_eq_of_perm {κ : Type} [LinearOrder κ] {key : α → κ} {le : α → α → Bool}
    (hle : ∀ a b, le a b = true ↔ key a ≤ key b) {l l' : List α}
    (hl : l.Pairwise fun a b => key a < key b) (h : l'.Perm l) : l'.mergeSort le = l := by
  have hperm : (l'.mergeSort le).Perm l := (mergeSort_perm _ _).trans h
  have htrans : ∀ a b c, le a b → le b c → le a c := by
    intro a b c hab hbc
    exact (hle a c).mpr (((hle a b).mp hab).trans ((hle b c).mp hbc))
  have htotal : ∀ a b, (le a b || le b a) = true := by
    intro a b
    rw [Bool.or_eq_true, hle, hle]
    exact le_total _ _
  have hsorted : (l'.mergeSort le).Pairwise fun a b => key a ≤ key b :=
    (pairwise_mergeSort htrans htotal l').imp fun hab => (hle _ _).mp hab
  refine hperm.eq_of_pairwise (fun a b ha hb hab hba => ?_) hsorted (hl.imp fun hlt => hlt.le)
  -- two elements of one key are one element
  have hnodup : (l.map key).Nodup := (pairwise_map.mpr hl).imp ne_of_lt
  exact inj_on_of_nodup_map hnodup (hperm.mem_iff.mp ha) hb (le_antisymm hab hba)

end List
