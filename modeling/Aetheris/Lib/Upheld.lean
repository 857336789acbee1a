import Mathlib.Data.List.Basic

/-!
# Traces that hold up to the first violation

A trace is a list of moments. A statement about a moment may depend on a condition that every
earlier moment meets.
-/

section Upheld

variable {α : Type} {Good Q : α → Prop}

/-- Every moment meets `Q` as long as all moments before it meet `Good`. -/
def Upheld (Good Q : α → Prop) (trace : List α) : Prop :=
  ∀ before o after, trace = before ++ o :: after → (∀ o' ∈ before, Good o') → Q o

theorem upheld_nil (Good Q : α → Prop) : Upheld Good Q [] := by
  intro before o after h
  simp at h

theorem upheld_append {l l' : List α} (h : Upheld Good Q l)
    (h' : (∀ o ∈ l, Good o) → Upheld Good Q l') :
    Upheld Good Q (l ++ l') := by
  intro before o after heq hgood
  rcases List.append_eq_append_iff.mp heq with ⟨rest, hbefore, hl'⟩ | ⟨rest, hl, hafter⟩
  · -- the moment is one of `l'`
    subst hbefore
    exact h' (fun o ho => hgood o (List.mem_append_left _ ho)) rest o after hl'
      fun o ho => hgood o (List.mem_append_right _ ho)
  · cases rest with
    | nil =>
      rw [List.append_nil] at hl
      subst hl
      exact h' hgood [] o after hafter.symm (by simp)
    | cons x rest =>
      rw [List.cons_append, List.cons.injEq] at hafter
      obtain ⟨rfl, -⟩ := hafter
      exact h before o rest hl hgood

theorem upheld_singleton {o : α} (h : Q o) : Upheld Good Q [o] := by
  intro before x after heq _
  cases before with
  | nil => simp only [List.nil_append, List.cons.injEq] at heq; exact heq.1 ▸ h
  | cons y before => simp at heq

end Upheld
