import Mathlib.Algebra.Group.Nat.Defs
import Mathlib.Order.Basic

/-!
# Checked machine arithmetic

`a + b` and `a - b` on unsigned machine integers as a build with overflow checks runs them: they
either have the exact result or stop the program. A loop of such steps runs to its end if every
state it passes through lets the next step succeed.
-/

/-- `a + b`, unless it overflows. -/
def UInt64.checkedAdd (a b : UInt64) : Option UInt64 :=
  if a.toNat + b.toNat < 2 ^ 64 then some (a + b) else none

theorem UInt64.checkedAdd_of_lt {a b : UInt64} (h : a.toNat + b.toNat < 2 ^ 64) :
    a.checkedAdd b = some (a + b) := if_pos h

/-- `a + b`, unless it overflows. -/
def UInt32.checkedAdd (a b : UInt32) : Option UInt32 :=
  if a.toNat + b.toNat < 2 ^ 32 then some (a + b) else none

theorem UInt32.checkedAdd_of_lt {a b : UInt32} (h : a.toNat + b.toNat < 2 ^ 32) :
    a.checkedAdd b = some (a + b) := if_pos h

/-- `a - b`, unless it underflows. -/
def UInt32.checkedSub (a b : UInt32) : Option UInt32 := if b ≤ a then some (a - b) else none

theorem UInt32.checkedSub_of_le {a b : UInt32} (h : b ≤ a) : a.checkedSub b = some (a - b) :=
  if_pos h

/-- `a + b`, unless it overflows. -/
def UInt16.checkedAdd (a b : UInt16) : Option UInt16 :=
  if a.toNat + b.toNat < 2 ^ 16 then some (a + b) else none

theorem UInt16.checkedAdd_of_lt {a b : UInt16} (h : a.toNat + b.toNat < 2 ^ 16) :
    a.checkedAdd b = some (a + b) := if_pos h

/-- `a - b`, unless it underflows. -/
def UInt16.checkedSub (a b : UInt16) : Option UInt16 := if b ≤ a then some (a - b) else none

theorem UInt16.checkedSub_of_le {a b : UInt16} (h : b ≤ a) : a.checkedSub b = some (a - b) :=
  if_pos h

namespace Aetheris

/-- The loop rule. `I` holds of what is still to do and the state it starts from. -/
theorem foldlM_eq_some_foldl {α σ : Type} {step : σ → α → Option σ} {f : σ → α → σ}
    (I : List α → σ → Prop)
    (hstep : ∀ s x l, I (x :: l) s → step s x = some (f s x) ∧ I l (f s x)) (l : List α) (s : σ)
    (h : I l s) : l.foldlM step s = some (l.foldl f s) := by
  induction l generalizing s with
  | nil => rfl
  | cons x l ih =>
    obtain ⟨hsome, hrest⟩ := hstep s x l h
    rw [List.foldlM_cons, hsome]
    exact ih (f s x) hrest

end Aetheris
