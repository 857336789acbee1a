import Mathlib.Algebra.Group.Nat.Defs
import Mathlib.Order.Basic

/-!
# Saturating machine arithmetic

`saturating_add` and `saturating_sub` on unsigned machine integers, each with the natural number it
stands for.
-/

/-- `a.saturating_add(b)`. -/
def UInt64.satAdd (a b : UInt64) : UInt64 :=
  if a.toNat + b.toNat < 2 ^ 64 then a + b else UInt64.ofNat (2 ^ 64 - 1)

theorem UInt64.toNat_satAdd (a b : UInt64) :
    (a.satAdd b).toNat = min (a.toNat + b.toNat) (2 ^ 64 - 1) := by
  unfold UInt64.satAdd
  split
  · next h =>
    rw [UInt64.toNat_add, Nat.mod_eq_of_lt h]
    omega
  · next h =>
    rw [UInt64.toNat_ofNat_of_lt' (by decide)]
    omega

/-- `a.saturating_sub(b)`. -/
def UInt64.satSub (a b : UInt64) : UInt64 := if b ≤ a then a - b else 0

theorem UInt64.toNat_satSub (a b : UInt64) : (a.satSub b).toNat = a.toNat - b.toNat := by
  unfold UInt64.satSub
  split
  · next h => exact UInt64.toNat_sub_of_le _ _ h
  · next h =>
    rw [UInt64.le_iff_toNat_le] at h
    rw [show (0 : UInt64).toNat = 0 from rfl]
    omega

/-- `a.saturating_sub(b)`. -/
def UInt32.satSub (a b : UInt32) : UInt32 := if b ≤ a then a - b else 0

theorem UInt32.toNat_satSub (a b : UInt32) : (a.satSub b).toNat = a.toNat - b.toNat := by
  unfold UInt32.satSub
  split
  · next h => exact UInt32.toNat_sub_of_le _ _ h
  · next h =>
    rw [UInt32.le_iff_toNat_le] at h
    rw [show (0 : UInt32).toNat = 0 from rfl]
    omega

/-- `a.saturating_sub(b)`. -/
def UInt16.satSub (a b : UInt16) : UInt16 := if b ≤ a then a - b else 0

theorem UInt16.toNat_satSub (a b : UInt16) : (a.satSub b).toNat = a.toNat - b.toNat := by
  unfold UInt16.satSub
  split
  · next h => exact UInt16.toNat_sub_of_le _ _ h
  · next h =>
    rw [UInt16.le_iff_toNat_le] at h
    rw [show (0 : UInt16).toNat = 0 from rfl]
    omega
