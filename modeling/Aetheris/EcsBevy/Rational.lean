import Aetheris.EcsBevy.Registry
import Mathlib.Data.Rat.Floor

/-!
# An executable instance

Theorems about the engine hold for every `F` with the operations of `f32`. To evaluate the model on
a concrete input this module fixes one: exact rationals, with an integer square root and with a
heading that always points along the first axis. It makes no claim to round like `f32`.

`rationalPlatform` comes with it: a codec of a few bytes for the components that concrete inputs
use, and hash maps visited in insertion order.
-/

namespace Aetheris

instance : F32 ℚ where
  decLt := fun a b => inferInstanceAs (Decidable (a < b))
  neg := fun x => -x
  ofU16 := fun n => (n.toNat : ℚ)
  ofU64 := fun n => (n.toNat : ℚ)
  roundU16 := fun x => UInt16.ofNat (min 65535 ⌊x + 1 / 2⌋.toNat)
  sqrt := fun x => (Nat.sqrt (x.num.toNat * x.den) : ℚ) / (x.den : ℚ)
  abs := fun x => if x < 0 then -x else x
  signum := fun x => if x < 0 then -1 else 1
  sin := fun _ => 0
  cos := fun _ => 1
  toRadians := fun x => x * (355 / 113) / 180
  atan2 := fun _ _ => 0
  max := fun x y => if x < y then y else x
  remEuclid := fun x y => x - y * (⌊x / y⌋ : ℚ)
  pi := 355 / 113
  tau := 710 / 113
  epsilon := 1 / 8388608

/-- Two bytes for a position or a data store, nothing else decodes. -/
def rationalDecode : (k : Comp) → Bytes → Option (CompVal ℚ k)
  | .transform, [x, y] => some ⟨x.toNat, y.toNat, 0, 0, 0⟩
  | .dataStore, [n, c] => some ⟨n.toUInt16, c.toUInt16⟩
  | _, _ => none

/-- One byte for an input command: its tick in hundreds. -/
def rationalDecodeInput : Bytes → Option (InputCommand ℚ)
  | [hundreds] => some ⟨hundreds.toUInt64 * 100, [], 0, none⟩
  | _ => none

def rationalPlatform : Platform ℚ where
  decode := rationalDecode
  encode := fun _ _ => some []
  decodeInput := rationalDecodeInput
  validateInput := fun _ => true
  actionUseTool := 1
  draw := fun _ _ lo _ => lo
  headingFuel := 4
  bimapOrder := id
  bimapOrder_perm := fun l => List.Perm.refl l

end Aetheris
