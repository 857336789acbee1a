import Aetheris.Protocol.Types

/-!
# Protocol traits

The engine talks to its codec, its fragment reassembler and its world through trait objects. Each
trait is a record of functions here, so the tick pipeline is written once over any implementation.
-/

namespace Aetheris

inductive EncodeError where
  | bufferOverflow
  | io
  | other
deriving DecidableEq, Repr

inductive TransportError where
  | io
  | other
deriving DecidableEq, Repr

inductive WorldError where
  | entityNotFound (networkId : NetworkId)
deriving DecidableEq, Repr

structure Encoder (F : Type) where
  decodeEvent : Bytes → Except EncodeError (NetworkEvent F)
  decode : Bytes → Except EncodeError ComponentUpdate
  encodeEvent : NetworkEvent F → Except EncodeError Bytes
  /-- Encodes into a buffer of the given length. -/
  encodeEventInto : NetworkEvent F → Nat → Except EncodeError Bytes
  maxEncodedSize : Nat

/-- The fragment reassembler, over its own state `R`. -/
structure Reassembler (R : Type) where
  ingest : R → ClientId → FragmentedEvent → R × Option Bytes
  prune : R → R

/-- What the tick pipeline asks of a world `W`. -/
structure WorldState (W F : Type) where
  advanceTick : W → W
  stressTest : W → UInt16 → Bool → W
  despawnNetworked : W → NetworkId → W × Except WorldError Unit
  spawnKindFor : W → UInt16 → F → F → F → ClientId → W × NetworkId
  spawnSessionAgent : W → UInt16 → F → F → F → ClientId → W × NetworkId
  queueReliableEvent : W → Option ClientId → PlatformEvent → W
  clearWorld : W → W
  applyUpdates : W → List (ClientId × ComponentUpdate) → W
  simulate : W → W
  extractDeltas : W → W × List ReplicationEvent
  extractReliableEvents : W → W × List (Option ClientId × WireEvent)
  postExtract : W → W
  getEntityWorkspace : W → NetworkId → Option NetworkId
  getClientWorkspace : W → ClientId → Option NetworkId

end Aetheris
