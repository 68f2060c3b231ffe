import Mathlib.Data.List.TakeDrop
import TradingPlatform.Library.FoldHash
import TradingPlatform.Library.StructLayout
import TradingPlatform.Types

set_option autoImplicit false

/- Messages as the journal and the transport see them: a type code and the
object representation of the union member that the code selects. -/
namespace TradingPlatform

open StructLayout

/-- The value of an enumerator. -/
def MsgType.code : MsgType → UInt8
  | .unknown => 0
  | .marketData => 1
  | .signal => 2
  | .newOrder => 3
  | .cancelOrder => 4
  | .ack => 5
  | .fill => 6
  | .reject => 7
  | .heartbeat => 8
  | .riskState => 9

/-- The enumerator a byte stands for, if it stands for one. -/
def MsgType.ofCode (code : UInt8) : Option MsgType :=
  [.unknown, .marketData, .signal, .newOrder, .cancelOrder, .ack, .fill, .reject, .heartbeat,
    .riskState].find? (fun type : MsgType => type.code = code)

namespace Wire

/-! ### Sizes of the message structs -/

def messageHeader : List Member :=
  [scalar 1, scalar 4, scalar 4, scalar 8, scalar 8, scalar 8]

def marketDataUpdate : List Member :=
  [aggregate messageHeader, scalar 4, bytes 16, scalar 8, scalar 8, scalar 8, scalar 8, scalar 8]

def signal : List Member :=
  [aggregate messageHeader, scalar 4, scalar 1, scalar 8, scalar 8, scalar 4]

def newOrder : List Member :=
  [aggregate messageHeader, scalar 8, scalar 4, scalar 1, scalar 8, scalar 8]

def ack : List Member := [aggregate messageHeader, scalar 8, scalar 8, scalar 1]

def reject : List Member := [aggregate messageHeader, scalar 8, scalar 1]

def fill : List Member := [aggregate messageHeader, scalar 8, scalar 8, scalar 8, scalar 8]

def heartbeat : List Member := [aggregate messageHeader, scalar 1, scalar 8]

def riskState : List Member := [aggregate messageHeader, scalar 8, scalar 8, scalar 1]

/-- `payload_size_for_type`, the same table in the journal and the transport. -/
def payloadSizeForType (type : UInt8) : Nat :=
  match MsgType.ofCode type with
  | some .marketData => structSize marketDataUpdate
  | some .signal => structSize signal
  | some .newOrder => structSize newOrder
  | some .ack => structSize ack
  | some .fill => structSize fill
  | some .reject => structSize reject
  | some .heartbeat => structSize heartbeat
  | some .riskState => structSize riskState
  | _ => 0

example : payloadSizeForType MsgType.marketData.code = 104 ∧
    payloadSizeForType MsgType.unknown.code = 0 ∧
    payloadSizeForType MsgType.cancelOrder.code = 0 := by decide

/-- The union member that `payload_ptr` and `mutable_payload_ptr` address; the
null pointer is `none`. -/
def payloadPtr (type : UInt8) : Option MsgType :=
  match MsgType.ofCode type with
  | some .marketData => some .marketData
  | some .signal => some .signal
  | some .newOrder => some .newOrder
  | some .ack => some .ack
  | some .fill => some .fill
  | some .reject => some .reject
  | some .heartbeat => some .heartbeat
  | some .riskState => some .riskState
  | _ => none

/-- The members of the struct that a tag stands for, none where there is none. -/
def layout : MsgType → List Member
  | .marketData => marketDataUpdate
  | .signal => signal
  | .newOrder => newOrder
  | .ack => ack
  | .fill => fill
  | .reject => reject
  | .heartbeat => heartbeat
  | .riskState => riskState
  | .unknown => []
  | .cancelOrder => []

/-- The tag of an envelope and its union. -/
def envelopeLayout : List Member :=
  [scalar 1, overlay [marketDataUpdate, signal, newOrder, ack, reject, fill, heartbeat, riskState]]

/-- The place of the union in an envelope. -/
def unionPlace : Place := (places envelopeLayout).get ⟨1, by decide⟩

example : structSize envelopeLayout = 112 ∧ unionPlace = ⟨8, 104⟩ := by decide

/-- The pointer is null exactly for the types without a size. -/
theorem payloadPtr_eq_none_iff (type : UInt8) :
    payloadPtr type = none ↔ payloadSizeForType type = 0 := by
  unfold payloadPtr payloadSizeForType
  cases MsgType.ofCode type with
  | none => simp
  | some known => cases known <;> decide

/-- No member is larger than the market data update. -/
theorem payloadSizeForType_le (type : UInt8) : payloadSizeForType type ≤ 104 := by
  unfold payloadSizeForType
  cases MsgType.ofCode type with
  | none => simp
  | some known => cases known <;> decide

/-- An envelope with the bytes of its active member. -/
@[ext] structure Envelope where
  type : UInt8
  payload : List UInt8
  sized : payload.length = payloadSizeForType type
  deriving DecidableEq, Repr

/-- A zeroed envelope of some type, its member overwritten from the front. -/
def Envelope.overwrite (type : UInt8) (bytes : List UInt8) : Envelope where
  type := type
  payload := bytes.takeD (payloadSizeForType type) 0
  sized := List.takeD_length _ _ _

/-- As many bytes as the member takes are all kept. -/
theorem Envelope.overwrite_sized (type : UInt8) (bytes : List UInt8)
    (sized : bytes.length = payloadSizeForType type) :
    (Envelope.overwrite type bytes).payload = bytes := by
  change bytes.takeD _ 0 = _
  rw [← sized, List.takeD_eq_take 0 (Nat.le_refl _), List.take_length]

theorem Envelope.overwrite_payload (envelope : Envelope) :
    Envelope.overwrite envelope.type envelope.payload = envelope := by
  ext1
  · rfl
  · exact Envelope.overwrite_sized envelope.type envelope.payload envelope.sized

/-- FNV-1a, written out once per component in the source. -/
def checksum (bytes : List UInt8) : UInt32 :=
  bytes.foldl (fun hash byte => (hash ^^^ byte.toUInt32) * 16777619) 2166136261

/-- The multiplier is odd, so a step of the hash can be undone. -/
theorem checksum_step_undone (mixed : UInt32) : mixed * 16777619 * 899433627 = mixed := by
  have inverse : (16777619 : UInt32) * 899433627 = 1 := by decide
  rw [UInt32.mul_assoc, inverse, UInt32.mul_one]

theorem checksum_step_injective : Function.Injective fun mixed : UInt32 => mixed * 16777619 := by
  have undone : Function.LeftInverse (fun product : UInt32 => product * 899433627)
      (fun mixed => mixed * 16777619) := checksum_step_undone
  exact undone.injective

theorem checksum_separates : FoldHash.Separates
    (fun (hash : UInt32) (byte : UInt8) => (hash ^^^ byte.toUInt32) * 16777619) where
  states := by
    intro byte first second same
    have mixed := checksum_step_injective same
    exact (UInt32.xor_left_inj _).mp mixed
  units := by
    intro hash first second same
    have mixed := checksum_step_injective same
    apply UInt8.toUInt32_inj.mp
    exact (UInt32.xor_right_inj _).mp mixed

/-- One byte replaced by another one changes the checksum. -/
theorem checksum_set (bytes : List UInt8) (position : Nat) (byte : UInt8)
    (changed : bytes.set position byte ≠ bytes) :
    checksum (bytes.set position byte) ≠ checksum bytes :=
  FoldHash.foldl_set checksum_separates _ bytes position byte changed

theorem checksum_once (first second : List UInt8) (apart : FoldHash.DifferOnce first second) :
    checksum first ≠ checksum second :=
  FoldHash.foldl_once checksum_separates _ first second apart

end Wire
end TradingPlatform
