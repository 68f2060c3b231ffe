import TradingPlatform.TcpRoundTrip

set_option autoImplicit false

/- One byte of a frame replaced on its way. The checksum covers the payload only;
in the header each field has a check of its own, or none. -/
namespace TradingPlatform.TcpTransport

open Wire (payloadSizeForType)
open ByteCodec.Codec
open StreamSocket (Kernel recvExact_whole)

/-- A header with one byte replaced: the one field that it falls into. -/
inductive AlteredHeader (header : TcpFrameHeader) (position : Nat) (byte : UInt8) :
    TcpFrameHeader → Prop where
  | magic (value : UInt32) (place : position ≠ 8) (changed : value ≠ header.magic) :
      AlteredHeader header position byte { header with magic := value }
  | version (value : UInt16) (place : position ≠ 8) (changed : value ≠ header.version) :
      AlteredHeader header position byte { header with version := value }
  | headerSize (value : UInt16) (place : position ≠ 8) :
      AlteredHeader header position byte { header with headerSize := value }
  | type (place : position = 8) (changed : byte ≠ header.type) :
      AlteredHeader header position byte { header with type := byte }
  | payloadSize (value : UInt32) (place : position ≠ 8) (changed : value ≠ header.payloadSize) :
      AlteredHeader header position byte { header with payloadSize := value }
  | sequence (value : UInt64) (place : position ≠ 8) :
      AlteredHeader header position byte { header with sequence := value }
  | checksum (value : UInt32) (place : position ≠ 8) (changed : value ≠ header.checksum) :
      AlteredHeader header position byte { header with checksum := value }

theorem alter_header (header : TcpFrameHeader) (position : Nat) (byte : UInt8)
    (inside : position < 25)
    (changed : (headerCodec.encode header).set position byte ≠ headerCodec.encode header) :
    AlteredHeader header position byte (headerCodec.alter header position byte) := by
  have different := headerCodec.alter_ne header position byte changed
  revert different
  obtain place | place | place | place | place | place | place :
      position < 4 ∨ 4 ≤ position ∧ position < 6 ∨ 6 ≤ position ∧ position < 8 ∨ position = 8 ∨
        9 ≤ position ∧ position < 13 ∨ 13 ≤ position ∧ position < 21 ∨ 21 ≤ position := by
    omega
  · have altered : headerCodec.alter header position byte =
        { header with magic := u32.alter header.magic position byte } := by
      rw [headerCodec, transport_alter, pair_alter_left _ _ _ _ _ place]
      rfl
    rw [altered]
    exact fun different => .magic _ (by omega) fun same => different (by rw [same])
  · have altered : headerCodec.alter header position byte =
        { header with version := u16.alter header.version (position - 4) byte } := by
      simp (disch := (simp only [u32_width, u16_width]; omega)) only
        [headerCodec, transport_alter, pair_alter_left, pair_alter_right]
      rfl
    rw [altered]
    exact fun different => .version _ (by omega) fun same => different (by rw [same])
  · have altered : headerCodec.alter header position byte =
        { header with headerSize := u16.alter header.headerSize (position - 4 - 2) byte } := by
      simp (disch := (simp only [u32_width, u16_width]; omega)) only
        [headerCodec, transport_alter, pair_alter_left, pair_alter_right]
      rfl
    rw [altered]
    exact fun _ => .headerSize _ (by omega)
  · subst place
    have altered : headerCodec.alter header 8 byte =
        { header with type := u8.alter header.type 0 byte } := by
      simp (disch := decide) only [headerCodec, transport_alter, pair_alter_left, pair_alter_right]
      rfl
    rw [altered, u8_alter]
    exact fun different => .type rfl fun same => different (by rw [same])
  · have altered : headerCodec.alter header position byte =
        { header with
          payloadSize := u32.alter header.payloadSize (position - 4 - 2 - 2 - 1) byte } := by
      simp (disch := (simp only [u32_width, u16_width, u8_width]; omega)) only
        [headerCodec, transport_alter, pair_alter_left, pair_alter_right]
      rfl
    rw [altered]
    exact fun different => .payloadSize _ (by omega) fun same => different (by rw [same])
  · have altered : headerCodec.alter header position byte =
        { header with
          sequence := u64.alter header.sequence (position - 4 - 2 - 2 - 1 - 4) byte } := by
      simp (disch := (simp only [u64_width, u32_width, u16_width, u8_width]; omega)) only
        [headerCodec, transport_alter, pair_alter_left, pair_alter_right]
      rfl
    rw [altered]
    exact fun _ => .sequence _ (by omega)
  · have altered : headerCodec.alter header position byte =
        { header with
          checksum := u32.alter header.checksum (position - 4 - 2 - 2 - 1 - 4 - 8) byte } := by
      simp (disch := (simp only [u64_width, u32_width, u16_width, u8_width]; omega)) only
        [headerCodec, transport_alter, pair_alter_right]
      rfl
    rw [altered]
    exact fun different => .checksum _ (by omega) fun same => different (by rw [same])

/-! ### What is received -/

section Receiving

variable (kernel : Kernel) (receives : kernel.Receives) (call : SendCall)
variable (header : TcpFrameHeader) (rest : List UInt8) (calls : Nat)
include receives

/-- What an acceptable header makes of the payload of a call. -/
theorem recvPayload_payload (acceptable : header.Acceptable)
    (size : header.payloadSize.toNat = call.envelope.payload.length) :
    (recvPayload kernel header { bytes := call.envelope.payload ++ rest, calls := calls }).1 =
      if Wire.checksum (Wire.Envelope.overwrite header.type call.envelope.payload).payload =
          header.checksum then
        some (Wire.Envelope.overwrite header.type call.envelope.payload)
      else none := by
  obtain ⟨after, payload⟩ := recvExact_whole kernel receives call.envelope.payload.length
    { bytes := call.envelope.payload ++ rest, calls := calls }
    (by rw [List.length_append]; omega)
  rw [List.take_left, List.drop_left] at payload
  rw [recvPayload_acceptable kernel header _ acceptable, size, payload]
  dsimp only
  by_cases same : Wire.checksum
      (Wire.Envelope.overwrite header.type call.envelope.payload).payload = header.checksum
  · rw [if_neg (not_not.mpr same), if_pos same]
  · rw [if_pos same, if_neg same]

/-- A header that differs in unchecked fields only delivers the envelope. -/
theorem recvPayload_unchecked (acceptable : header.Acceptable)
    (size : header.payloadSize.toNat = call.envelope.payload.length)
    (type : header.type = call.envelope.type)
    (checksum : header.checksum = Wire.checksum call.envelope.payload) :
    (recvPayload kernel header { bytes := call.envelope.payload ++ rest, calls := calls }).1 =
      some call.envelope := by
  rw [recvPayload_payload kernel receives call header rest calls acceptable size, type, checksum,
    Wire.Envelope.overwrite_payload, if_pos rfl]

/-- Only the fields that no check looks at, and a type of the same size, let an
altered header through. -/
theorem recvPayload_altered (supported : call.Supported) (position : Nat) (byte : UInt8)
    (altered : AlteredHeader (headerFor call.envelope call.sequence) position byte header)
    (result : Option Wire.Envelope)
    (received : result = (recvPayload kernel header
      { bytes := call.envelope.payload ++ rest, calls := calls }).1) :
    (result = some call.envelope ∨ result = none) ↔
      ¬ (position = 8 ∧ payloadSizeForType byte = payloadSizeForType call.envelope.type) := by
  obtain ⟨magic, version, nonzero, sized⟩ := headerFor_acceptable call supported
  have length := headerFor_payloadSize call.envelope call.sequence
  cases altered with
  | magic value place changed =>
      rw [recvPayload_unacceptable] at received
      · simp [received, place]
      · intro acceptable
        exact changed (acceptable.1.trans magic.symm)
  | version value place changed =>
      rw [recvPayload_unacceptable] at received
      · simp [received, place]
      · intro acceptable
        exact changed (acceptable.2.1.trans version.symm)
  | headerSize value place =>
      rw [recvPayload_unchecked kernel receives call
        { headerFor call.envelope call.sequence with headerSize := value } rest calls
        ⟨magic, version, nonzero, sized⟩ length rfl rfl] at received
      simp [received, place]
  | type place changed =>
      by_cases size : payloadSizeForType byte = payloadSizeForType call.envelope.type
      · have acceptable : { headerFor call.envelope call.sequence with type := byte }.Acceptable :=
          ⟨magic, version, fun zero => nonzero (size.symm.trans zero), size.trans sized⟩
        have kept : (Wire.Envelope.overwrite byte call.envelope.payload).payload =
            call.envelope.payload :=
          Wire.Envelope.overwrite_sized byte _ (call.envelope.sized.trans size.symm)
        have other : Wire.Envelope.overwrite byte call.envelope.payload ≠ call.envelope :=
          fun same => changed (congrArg Wire.Envelope.type same)
        rw [recvPayload_payload kernel receives call _ rest calls acceptable length] at received
        simp [received, kept, place, size, other]
      · rw [recvPayload_unacceptable] at received
        · simp [received, size]
        · intro acceptable
          exact size (acceptable.2.2.2.trans sized.symm)
  | payloadSize value place changed =>
      rw [recvPayload_unacceptable] at received
      · simp [received, place]
      · intro acceptable
        exact changed (UInt32.toNat_inj.mp (acceptable.2.2.2.symm.trans sized))
  | sequence value place =>
      rw [recvPayload_unchecked kernel receives call
        { headerFor call.envelope call.sequence with sequence := value } rest calls
        ⟨magic, version, nonzero, sized⟩ length rfl rfl] at received
      simp [received, place]
  | checksum value place changed =>
      have acceptable : { headerFor call.envelope call.sequence with checksum := value }.Acceptable :=
        ⟨magic, version, nonzero, sized⟩
      rw [recvPayload_payload kernel receives call _ rest calls acceptable length,
        if_neg] at received
      · simp [received, place]
      · rw [headerFor_type, Wire.Envelope.overwrite_payload]
        exact fun same => changed same.symm

end Receiving

/-- A replaced payload byte is caught by the checksum. -/
theorem recvPayload_corrupt (kernel : Kernel) (receives : kernel.Receives) (call : SendCall)
    (supported : call.Supported) (position : Nat) (byte : UInt8)
    (changed : call.envelope.payload.set position byte ≠ call.envelope.payload)
    (rest : List UInt8) (calls : Nat) :
    (recvPayload kernel (headerFor call.envelope call.sequence)
      { bytes := call.envelope.payload.set position byte ++ rest, calls := calls }).1 = none := by
  have length : (call.envelope.payload.set position byte).length = call.envelope.payload.length :=
    List.length_set
  obtain ⟨after, payload⟩ := recvExact_whole kernel receives call.envelope.payload.length
    { bytes := call.envelope.payload.set position byte ++ rest, calls := calls }
    (by rw [List.length_append]; omega)
  rw [List.take_left' length, List.drop_left' length] at payload
  have kept : (Wire.Envelope.overwrite call.envelope.type
      (call.envelope.payload.set position byte)).payload =
        call.envelope.payload.set position byte :=
    Wire.Envelope.overwrite_sized _ _ (length.trans call.envelope.sized)
  rw [recvPayload_headerFor kernel call supported, payload]
  dsimp only
  rw [kept, if_pos (Wire.checksum_set _ position byte changed)]

/-- A frame with one byte replaced is received as the envelope that was sent, or
not at all, unless the byte is the type and the new one names a type of the same
size. -/
theorem altered_frame_iff (kernel : Kernel) (receives : kernel.Receives)
    (connection : TcpConnection) (valid : connection.valid) (call : SendCall)
    (supported : call.Supported) (position : Nat) (byte : UInt8)
    (changed : call.frame.set position byte ≠ call.frame) (rest : List UInt8)
    (incoming : connection.incoming.bytes = call.frame.set position byte ++ rest) :
    ((connection.recvEnvelope kernel).1 = some call.envelope ∨
        (connection.recvEnvelope kernel).1 = none) ↔
      ¬ (position = 8 ∧ payloadSizeForType byte = payloadSizeForType call.envelope.type) := by
  have width := headerCodec.encode_length (headerFor call.envelope call.sequence)
  rw [headerCodec_width] at width
  unfold SendCall.frame at changed incoming
  by_cases inside : position < 25
  · rw [List.set_append_left _ _ (by omega)] at changed incoming
    rw [List.append_assoc, ← encode_alter] at incoming
    obtain ⟨calls, received⟩ := recvEnvelope_header kernel receives connection valid _ _ incoming
    have altered := alter_header (headerFor call.envelope call.sequence) position byte inside
      fun same => changed (by rw [same])
    rw [received]
    exact recvPayload_altered kernel receives call _ rest calls supported position byte altered _
      rfl
  · rw [List.set_append_right _ _ (by omega)] at changed incoming
    rw [List.append_assoc] at incoming
    obtain ⟨calls, received⟩ := recvEnvelope_header kernel receives connection valid _ _ incoming
    have place : position ≠ 8 := by omega
    rw [received, recvPayload_corrupt kernel receives call supported _ byte
      fun same => changed (by rw [same])]
    simp [place]

/-- A signal with 72 bytes of payload. -/
def sentSignal : SendCall := ⟨Wire.Envelope.overwrite MsgType.signal.code [2], 7⟩

/-- The first byte of the payload replaced. -/
theorem altered_frame_payload :
    (TcpConnection.recvEnvelope trickle
        { fd := 4, incoming := { bytes := sentSignal.frame.set 25 3 } }).1 =
      some sentSignal.envelope ∨
    (TcpConnection.recvEnvelope trickle
        { fd := 4, incoming := { bytes := sentSignal.frame.set 25 3 } }).1 = none := by
  have receives : trickle.Receives := by
    intro call length available positive
    simp only [trickle]
    omega
  exact (altered_frame_iff trickle receives
    { fd := 4, incoming := { bytes := sentSignal.frame.set 25 3 } } (by decide) sentSignal
    (by decide) 25 3 (by decide +kernel) [] (List.append_nil _).symm).mpr (by decide)

/-- The type byte replaced: the signal is received as an order. -/
theorem signal_received_as_order :
    let received := (TcpConnection.recvEnvelope trickle
      { fd := 4, incoming := { bytes := sentSignal.frame.set 8 MsgType.newOrder.code } }).1
    ¬ (received = some sentSignal.envelope ∨ received = none) ∧
      received =
        some (Wire.Envelope.overwrite MsgType.newOrder.code sentSignal.envelope.payload) := by
  decide +kernel

end TradingPlatform.TcpTransport
