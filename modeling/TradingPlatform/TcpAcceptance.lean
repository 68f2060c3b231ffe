import TradingPlatform.TcpRoundTrip

set_option autoImplicit false

/- What the receiver accepts: arbitrary bytes, compared with what the sender would
have written. -/
namespace TradingPlatform.TcpTransport

open Wire (payloadSizeForType)
open StreamSocket (Kernel Pipe recvExact recvExact_some)

/-- A received envelope is the payload behind an acceptable header whose checksum
it has. -/
theorem recvPayload_some (kernel : Kernel) (header : TcpFrameHeader) (pipe left : Pipe UInt8)
    (envelope : Wire.Envelope)
    (received : recvPayload kernel header pipe = (some envelope, left)) :
    header.Acceptable ∧ envelope.type = header.type ∧
      header.checksum = Wire.checksum envelope.payload ∧
      pipe.bytes = envelope.payload ++ left.bytes := by
  have acceptable : header.Acceptable := by
    by_contra unacceptable
    rw [recvPayload_unacceptable kernel header pipe unacceptable] at received
    cases received
  refine ⟨acceptable, ?_⟩
  rw [recvPayload_acceptable kernel header pipe acceptable] at received
  cases taken : recvExact kernel header.payloadSize.toNat pipe with
  | mk payload rest =>
      rw [taken] at received
      cases payload with
      | none => cases received
      | some payload =>
          obtain ⟨stream, length⟩ := recvExact_some kernel _ payload pipe rest taken
          have whole : (Wire.Envelope.overwrite header.type payload).payload = payload := by
            apply Wire.Envelope.overwrite_sized
            rw [length, acceptable.2.2.2]
          dsimp only at received
          split at received
          · cases received
          · rename_i matching
            obtain ⟨same, rfl⟩ := Prod.mk.inj received
            rw [← Option.some.inj same, whole]
            rw [whole] at matching
            exact ⟨rfl, (not_not.mp matching).symm, stream⟩

/-- A received envelope is behind the header that the stream begins with. -/
theorem recvEnvelope_some (kernel : Kernel) (connection next : TcpConnection)
    (envelope : Wire.Envelope)
    (received : connection.recvEnvelope kernel = (some envelope, next)) :
    ∃ header : TcpFrameHeader,
      header = headerCodec.decode (connection.incoming.bytes.take 25) ∧
      connection.incoming.bytes =
        headerCodec.encode header ++ (envelope.payload ++ next.incoming.bytes) ∧
      header.Acceptable ∧ envelope.type = header.type ∧
      header.checksum = Wire.checksum envelope.payload := by
  unfold TcpConnection.recvEnvelope at received
  split at received
  · cases received
  · cases taken : recvExact kernel headerCodec.width connection.incoming with
    | mk bytes rest =>
        rw [taken] at received
        cases bytes with
        | none => cases received
        | some bytes =>
            obtain ⟨stream, length⟩ := recvExact_some kernel _ bytes _ rest taken
            dsimp only at received
            obtain ⟨same, rfl⟩ := Prod.mk.inj received
            obtain ⟨acceptable, type, checksum, behind⟩ :=
              recvPayload_some kernel _ rest _ envelope (Prod.ext same rfl)
            refine ⟨headerCodec.decode bytes, ?_, ?_, acceptable, type, checksum⟩
            · rw [headerCodec_width] at length
              rw [stream, List.take_left' length]
            · rw [headerCodec.encode_decode bytes length, ← behind, stream]

/-- The only field of an accepted header that the sender need not have written. -/
theorem header_eq_headerFor_iff (header : TcpFrameHeader) (envelope : Wire.Envelope)
    (acceptable : header.Acceptable) (type : envelope.type = header.type)
    (checksum : header.checksum = Wire.checksum envelope.payload) :
    header = headerFor envelope header.sequence ↔ header.headerSize = 25 := by
  constructor
  · intro same
    rw [same]
    rfl
  · intro size
    obtain ⟨magic, version, -, sized⟩ := acceptable
    have payload : header.payloadSize = UInt32.ofNat (payloadSizeForType envelope.type) := by
      rw [type, sized, UInt32.ofNat_toNat]
    cases header
    simp only at magic version size type checksum payload
    rw [headerFor, magic, version, size, checksum, payload, ← type]

/-- The bytes a received envelope took from the stream are those that sending it
with the sequence number they hold would write, if and only if they hold the
header size of the sender. -/
theorem recvEnvelope_sent_iff (sending receiving : Kernel) (sends : sending.Sends)
    (sender connection next : TcpConnection) (valid : sender.valid) (envelope : Wire.Envelope)
    (received : connection.recvEnvelope receiving = (some envelope, next)) :
    let header := headerCodec.decode (connection.incoming.bytes.take 25)
    (∃ consumed calls, connection.incoming.bytes = consumed ++ next.incoming.bytes ∧
      sender.sendEnvelope sending envelope header.sequence = (true, { sender with
        outgoing := { bytes := sender.outgoing.bytes ++ consumed, calls := calls } })) ↔
      header.headerSize = 25 := by
  intro header
  obtain ⟨found, rfl, stream, acceptable, type, checksum⟩ :=
    recvEnvelope_some receiving connection next envelope received
  have supported : (SendCall.mk envelope header.sequence).Supported := by
    show payloadSizeForType envelope.type ≠ 0
    rw [type]
    exact acceptable.2.2.1
  obtain ⟨calls, sent⟩ := sendEnvelope_supported sending sends sender valid
    ⟨envelope, header.sequence⟩ supported
  rw [← header_eq_headerFor_iff header envelope acceptable type checksum]
  constructor
  · rintro ⟨consumed, made, split, written⟩
    have bytes := congrArg (fun result => result.2.outgoing.bytes) (sent.symm.trans written)
    have frame := List.append_cancel_left bytes
    rw [← frame, stream, SendCall.frame, List.append_assoc] at split
    apply headerCodec.encode_injective
    apply (List.append_inj split _).1
    rw [headerCodec.encode_length, headerCodec.encode_length]
  · intro same
    refine ⟨SendCall.frame ⟨envelope, header.sequence⟩, calls, ?_, sent⟩
    rw [stream, SendCall.frame, List.append_assoc, ← same]

theorem trickle_sends : trickle.Sends := fun _ _ _ => Int.one_pos

def beat : SendCall := ⟨Wire.Envelope.overwrite MsgType.heartbeat.code [8], 7⟩

/-- The receiver of a stream that begins with some bytes. -/
def receiverOf (bytes : List UInt8) : TcpConnection := { fd := 4, incoming := { bytes := bytes } }

/-- The same frame with zero for the size of its header. -/
def sizelessBeat : List UInt8 := (beat.frame.set 6 0).set 7 0

theorem sizelessBeat_received :
    ((receiverOf sizelessBeat).recvEnvelope trickle).1 = some beat.envelope ∧
      ((receiverOf sizelessBeat).recvEnvelope trickle).2.incoming.bytes = [] ∧
      (headerCodec.decode (sizelessBeat.take 25)).sequence = 7 := by
  decide +kernel

theorem beat_ne_sizelessBeat : beat.frame ≠ sizelessBeat := by decide +kernel

/-- The frame as the sender writes it, with a byte of the next one behind it. -/
theorem beat_received :
    ((receiverOf (beat.frame ++ [70])).recvEnvelope trickle).1 = some beat.envelope ∧
      (headerCodec.decode ((beat.frame ++ [70]).take 25)).headerSize = 25 := by
  decide +kernel

/-- What a receiver of the bytes takes from them is what sending the envelope writes. -/
def SentAsReceived (bytes : List UInt8) : Prop :=
  ∃ consumed calls, (receiverOf bytes).incoming.bytes =
      consumed ++ ((receiverOf bytes).recvEnvelope trickle).2.incoming.bytes ∧
    ({ fd := 3 } : TcpConnection).sendEnvelope trickle beat.envelope
        (headerCodec.decode ((receiverOf bytes).incoming.bytes.take 25)).sequence =
      (true, { fd := 3, outgoing := { bytes := [] ++ consumed, calls := calls } })

theorem recvEnvelope_sent_twoBeats :
    SentAsReceived (beat.frame ++ [70]) ∧ ¬ SentAsReceived sizelessBeat := by
  have whole := recvEnvelope_sent_iff trickle trickle trickle_sends { fd := 3 }
    (receiverOf (beat.frame ++ [70]))
    ((receiverOf (beat.frame ++ [70])).recvEnvelope trickle).2 (by decide)
    beat.envelope (by rw [← beat_received.1])
  have sizeless := recvEnvelope_sent_iff trickle trickle trickle_sends { fd := 3 }
    (receiverOf sizelessBeat) ((receiverOf sizelessBeat).recvEnvelope trickle).2 (by decide)
    beat.envelope (by rw [← sizelessBeat_received.1])
  have size : (headerCodec.decode ((receiverOf sizelessBeat).incoming.bytes.take 25)).headerSize ≠
      25 := by decide +kernel
  exact ⟨whole.mpr beat_received.2, fun written => size (sizeless.mp written)⟩

/-- A frame whose header gives its own size as zero is accepted all the same. -/
theorem sizeless_frame_accepted :
    ¬ ∀ (sending receiving : Kernel), sending.Sends →
      ∀ sender connection next : TcpConnection, sender.valid → ∀ envelope : Wire.Envelope,
        connection.recvEnvelope receiving = (some envelope, next) →
        ∃ consumed calls, connection.incoming.bytes = consumed ++ next.incoming.bytes ∧
          sender.sendEnvelope sending envelope
              (headerCodec.decode (connection.incoming.bytes.take 25)).sequence =
            (true, { sender with
              outgoing := { bytes := sender.outgoing.bytes ++ consumed, calls := calls } }) := by
  intro produced
  obtain ⟨received, nothing, sequence⟩ := sizelessBeat_received
  obtain ⟨consumed, calls, split, written⟩ := produced trickle trickle trickle_sends { fd := 3 }
    (receiverOf sizelessBeat) ((receiverOf sizelessBeat).recvEnvelope trickle).2 (by decide)
    beat.envelope (by rw [← received])
  obtain ⟨made, sent⟩ := sendEnvelope_supported trickle trickle_sends { fd := 3 } (by decide) beat
    (by decide)
  rw [nothing, List.append_nil] at split
  have number : (headerCodec.decode ((receiverOf sizelessBeat).incoming.bytes.take 25)).sequence =
      beat.sequence := sequence
  rw [number] at written
  have frame := congrArg (fun result => result.2.outgoing.bytes) (sent.symm.trans written)
  exact beat_ne_sizelessBeat (frame.trans split.symm)

end TradingPlatform.TcpTransport
