import TradingPlatform.Library.ByteCodec
import TradingPlatform.Library.StreamSocket
import TradingPlatform.Wire

set_option autoImplicit false

/- Envelopes over a byte stream: each travels as one frame, a packed header and
the payload of its type. -/
namespace TradingPlatform.TcpTransport

open Wire (payloadSizeForType payloadPtr)
open StreamSocket (Kernel Pipe sendExact recvExact)

/-- "LLT1". -/
def tcpMagic : UInt32 := 0x4C4C5431
def tcpVersion : UInt16 := 1
def tcpMaxPayloadSize : Nat := 4096

/-- The packed header, 25 bytes on the wire. -/
structure TcpFrameHeader where
  magic : UInt32 := tcpMagic
  version : UInt16 := tcpVersion
  headerSize : UInt16 := 25
  type : UInt8 := MsgType.unknown.code
  payloadSize : UInt32 := 0
  sequence : UInt64 := 0
  checksum : UInt32 := 0
  deriving DecidableEq, Repr

def TcpFrameHeader.fields : UInt32 × UInt16 × UInt16 × UInt8 × UInt32 × UInt64 × UInt32 ≃
    TcpFrameHeader where
  toFun := fun ⟨magic, version, headerSize, type, payloadSize, sequence, checksum⟩ =>
    ⟨magic, version, headerSize, type, payloadSize, sequence, checksum⟩
  invFun := fun header => ⟨header.magic, header.version, header.headerSize, header.type,
    header.payloadSize, header.sequence, header.checksum⟩
  left_inv := fun _ => rfl
  right_inv := fun _ => rfl

open ByteCodec.Codec in
def headerCodec : ByteCodec.Codec TcpFrameHeader :=
  (pair u32 <| pair u16 <| pair u16 <| pair u8 <| pair u32 <| pair u64 u32).transport
    TcpFrameHeader.fields

@[simp] theorem headerCodec_width : headerCodec.width = 25 := rfl

/-- The header in front of an envelope. -/
def headerFor (envelope : Wire.Envelope) (sequence : UInt64) : TcpFrameHeader where
  type := envelope.type
  payloadSize := UInt32.ofNat (payloadSizeForType envelope.type)
  sequence := sequence
  checksum := Wire.checksum envelope.payload

/-- One end of a connection. A negative descriptor stands for no connection. -/
structure TcpConnection where
  fd : Int := -1
  outgoing : Pipe UInt8 := {}
  incoming : Pipe UInt8 := {}
  deriving DecidableEq, Repr

def TcpConnection.valid (connection : TcpConnection) : Bool := 0 ≤ connection.fd

def TcpConnection.sendEnvelope (kernel : Kernel) (connection : TcpConnection)
    (envelope : Wire.Envelope) (sequence : UInt64) : Bool × TcpConnection :=
  if !connection.valid then (false, connection)
  else if payloadPtr envelope.type = none ∨ payloadSizeForType envelope.type = 0 then
    (false, connection)
  else
    let (sent, outgoing) := sendExact kernel (headerCodec.encode (headerFor envelope sequence))
      connection.outgoing
    if !sent then (false, { connection with outgoing := outgoing })
    else
      let (sent, outgoing) := sendExact kernel envelope.payload outgoing
      (sent, { connection with outgoing := outgoing })

/-- The part of `recv_envelope` behind a complete header. The header's own size
field is not looked at. -/
def recvPayload (kernel : Kernel) (header : TcpFrameHeader) (incoming : Pipe UInt8) :
    Option Wire.Envelope × Pipe UInt8 :=
  if header.magic ≠ tcpMagic ∨ header.version ≠ tcpVersion then (none, incoming)
  else if tcpMaxPayloadSize < header.payloadSize.toNat then (none, incoming)
  else
    let expectedSize := payloadSizeForType header.type
    if expectedSize = 0 ∨ expectedSize ≠ header.payloadSize.toNat then (none, incoming)
    else if payloadPtr header.type = none then (none, incoming)
    else
      match recvExact kernel header.payloadSize.toNat incoming with
      | (none, incoming) => (none, incoming)
      | (some payload, incoming) =>
          let envelope := Wire.Envelope.overwrite header.type payload
          if Wire.checksum envelope.payload ≠ header.checksum then (none, incoming)
          else (some envelope, incoming)

def TcpConnection.recvEnvelope (kernel : Kernel) (connection : TcpConnection) :
    Option Wire.Envelope × TcpConnection :=
  if !connection.valid then (none, connection)
  else
    match recvExact kernel headerCodec.width connection.incoming with
    | (none, incoming) => (none, { connection with incoming := incoming })
    | (some headerBytes, incoming) =>
        let (envelope, incoming) :=
          recvPayload kernel (headerCodec.decode headerBytes) incoming
        (envelope, { connection with incoming := incoming })

end TradingPlatform.TcpTransport
