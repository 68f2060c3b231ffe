import TradingPlatform.Library.ByteCodec
import TradingPlatform.Library.Framing
import TradingPlatform.Library.InputStream
import TradingPlatform.Wire

set_option autoImplicit false

/- The journal at the level of bytes: records are appended to a file and read
back until the first one that is incomplete or corrupt. -/
namespace TradingPlatform

open Wire (payloadSizeForType payloadPtr)

inductive JournalRecordType where
  | unknown
  | orderIntent
  | gatewayAck
  | gatewayReject
  | fill
  | runtimeMarker
  deriving DecidableEq, Repr, Inhabited

def JournalRecordType.code : JournalRecordType → UInt8
  | .unknown => 0
  | .orderIntent => 1
  | .gatewayAck => 2
  | .gatewayReject => 3
  | .fill => 4
  | .runtimeMarker => 5

namespace Journal

/-- "JNL1". -/
def journalMagic : UInt32 := 0x4A4E4C31
def journalVersion : UInt16 := 1

/-- The packed header, 34 bytes on disk. -/
structure JournalRecordHeader where
  magic : UInt32 := journalMagic
  version : UInt16 := journalVersion
  headerSize : UInt16 := 34
  recordType : UInt8 := JournalRecordType.unknown.code
  messageType : UInt8 := MsgType.unknown.code
  sequence : UInt64 := 0
  tsNs : UInt64 := 0
  payloadSize : UInt32 := 0
  checksum : UInt32 := 0
  deriving DecidableEq, Repr

def JournalRecordHeader.fields : UInt32 × UInt16 × UInt16 × UInt8 × UInt8 × UInt64 × UInt64 ×
    UInt32 × UInt32 ≃ JournalRecordHeader where
  toFun := fun ⟨magic, version, headerSize, recordType, messageType, sequence, tsNs, payloadSize,
    checksum⟩ => ⟨magic, version, headerSize, recordType, messageType, sequence, tsNs,
    payloadSize, checksum⟩
  invFun := fun header => ⟨header.magic, header.version, header.headerSize, header.recordType,
    header.messageType, header.sequence, header.tsNs, header.payloadSize, header.checksum⟩
  left_inv := fun _ => rfl
  right_inv := fun _ => rfl

open ByteCodec.Codec in
def headerCodec : ByteCodec.Codec JournalRecordHeader :=
  (pair u32 <| pair u16 <| pair u16 <| pair u8 <| pair u8 <| pair u64 <| pair u64 <|
    pair u32 u32).transport JournalRecordHeader.fields

@[simp] theorem headerCodec_width : headerCodec.width = 34 := rfl

structure JournalRecord where
  header : JournalRecordHeader := {}
  envelope : Wire.Envelope
  deriving DecidableEq, Repr

/-- The bytes of a record on disk. -/
def JournalRecord.image (record : JournalRecord) : List UInt8 :=
  headerCodec.encode record.header ++ record.envelope.payload

/-! ### The writer -/

structure JournalWriter where
  file : List UInt8 := []
  opened : Bool := false
  deriving DecidableEq, Repr

/-- The file is opened in append mode: what it holds stays. -/
def JournalWriter.open (writer : JournalWriter) : JournalWriter :=
  { writer with opened := true }

/-- The arguments of one `append`, with the clock reading it takes. -/
structure AppendCall where
  recordType : UInt8
  envelope : Wire.Envelope
  sequence : UInt64
  tsNs : UInt64
  deriving DecidableEq, Repr

/-- The record an append puts into the file. -/
def AppendCall.record (call : AppendCall) : JournalRecord where
  header := {
    recordType := call.recordType
    messageType := call.envelope.type
    sequence := call.sequence
    tsNs := call.tsNs
    payloadSize := UInt32.ofNat (payloadSizeForType call.envelope.type)
    checksum := Wire.checksum call.envelope.payload }
  envelope := call.envelope

/-- `append` on a stream whose writes succeed. -/
def JournalWriter.append (writer : JournalWriter) (call : AppendCall) : JournalWriter × Bool :=
  let writer := writer.open
  if payloadPtr call.envelope.type = none ∨ payloadSizeForType call.envelope.type = 0 then
    (writer, false)
  else ({ writer with file := writer.file ++ call.record.image }, true)

/-! ### The reader -/

/-- The pass behind a complete header: checks, payload, checksum. -/
def readPayload (header : JournalRecordHeader) (stream : InputStream UInt8) :
    Option (JournalRecord × InputStream UInt8) :=
  if header.magic ≠ journalMagic ∨ header.version ≠ journalVersion ∨
      header.headerSize ≠ UInt16.ofNat headerCodec.width then none
  else
    let expectedSize := payloadSizeForType header.messageType
    if expectedSize = 0 ∨ expectedSize ≠ header.payloadSize.toNat then none
    else if payloadPtr header.messageType = none then none
    else
      let (payload, stream) := stream.read header.payloadSize.toNat
      if !stream.good then none
      else
        let envelope := Wire.Envelope.overwrite header.messageType payload
        if Wire.checksum envelope.payload ≠ header.checksum then none
        else some (⟨header, envelope⟩, stream)

/-- One pass of the loop in `read_all`; `none` is a `break`. -/
def readRecord (stream : InputStream UInt8) : Option (JournalRecord × InputStream UInt8) :=
  let (headerBytes, stream) := stream.read headerCodec.width
  -- an incomplete header also raises the end-of-file bit, which is looked at first
  if stream.eof then none
  else if !stream.good then none
  else readPayload (headerCodec.decode headerBytes) stream

/-- `read_all`. Every pass consumes a header, so the loop ends within the fuel.
A file that does not exist reads like an empty one. -/
def readAll (file : List UInt8) : List JournalRecord :=
  Framing.parse readRecord (file.length + 1) { rest := file }

end Journal
end TradingPlatform
