import TradingPlatform.Library.Framing
import TradingPlatform.WireImage

set_option autoImplicit false

/- Replay files at the level of bytes: a packed header and a whole envelope per
record, read back until the first record that is incomplete or corrupt. -/
namespace TradingPlatform.Replay

/-- "RPL1". -/
def replayMagic : UInt32 := 0x52504C31
def replayVersion : UInt16 := 2

/-- The size of an envelope in memory, and on disk. -/
def envelopeSize : Nat := 112

/-- The packed header, 34 bytes on disk. -/
structure ReplayRecordHeader where
  magic : UInt32 := replayMagic
  version : UInt16 := replayVersion
  headerSize : UInt16 := 34
  nodeRole : UInt8 := NodeRole.simulator.code
  sequence : UInt64 := 0
  timestampNs : UInt64 := 0
  messageType : UInt8 := MsgType.unknown.code
  payloadSize : UInt32 := UInt32.ofNat envelopeSize
  checksum : UInt32 := 0
  deriving DecidableEq, Repr

def ReplayRecordHeader.fields : UInt32 × UInt16 × UInt16 × UInt8 × UInt64 × UInt64 × UInt8 ×
    UInt32 × UInt32 ≃ ReplayRecordHeader where
  toFun := fun ⟨magic, version, headerSize, nodeRole, sequence, timestampNs, messageType,
    payloadSize, checksum⟩ => ⟨magic, version, headerSize, nodeRole, sequence, timestampNs,
    messageType, payloadSize, checksum⟩
  invFun := fun header => ⟨header.magic, header.version, header.headerSize, header.nodeRole,
    header.sequence, header.timestampNs, header.messageType, header.payloadSize, header.checksum⟩
  left_inv := fun _ => rfl
  right_inv := fun _ => rfl

open ByteCodec.Codec in
def headerCodec : ByteCodec.Codec ReplayRecordHeader :=
  (pair u32 <| pair u16 <| pair u16 <| pair u8 <| pair u64 <| pair u64 <| pair u8 <|
    pair u32 u32).transport ReplayRecordHeader.fields

@[simp] theorem headerCodec_width : headerCodec.width = 34 := rfl

/-- A record with the bytes of its envelope. -/
structure RawEvent where
  header : ReplayRecordHeader := {}
  envelope : List UInt8
  sized : envelope.length = envelopeSize
  deriving DecidableEq, Repr

def RawEvent.image (event : RawEvent) : List UInt8 :=
  headerCodec.encode event.header ++ event.envelope

@[simp] theorem RawEvent.image_length (event : RawEvent) : event.image.length = 146 := by
  rw [RawEvent.image, List.length_append, headerCodec.encode_length, event.sized]
  rfl

/-! ### The writer -/

/-- What the surroundings contribute to one append: how many bytes of the
record reach the file before a `write` fails, if one does. -/
structure WriteFault where
  failsAfter : Option Nat := none
  deriving DecidableEq, Repr

structure FileWriter where
  file : List UInt8 := []
  opened : Bool := false
  deriving DecidableEq, Repr

/-- `append_event`. A short `write` is continued, so only a failing one shows. -/
def FileWriter.appendEvent (writer : FileWriter) (event : RawEvent) (fault : WriteFault) :
    FileWriter × Bool :=
  if !writer.opened then (writer, false)
  else
    match fault.failsAfter with
    | some count => ({ writer with file := writer.file ++ event.image.dropLast.take count }, false)
    | none => ({ writer with file := writer.file ++ event.image }, true)

/-! ### The reader -/

/-- `read_exact` on what is left of the file. -/
def readExact (input : List UInt8) (count : Nat) : Option (List UInt8 × List UInt8) :=
  if count ≤ input.length then some (input.take count, input.drop count) else none

/-- The headers that the reader goes on with. -/
def ReplayRecordHeader.Valid (header : ReplayRecordHeader) : Prop :=
  header.magic = replayMagic ∧ header.version = replayVersion ∧
    header.headerSize = UInt16.ofNat headerCodec.width ∧
    header.payloadSize = UInt32.ofNat envelopeSize

instance (header : ReplayRecordHeader) : Decidable header.Valid := by
  unfold ReplayRecordHeader.Valid; infer_instance

/-- `ReplayReader::next` on an open file. -/
def next (input : List UInt8) : Option (RawEvent × List UInt8) :=
  match readExact input headerCodec.width with
  | none => none
  | some (headerBytes, rest) =>
      let header := headerCodec.decode headerBytes
      if ¬ header.Valid then none
      else if sized : envelopeSize ≤ rest.length then
        let envelope := rest.take envelopeSize
        if Wire.checksum envelope ≠ header.checksum then none
        else some (⟨header, envelope, List.length_take_of_le sized⟩, rest.drop envelopeSize)
      else none

/-- All that `next` delivers before its first failure. -/
def readAll (file : List UInt8) : List RawEvent :=
  Framing.parse next (file.length + 1) file

/-- The events that the reader accepts. -/
def RawEvent.Sound (event : RawEvent) : Prop :=
  event.header.Valid ∧ Wire.checksum event.envelope = event.header.checksum

instance (event : RawEvent) : Decidable event.Sound := by
  unfold RawEvent.Sound; infer_instance

theorem next_short (input : List UInt8) (short : input.length < 146) : next input = none := by
  unfold next readExact
  rw [headerCodec_width]
  by_cases header : 34 ≤ input.length
  · have payload : ¬ envelopeSize ≤ (input.drop 34).length := by
      rw [List.length_drop, envelopeSize]
      omega
    simp only [header, ↓reduceIte, payload, ↓reduceDIte, ite_self]
  · simp only [header, ↓reduceIte]

theorem next_image (event : RawEvent) (rest : List UInt8) :
    next (event.image ++ rest) = if event.Sound then some (event, rest) else none := by
  have width := headerCodec.encode_length event.header
  have sized := event.sized
  have header : readExact (event.image ++ rest) headerCodec.width =
      some (headerCodec.encode event.header, event.envelope ++ rest) := by
    unfold readExact
    rw [if_pos (by rw [List.length_append, RawEvent.image_length, headerCodec_width]; omega),
      RawEvent.image, List.append_assoc, List.take_left' width, List.drop_left' width]
  have enough : envelopeSize ≤ (event.envelope ++ rest).length := by
    rw [List.length_append, sized]
    omega
  unfold next
  rw [header]
  simp only [headerCodec.decode_encode, enough, ↓reduceDIte, List.take_left' sized,
    List.drop_left' sized]
  by_cases valid : event.header.Valid
  · by_cases checksum : Wire.checksum event.envelope = event.header.checksum
    · simp [RawEvent.Sound, valid, checksum]
    · simp [RawEvent.Sound, valid, checksum]
  · simp [RawEvent.Sound, valid]

theorem next_sound (input : List UInt8) (event : RawEvent) (rest : List UInt8)
    (result : next input = some (event, rest)) : event.Sound := by
  unfold next at result
  split at result
  · cases result
  · dsimp only at result
    split at result
    · cases result
    · rename_i valid
      split at result
      · split at result
        · cases result
        · rename_i checksum
          cases result
          exact ⟨not_not.mp valid, not_not.mp checksum⟩
      · cases result

/-- The reader inverts the images of sound events. -/
theorem reads_events : Framing.Reads next RawEvent.image RawEvent.Sound where
  whole := by
    intro event rest sound
    rw [next_image, if_pos sound]
  torn := by
    rintro input (rfl | ⟨event, -, ⟨missing, split⟩, proper⟩)
    · rfl
    · have nonempty : missing ≠ [] := by
        rintro rfl
        exact proper (by rw [← split, List.append_nil])
      have positive := List.length_pos_iff.mpr nonempty
      have total := congrArg List.length split
      rw [List.length_append, RawEvent.image_length] at total
      exact next_short input (by omega)
  shrinks := by
    intro event input rest result
    by_cases short : input.length < 146
    · rw [next_short input short] at result
      cases result
    · unfold next readExact at result
      rw [headerCodec_width, if_pos (by omega)] at result
      dsimp only at result
      split at result
      · cases result
      · split at result
        · split at result
          · cases result
          · cases result
            rw [List.length_drop, List.length_drop, envelopeSize]
            omega
        · cases result

theorem readAll_sound (file : List UInt8) : ∀ event ∈ readAll file, event.Sound :=
  Framing.parse_yields next RawEvent.Sound next_sound _ file

/-- A file that was written without a fault, cut anywhere. -/
theorem readAll_take (events : List RawEvent) (sound : ∀ event ∈ events, event.Sound)
    (cut : Nat) :
    readAll ((events.flatMap RawEvent.image).take cut) = events.take (cut / 146) := by
  rw [readAll, reads_events.parse_take events sound cut _ (Nat.lt_succ_self _)]
  clear sound
  induction events generalizing cut with
  | nil => simp [Framing.within]
  | cons event events ih =>
      rw [Framing.within, RawEvent.image_length, ih]
      by_cases fits : 146 ≤ cut
      · have more : cut / 146 = (cut - 146) / 146 + 1 := by omega
        simp only [fits, ↓reduceIte, more, List.take_succ_cons]
      · have none : cut / 146 = 0 := by omega
        simp only [fits, ↓reduceIte, none, List.take_zero]

/-- In front of the first event that is not sound everything is read. -/
theorem readAll_images (events : List RawEvent) :
    readAll (events.flatMap RawEvent.image) =
      events.takeWhile (fun event => event.Sound) := by
  unfold readAll
  generalize enough : (events.flatMap RawEvent.image).length + 1 = fuel
  replace enough : (events.flatMap RawEvent.image).length < fuel := by omega
  induction events generalizing fuel with
  | nil => cases fuel <;> rfl
  | cons event events ih =>
      cases fuel with
      | zero => omega
      | succ fuel =>
          rw [List.flatMap_cons, List.length_append, RawEvent.image_length] at enough
          rw [List.flatMap_cons, Framing.parse, next_image]
          by_cases sound : event.Sound
          · simp only [sound, ↓reduceIte, List.takeWhile_cons_of_pos, decide_true,
              ih fuel (by omega)]
          · simp only [sound, ↓reduceIte, decide_false, Bool.false_eq_true, not_false_eq_true,
              List.takeWhile_cons_of_neg]

end TradingPlatform.Replay
