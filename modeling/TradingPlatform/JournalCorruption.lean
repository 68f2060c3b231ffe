import TradingPlatform.JournalRoundTrip

set_option autoImplicit false

/- One byte of a journal replaced on disk. The checksum covers the payload only;
in the header each field has a check of its own, or none. -/
namespace TradingPlatform.Journal

open Wire (payloadSizeForType)
open ByteCodec.Codec

/-- A header with one byte replaced: the one field that it falls into. -/
inductive AlteredHeader (header : JournalRecordHeader) (offset : Nat) (byte : UInt8) :
    JournalRecordHeader → Prop where
  | magic (value : UInt32) (place : offset < 8) (changed : value ≠ header.magic) :
      AlteredHeader header offset byte { header with magic := value }
  | version (value : UInt16) (place : offset < 8) (changed : value ≠ header.version) :
      AlteredHeader header offset byte { header with version := value }
  | headerSize (value : UInt16) (place : offset < 8) (changed : value ≠ header.headerSize) :
      AlteredHeader header offset byte { header with headerSize := value }
  | recordType (place : offset = 8) :
      AlteredHeader header offset byte { header with recordType := byte }
  | messageType (place : offset = 9) :
      AlteredHeader header offset byte { header with messageType := byte }
  | sequence (value : UInt64) (place : 10 ≤ offset ∧ offset < 26) :
      AlteredHeader header offset byte { header with sequence := value }
  | tsNs (value : UInt64) (place : 10 ≤ offset ∧ offset < 26) :
      AlteredHeader header offset byte { header with tsNs := value }
  | payloadSize (value : UInt32) (place : 26 ≤ offset) (changed : value ≠ header.payloadSize) :
      AlteredHeader header offset byte { header with payloadSize := value }
  | checksum (value : UInt32) (place : 26 ≤ offset) (changed : value ≠ header.checksum) :
      AlteredHeader header offset byte { header with checksum := value }

theorem alter_header (header : JournalRecordHeader) (offset : Nat) (byte : UInt8)
    (inside : offset < 34)
    (changed : (headerCodec.encode header).set offset byte ≠ headerCodec.encode header) :
    AlteredHeader header offset byte (headerCodec.alter header offset byte) := by
  have different := headerCodec.alter_ne header offset byte changed
  revert different
  obtain place | place | place | place | place | place | place | place | place :
      offset < 4 ∨ 4 ≤ offset ∧ offset < 6 ∨ 6 ≤ offset ∧ offset < 8 ∨ offset = 8 ∨ offset = 9 ∨
        10 ≤ offset ∧ offset < 18 ∨ 18 ≤ offset ∧ offset < 26 ∨ 26 ≤ offset ∧ offset < 30 ∨
        30 ≤ offset := by
    omega
  · have altered : headerCodec.alter header offset byte =
        { header with magic := u32.alter header.magic offset byte } := by
      rw [headerCodec, transport_alter, pair_alter_left _ _ _ _ _ place]
      rfl
    rw [altered]
    exact fun different => .magic _ (by omega) fun same => different (by rw [same])
  · have altered : headerCodec.alter header offset byte =
        { header with version := u16.alter header.version (offset - 4) byte } := by
      simp (disch := (simp only [u32_width, u16_width]; omega)) only
        [headerCodec, transport_alter, pair_alter_left, pair_alter_right]
      rfl
    rw [altered]
    exact fun different => .version _ (by omega) fun same => different (by rw [same])
  · have altered : headerCodec.alter header offset byte =
        { header with headerSize := u16.alter header.headerSize (offset - 4 - 2) byte } := by
      simp (disch := (simp only [u32_width, u16_width]; omega)) only
        [headerCodec, transport_alter, pair_alter_left, pair_alter_right]
      rfl
    rw [altered]
    exact fun different => .headerSize _ (by omega) fun same => different (by rw [same])
  · subst place
    have altered : headerCodec.alter header 8 byte =
        { header with recordType := u8.alter header.recordType 0 byte } := by
      simp (disch := decide) only [headerCodec, transport_alter, pair_alter_left, pair_alter_right]
      rfl
    rw [altered, u8_alter]
    exact fun _ => .recordType rfl
  · subst place
    have altered : headerCodec.alter header 9 byte =
        { header with messageType := u8.alter header.messageType 0 byte } := by
      simp (disch := decide) only [headerCodec, transport_alter, pair_alter_left, pair_alter_right]
      rfl
    rw [altered, u8_alter]
    exact fun _ => .messageType rfl
  · have altered : headerCodec.alter header offset byte =
        { header with
          sequence := u64.alter header.sequence (offset - 4 - 2 - 2 - 1 - 1) byte } := by
      simp (disch := (simp only [u64_width, u32_width, u16_width, u8_width]; omega)) only
        [headerCodec, transport_alter, pair_alter_left, pair_alter_right]
      rfl
    rw [altered]
    exact fun _ => .sequence _ (by omega)
  · have altered : headerCodec.alter header offset byte =
        { header with tsNs := u64.alter header.tsNs (offset - 4 - 2 - 2 - 1 - 1 - 8) byte } := by
      simp (disch := (simp only [u64_width, u32_width, u16_width, u8_width]; omega)) only
        [headerCodec, transport_alter, pair_alter_left, pair_alter_right]
      rfl
    rw [altered]
    exact fun _ => .tsNs _ (by omega)
  · have altered : headerCodec.alter header offset byte =
        { header with
          payloadSize :=
            u32.alter header.payloadSize (offset - 4 - 2 - 2 - 1 - 1 - 8 - 8) byte } := by
      simp (disch := (simp only [u64_width, u32_width, u16_width, u8_width]; omega)) only
        [headerCodec, transport_alter, pair_alter_left, pair_alter_right]
      rfl
    rw [altered]
    exact fun different => .payloadSize _ (by omega) fun same => different (by rw [same])
  · have altered : headerCodec.alter header offset byte =
        { header with
          checksum :=
            u32.alter header.checksum (offset - 4 - 2 - 2 - 1 - 1 - 8 - 8 - 4) byte } := by
      simp (disch := (simp only [u64_width, u32_width, u16_width, u8_width]; omega)) only
        [headerCodec, transport_alter, pair_alter_right]
      rfl
    rw [altered]
    exact fun different => .checksum _ (by omega) fun same => different (by rw [same])

/-! ### What is read -/

theorem parseRecord_unreadable (header : JournalRecordHeader) (rest : List UInt8)
    (unreadable : ¬ header.Readable) :
    parseRecord (headerCodec.encode header ++ rest) = none := by
  rw [parseRecord, readRecord_header, readPayload_unreadable header _ unreadable]
  rfl

/-- What a readable header makes of the payload behind it. -/
theorem parseRecord_payload (header : JournalRecordHeader) (payload rest : List UInt8)
    (readable : header.Readable) (size : payload.length = header.payloadSize.toNat) :
    parseRecord (headerCodec.encode header ++ (payload ++ rest)) =
      if Wire.checksum (Wire.Envelope.overwrite header.messageType payload).payload =
          header.checksum then
        some (⟨header, Wire.Envelope.overwrite header.messageType payload⟩, rest)
      else none := by
  rw [parseRecord, readRecord_header, readPayload_whole header _ readable
    (by rw [List.length_append]; omega), List.take_left' size, List.drop_left' size]
  dsimp only
  split <;> rfl

/-- The replacements in a record that no check of the reader looks at. -/
def JournalRecord.Unnoticed (record : JournalRecord) (offset : Nat) (byte : UInt8) : Prop :=
  offset = 8 ∨
    offset = 9 ∧ payloadSizeForType byte = payloadSizeForType record.header.messageType ∨
    10 ≤ offset ∧ offset < 26

instance (record : JournalRecord) (offset : Nat) (byte : UInt8) :
    Decidable (record.Unnoticed offset byte) := by
  unfold JournalRecord.Unnoticed; infer_instance

/-- The payload passes its own check. -/
theorem JournalRecord.Sound.overwrite (record : JournalRecord) (sound : record.Sound)
    (type : UInt8)
    (size : payloadSizeForType type = payloadSizeForType record.header.messageType) :
    Wire.checksum (Wire.Envelope.overwrite type record.envelope.payload).payload =
      record.header.checksum := by
  have length : record.envelope.payload.length = payloadSizeForType type := by
    rw [size, sound.type, record.envelope.sized]
  have kept : (Wire.Envelope.overwrite type record.envelope.payload).payload =
      record.envelope.payload := Wire.Envelope.overwrite_sized type _ length
  rw [kept, sound.checksum]

/-- An altered header either stops the reader or delivers another record. -/
theorem parseRecord_alteredHeader (record : JournalRecord) (sound : record.Sound) (offset : Nat)
    (byte : UInt8) (header : JournalRecordHeader)
    (altered : AlteredHeader record.header offset byte header) (rest : List UInt8) :
    parseRecord (headerCodec.encode header ++ (record.envelope.payload ++ rest)) = none ↔
      ¬ record.Unnoticed offset byte := by
  obtain ⟨magic, version, headerSize, nonzero, sized⟩ := sound.readable
  have length := sound.length record
  have passes := sound.overwrite record record.header.messageType rfl
  unfold JournalRecord.Unnoticed
  cases altered with
  | magic value place changed =>
      rw [parseRecord_unreadable]
      · simp only [true_iff]
        omega
      · intro readable
        exact changed (readable.1.trans magic.symm)
  | version value place changed =>
      rw [parseRecord_unreadable]
      · simp only [true_iff]
        omega
      · intro readable
        exact changed (readable.2.1.trans version.symm)
  | headerSize value place changed =>
      rw [parseRecord_unreadable]
      · simp only [true_iff]
        omega
      · intro readable
        exact changed (readable.2.2.1.trans headerSize.symm)
  | recordType place =>
      rw [parseRecord_payload { record.header with recordType := byte } _ rest
        ⟨magic, version, headerSize, nonzero, sized⟩ length, if_pos passes]
      simp [place]
  | messageType place =>
      by_cases size : payloadSizeForType byte = payloadSizeForType record.header.messageType
      · have readable : { record.header with messageType := byte }.Readable :=
          ⟨magic, version, headerSize, fun zero => nonzero (size.symm.trans zero),
            size.trans sized⟩
        rw [parseRecord_payload _ _ rest readable length,
          if_pos (sound.overwrite record byte size)]
        simp [place, size]
      · rw [parseRecord_unreadable]
        · simp [place, size]
        · intro readable
          exact size (readable.2.2.2.2.trans sized.symm)
  | sequence value place =>
      rw [parseRecord_payload { record.header with sequence := value } _ rest
        ⟨magic, version, headerSize, nonzero, sized⟩ length, if_pos passes]
      simp [place]
  | tsNs value place =>
      rw [parseRecord_payload { record.header with tsNs := value } _ rest
        ⟨magic, version, headerSize, nonzero, sized⟩ length, if_pos passes]
      simp [place]
  | payloadSize value place changed =>
      rw [parseRecord_unreadable]
      · simp only [true_iff]
        omega
      · intro readable
        exact changed (UInt32.toNat_inj.mp (readable.2.2.2.2.symm.trans sized))
  | checksum value place changed =>
      rw [parseRecord_payload { record.header with checksum := value } _ rest
        ⟨magic, version, headerSize, nonzero, sized⟩ length, if_neg]
      · simp only [true_iff]
        omega
      · exact fun same => changed (same.symm.trans passes)

theorem parseRecord_alteredPayload (record : JournalRecord) (sound : record.Sound)
    (position : Nat) (byte : UInt8)
    (changed : record.envelope.payload.set position byte ≠ record.envelope.payload)
    (rest : List UInt8) :
    parseRecord (headerCodec.encode record.header ++
      (record.envelope.payload.set position byte ++ rest)) = none := by
  have length : (record.envelope.payload.set position byte).length =
      payloadSizeForType record.header.messageType := by
    rw [List.length_set, record.envelope.sized, sound.type]
  have kept : (Wire.Envelope.overwrite record.header.messageType
      (record.envelope.payload.set position byte)).payload =
        record.envelope.payload.set position byte :=
    Wire.Envelope.overwrite_sized _ _ length
  rw [parseRecord_payload _ _ rest sound.readable (length.trans sound.readable.2.2.2.2), kept,
    if_neg]
  rw [← sound.checksum]
  exact Wire.checksum_set _ position byte changed

/-- The header of a record is the one in front of it. -/
theorem parseRecord_header_eq (header : JournalRecordHeader) (rest left : List UInt8)
    (record : JournalRecord)
    (result : parseRecord (headerCodec.encode header ++ rest) = some (record, left)) :
    record.header = header := by
  by_cases readable : header.Readable
  · by_cases whole : header.payloadSize.toNat ≤ rest.length
    · rw [parseRecord, readRecord_header, readPayload_whole header rest readable whole] at result
      dsimp only at result
      split at result
      · cases result
        rfl
      · cases result
    · rw [parseRecord, readRecord_header, readPayload_torn header rest (by omega)] at result
      cases result
  · rw [parseRecord_unreadable header rest readable] at result
    cases result

/-- One byte of a record replaced: the reader stops, or delivers another record. -/
theorem parseRecord_altered (record : JournalRecord) (sound : record.Sound) (offset : Nat)
    (byte : UInt8) (changed : record.image.set offset byte ≠ record.image)
    (rest : List UInt8) :
    (parseRecord (record.image.set offset byte ++ rest) = none ↔
        ¬ record.Unnoticed offset byte) ∧
      ∀ other left, parseRecord (record.image.set offset byte ++ rest) = some (other, left) →
        other ≠ record := by
  have width := headerCodec.encode_length record.header
  rw [headerCodec_width] at width
  unfold JournalRecord.image at changed ⊢
  by_cases inside : offset < 34
  · rw [List.set_append_left _ _ (by omega)] at changed ⊢
    have different : (headerCodec.encode record.header).set offset byte ≠
        headerCodec.encode record.header := fun same => changed (by rw [same])
    have altered := alter_header record.header offset byte inside different
    rw [← encode_alter, List.append_assoc]
    refine ⟨parseRecord_alteredHeader record sound offset byte _ altered rest, ?_⟩
    rintro other left result rfl
    exact headerCodec.alter_ne _ offset byte different
      (parseRecord_header_eq _ _ left other result).symm
  · rw [List.set_append_right _ _ (by omega)] at changed ⊢
    rw [List.append_assoc, parseRecord_alteredPayload record sound _ byte
      fun same => changed (by rw [same])]
    refine ⟨?_, fun _ _ result => by cases result⟩
    simp only [JournalRecord.Unnoticed, true_iff]
    omega

/-! ### A whole journal -/

/-- The replacement falls into a byte of some record that no check looks at. -/
def Unnoticed (records : List JournalRecord) (position : Nat) (byte : UInt8) : Prop :=
  ∃ before record after offset, records = before ++ record :: after ∧
    position = (before.flatMap JournalRecord.image).length + offset ∧
    record.Unnoticed offset byte

/-- The records in front of the replaced byte are read back, and nothing else,
exactly if a check looks at the byte. -/
theorem readAll_altered_iff (records : List JournalRecord)
    (sound : ∀ record ∈ records, record.Sound) (position : Nat) (byte : UInt8)
    (changed : (records.flatMap JournalRecord.image).set position byte ≠
      records.flatMap JournalRecord.image) :
    readAll ((records.flatMap JournalRecord.image).set position byte) <+: records ↔
      ¬ Unnoticed records position byte := by
  -- in any record that the position falls into
  have inRecord : ∀ before record after offset, records = before ++ record :: after →
      position = (before.flatMap JournalRecord.image).length + offset →
      offset < record.image.length →
      (readAll ((records.flatMap JournalRecord.image).set position byte) <+: records ↔
        ¬ record.Unnoticed offset byte) := by
    intro before record after offset split place inside
    have own : record.Sound := sound record (by rw [split]; simp)
    have front : ∀ other ∈ before, other.Sound := fun other member =>
      sound other (by rw [split]; exact List.mem_append_left _ member)
    have replaced := Framing.set_frames JournalRecord.image before after record offset byte inside
    rw [← split, ← place] at replaced
    have different : record.image.set offset byte ≠ record.image := by
      intro same
      rw [same, ← List.flatMap_cons, ← List.flatMap_append, ← split] at replaced
      exact changed replaced
    obtain ⟨stops, delivers⟩ := parseRecord_altered record own offset byte different
      (after.flatMap JournalRecord.image)
    rw [readAll, readAll_eq_parse, replaced, split,
      reads_records.parse_damaged before after record front _ _ (Nat.lt_succ_self _) delivers]
    exact stops
  have inside : position < (records.flatMap JournalRecord.image).length := by
    by_contra outside
    exact changed (List.set_eq_of_length_le (by omega))
  obtain ⟨before, record, after, offset, split, place, bound⟩ :=
    Framing.locate JournalRecord.image records position inside
  refine ⟨?_, ?_⟩
  · rintro read ⟨front, found, back, within, other, spot, unnoticed⟩
    have length : found.image.length = 34 + found.envelope.payload.length := by
      rw [JournalRecord.image, List.length_append, headerCodec.encode_length, headerCodec_width]
    have early : within < found.image.length := by
      unfold JournalRecord.Unnoticed at unnoticed
      omega
    exact (inRecord front found back within other spot early).mp read unnoticed
  · intro noticed
    exact (inRecord before record after offset split place bound).mpr
      fun unnoticed => noticed ⟨before, record, after, offset, split, place, unnoticed⟩

/-- A journal with one byte replaced reads back as a beginning of what was
appended, unless the byte is the type, the sequence or the timestamp of a record,
or its message type and the new one has the same size. -/
theorem altered_journal_iff (calls : List AppendCall) (position : Nat) (byte : UInt8)
    (changed : (appendAll {} calls).1.file.set position byte ≠ (appendAll {} calls).1.file) :
    readAll ((appendAll {} calls).1.file.set position byte) <+:
        (appendAll {} calls).2.map (fun entry => entry.1.record) ↔
      ¬ Unnoticed ((appendAll {} calls).2.map fun entry => entry.1.record) position byte := by
  obtain ⟨file, completed⟩ := appendAll_eq {} calls
  have written : (appendAll {} calls).2.map (fun entry => entry.1.record) =
      (calls.filter AppendCall.Supported).map AppendCall.record := by
    have mapped := congrArg (List.map AppendCall.record) (Framing.ends_map_fst
      (fun call => call.record.image) 0 (calls.filter AppendCall.Supported))
    rw [List.map_map] at mapped
    rw [completed]
    exact mapped
  have image : (appendAll {} calls).1.file =
      ((calls.filter AppendCall.Supported).map AppendCall.record).flatMap
        JournalRecord.image := by
    rw [file, List.nil_append, List.flatMap_map]
  have sound : ∀ record ∈ (calls.filter AppendCall.Supported).map AppendCall.record,
      record.Sound := by
    intro record member
    obtain ⟨call, accepted, rfl⟩ := List.mem_map.mp member
    exact call.record_sound (of_decide_eq_true (List.mem_filter.mp accepted).2)
  rw [image] at changed ⊢
  rw [written]
  exact readAll_altered_iff _ sound position byte changed

/-- The intent to send an order, appended to a journal. -/
def oneIntent : AppendCall where
  recordType := JournalRecordType.orderIntent.code
  envelope := Wire.Envelope.overwrite MsgType.newOrder.code []
  sequence := 1
  tsNs := 0

/-- A byte of the payload replaced. -/
theorem altered_journal_payload :
    readAll ((appendAll {} [oneIntent]).1.file.set 40 1) <+:
      (appendAll {} [oneIntent]).2.map (fun entry => entry.1.record) := by
  refine (altered_journal_iff [oneIntent] 40 1 (by decide +kernel)).mpr ?_
  rintro ⟨before, record, after, offset, split, place, unnoticed⟩
  have single : before.length + (after.length + 1) = 1 := by
    have length := congrArg List.length split
    rw [List.length_append, List.length_cons] at length
    exact length.symm
  have first : before = [] := List.length_eq_zero_iff.mp (by omega)
  subst first
  rw [List.flatMap_nil, List.length_nil] at place
  unfold JournalRecord.Unnoticed at unnoticed
  omega

/-- The type of the record replaced: the intent reads back as a response. -/
theorem intent_read_as_reject :
    let read :=
      readAll ((appendAll {} [oneIntent]).1.file.set 8 JournalRecordType.gatewayReject.code)
    ¬ read <+: (appendAll {} [oneIntent]).2.map (fun entry => entry.1.record) ∧
      read.map (fun record => record.header.recordType) =
        [JournalRecordType.gatewayReject.code] := by
  decide +kernel

end TradingPlatform.Journal
