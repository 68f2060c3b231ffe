import TradingPlatform.Journal

set_option autoImplicit false

/- What was appended is read back: the reader parses the frames of the appended
records, and a file cut anywhere yields the records before the cut. -/
namespace TradingPlatform.Journal

open Wire (payloadSizeForType payloadPtr)

/-! ### One pass of the reader -/

/-- The headers that the reader goes on with. -/
def JournalRecordHeader.Readable (header : JournalRecordHeader) : Prop :=
  header.magic = journalMagic ∧ header.version = journalVersion ∧ header.headerSize = 34 ∧
    payloadSizeForType header.messageType ≠ 0 ∧
    payloadSizeForType header.messageType = header.payloadSize.toNat

instance (header : JournalRecordHeader) : Decidable header.Readable := by
  unfold JournalRecordHeader.Readable; infer_instance

theorem readRecord_short (input : List UInt8) (short : input.length < 34) :
    readRecord { rest := input } = none := by
  unfold readRecord
  rw [headerCodec_width, InputStream.read_short input 34 short]
  rfl

theorem readRecord_header (header : JournalRecordHeader) (rest : List UInt8) :
    readRecord { rest := headerCodec.encode header ++ rest } =
      readPayload header { rest := rest } := by
  have width := headerCodec.encode_length header
  unfold readRecord
  rw [InputStream.read_whole _ _ (by rw [List.length_append]; omega),
    List.take_left' width, List.drop_left' width]
  simp only [InputStream.good, headerCodec.decode_encode, Bool.not_false, Bool.and_self,
    Bool.false_eq_true, Bool.not_true, ↓reduceIte]

theorem readPayload_unreadable (header : JournalRecordHeader) (stream : InputStream UInt8)
    (unreadable : ¬ header.Readable) : readPayload header stream = none := by
  unfold readPayload
  split
  · rfl
  · rename_i constants
    dsimp only
    split
    · rfl
    · rename_i sized
      push Not at constants sized
      exact absurd ⟨constants.1, constants.2.1, constants.2.2, sized.1, sized.2⟩ unreadable

theorem readPayload_torn (header : JournalRecordHeader) (rest : List UInt8)
    (torn : rest.length < header.payloadSize.toNat) :
    readPayload header { rest := rest } = none := by
  unfold readPayload
  rw [InputStream.read_short rest _ torn]
  simp only [InputStream.good, Bool.not_true, Bool.and_self, Bool.not_false, ↓reduceIte, ite_self]

theorem readPayload_whole (header : JournalRecordHeader) (rest : List UInt8)
    (readable : header.Readable) (whole : header.payloadSize.toNat ≤ rest.length) :
    readPayload header { rest := rest } =
      let envelope := Wire.Envelope.overwrite header.messageType
        (rest.take header.payloadSize.toNat)
      if Wire.checksum envelope.payload = header.checksum then
        some (⟨header, envelope⟩, { rest := rest.drop header.payloadSize.toNat })
      else none := by
  obtain ⟨magic, version, size, nonzero, sized⟩ := readable
  have pointer : payloadPtr header.messageType ≠ none :=
    fun null => nonzero ((Wire.payloadPtr_eq_none_iff _).mp null)
  unfold readPayload
  rw [if_neg (by simp [magic, version, size]), if_neg (by simp [nonzero, sized.symm]),
    if_neg pointer, InputStream.read_whole rest _ whole]
  simp [InputStream.good]

/-! ### The reader parses frames -/

/-- The reader on the bytes alone. -/
def parseRecord (input : List UInt8) : Option (JournalRecord × List UInt8) :=
  (readRecord { rest := input }).map (Prod.map id InputStream.rest)

/-- A stream of bytes is a header and what follows, or too short for one. -/
theorem header_or_short (input : List UInt8) :
    input.length < 34 ∨ ∃ header rest, input = headerCodec.encode header ++ rest := by
  by_cases short : input.length < 34
  · exact Or.inl short
  · refine Or.inr ⟨headerCodec.decode (input.take 34), input.drop 34, ?_⟩
    rw [headerCodec.encode_decode _ (by rw [List.length_take, headerCodec_width]; omega),
      List.take_append_drop]

/-- A pass that delivers a record leaves the stream good and shorter. -/
theorem readRecord_some (input : List UInt8) (record : JournalRecord)
    (stream : InputStream UInt8) (result : readRecord { rest := input } = some (record, stream)) :
    ∃ rest, stream = { rest := rest } ∧ rest.length < input.length := by
  rcases header_or_short input with short | ⟨header, body, rfl⟩
  · rw [readRecord_short input short] at result
    cases result
  · rw [readRecord_header] at result
    by_cases readable : header.Readable
    · by_cases whole : header.payloadSize.toNat ≤ body.length
      · rw [readPayload_whole header body readable whole] at result
        dsimp only at result
        split at result
        · have width := headerCodec.encode_length header
          rw [headerCodec_width] at width
          cases result
          refine ⟨_, rfl, ?_⟩
          rw [List.length_drop, List.length_append]
          omega
        · cases result
      · rw [readPayload_torn header body (by omega)] at result
        cases result
    · rw [readPayload_unreadable header _ readable] at result
      cases result

theorem readAll_eq_parse (file : List UInt8) (fuel : Nat) :
    Framing.parse readRecord fuel { rest := file } = Framing.parse parseRecord fuel file := by
  refine Framing.parse_map readRecord parseRecord (fun rest => { rest := rest }) ?_ fuel file
  intro input
  cases pass : readRecord { rest := input } with
  | none => simp [parseRecord, pass]
  | some result =>
      obtain ⟨record, stream⟩ := result
      obtain ⟨rest, rfl, -⟩ := readRecord_some input record stream pass
      simp only [parseRecord, pass, Option.map_some, Prod.map, id]

/-- The records that an append writes. -/
structure JournalRecord.Sound (record : JournalRecord) : Prop where
  readable : record.header.Readable
  type : record.header.messageType = record.envelope.type
  checksum : Wire.checksum record.envelope.payload = record.header.checksum

theorem JournalRecord.Sound.length (record : JournalRecord) (sound : record.Sound) :
    record.envelope.payload.length = record.header.payloadSize.toNat := by
  rw [record.envelope.sized, ← sound.type, sound.readable.2.2.2.2]

/-- The reader inverts the images of sound records. -/
theorem reads_records : Framing.Reads parseRecord JournalRecord.image JournalRecord.Sound where
  whole := by
    intro record rest sound
    have size := sound.length record
    unfold parseRecord JournalRecord.image
    rw [List.append_assoc, readRecord_header, readPayload_whole _ _ sound.readable
      (by rw [List.length_append]; omega), List.take_left' size, List.drop_left' size]
    simp only [sound.type, Wire.Envelope.overwrite_payload, sound.checksum, ↓reduceIte,
      Option.map_some, Prod.map, id]
  torn := by
    rintro input (rfl | ⟨record, sound, ⟨missing, split⟩, proper⟩)
    · rfl
    · have nonempty : missing ≠ [] := by
        rintro rfl
        exact proper (by rw [← split, List.append_nil])
      have positive := List.length_pos_iff.mpr nonempty
      unfold parseRecord
      rcases header_or_short input with short | ⟨header, body, rfl⟩
      · rw [readRecord_short input short]
        rfl
      · unfold JournalRecord.image at split
        rw [List.append_assoc] at split
        have widths : (headerCodec.encode header).length =
            (headerCodec.encode record.header).length := by
          rw [headerCodec.encode_length, headerCodec.encode_length]
        obtain ⟨headers, bodies⟩ := List.append_inj split widths
        have same := headerCodec.encode_injective headers
        have size := sound.length record
        have total := congrArg List.length bodies
        rw [List.length_append] at total
        rw [readRecord_header, readPayload_torn header body (by rw [same]; omega)]
        rfl
  shrinks := by
    intro record input rest result
    unfold parseRecord at result
    obtain ⟨pass, delivered, same⟩ := Option.map_eq_some_iff.mp result
    obtain ⟨left, stream, shorter⟩ := readRecord_some input pass.1 pass.2 delivered
    cases same
    rw [stream]
    exact shorter

/-! ### A run of appends -/

/-- The writer accepts the types that have a payload. -/
def AppendCall.Supported (call : AppendCall) : Prop :=
  payloadSizeForType call.envelope.type ≠ 0

instance (call : AppendCall) : Decidable call.Supported := by
  unfold AppendCall.Supported; infer_instance

theorem append_supported (writer : JournalWriter) (call : AppendCall)
    (supported : call.Supported) :
    writer.append call =
      ({ file := writer.file ++ call.record.image, opened := true }, true) := by
  have pointer : payloadPtr call.envelope.type ≠ none :=
    fun null => supported ((Wire.payloadPtr_eq_none_iff _).mp null)
  have size : payloadSizeForType call.envelope.type ≠ 0 := supported
  simp [JournalWriter.append, JournalWriter.open, pointer, size]

theorem append_unsupported (writer : JournalWriter) (call : AppendCall)
    (unsupported : ¬ call.Supported) :
    writer.append call = ({ file := writer.file, opened := true }, false) := by
  have size : payloadSizeForType call.envelope.type = 0 := not_not.mp unsupported
  simp [JournalWriter.append, JournalWriter.open, size]

/-- The records of successful appends are sound. -/
theorem AppendCall.record_sound (call : AppendCall) (supported : call.Supported) :
    call.record.Sound where
  readable := by
    have bound := Wire.payloadSizeForType_le call.envelope.type
    refine ⟨rfl, rfl, rfl, supported, ?_⟩
    change _ = (UInt32.ofNat (payloadSizeForType call.envelope.type)).toNat
    rw [UInt32.toNat_ofNat_of_lt' (by simp only [UInt32.size]; omega)]
    rfl
  type := rfl
  checksum := rfl

/-- The writer after a list of calls, and the calls that returned true, each
with the size of the file at its return. -/
def appendAll (writer : JournalWriter) :
    List AppendCall → JournalWriter × List (AppendCall × Nat)
  | [] => (writer, [])
  | call :: calls =>
      let (writer, success) := writer.append call
      let (final, completed) := appendAll writer calls
      (final, if success then (call, writer.file.length) :: completed else completed)

/-- The file grows by the images of the successful appends, one after another. -/
theorem appendAll_eq (writer : JournalWriter) (calls : List AppendCall) :
    (appendAll writer calls).1.file =
        writer.file ++ (calls.filter AppendCall.Supported).flatMap (fun call => call.record.image) ∧
      (appendAll writer calls).2 =
        Framing.ends (fun call => call.record.image) writer.file.length
          (calls.filter AppendCall.Supported) := by
  induction calls generalizing writer with
  | nil => exact ⟨(List.append_nil _).symm, rfl⟩
  | cons call calls ih =>
      by_cases supported : call.Supported
      · obtain ⟨file, completed⟩ := ih { file := writer.file ++ call.record.image, opened := true }
        simp only [appendAll, append_supported writer call supported, file, completed,
          List.filter_cons, supported, decide_true, ↓reduceIte, List.flatMap_cons,
          List.append_assoc, List.length_append, Framing.ends, and_self]
      · obtain ⟨file, completed⟩ := ih { file := writer.file, opened := true }
        simp only [appendAll, append_unsupported writer call supported, file, completed,
          List.filter_cons, supported, decide_false, Bool.false_eq_true, ↓reduceIte, and_self]

/-- A file that holds sound records and ends in a torn one. -/
theorem readAll_frames (records : List JournalRecord)
    (sound : ∀ record ∈ records, record.Sound) (cut : Nat) :
    readAll ((records.flatMap JournalRecord.image).take cut) =
      Framing.within JournalRecord.image cut records := by
  unfold readAll
  rw [readAll_eq_parse]
  exact reads_records.parse_take records sound cut _ (Nat.lt_succ_self _)

theorem readAll_take (calls : List AppendCall) (cut : Nat) :
    readAll ((appendAll {} calls).1.file.take cut) =
      ((appendAll {} calls).2.filter (fun entry => entry.2 ≤ cut)).map
        (fun entry => entry.1.record) := by
  obtain ⟨file, completed⟩ := appendAll_eq {} calls
  have sound : ∀ record ∈ (calls.filter AppendCall.Supported).map AppendCall.record,
      record.Sound := by
    intro record member
    obtain ⟨call, accepted, rfl⟩ := List.mem_map.mp member
    exact call.record_sound (of_decide_eq_true (List.mem_filter.mp accepted).2)
  have images : (calls.filter AppendCall.Supported).flatMap (fun call => call.record.image) =
      ((calls.filter AppendCall.Supported).map AppendCall.record).flatMap
        JournalRecord.image := by
    rw [List.flatMap_map]
  rw [file, completed, List.nil_append, images, readAll_frames _ sound cut, Framing.within_map,
    Framing.within_eq_filter _ 0, List.map_map, Nat.zero_add]
  rfl

/-- What the caller of an append handed in, and what a reader takes out. -/
def AppendCall.content (call : AppendCall) : UInt8 × UInt8 × UInt64 × List UInt8 :=
  (call.recordType, call.envelope.type, call.sequence, call.envelope.payload)

def JournalRecord.content (record : JournalRecord) : UInt8 × UInt8 × UInt64 × List UInt8 :=
  (record.header.recordType, record.header.messageType, record.header.sequence,
    record.envelope.payload)

/-- The appends that return true are those of the supported types, the others
return false and leave the file alone. A journal cut at any byte reads back as
the appends that were complete by then, in order. -/
theorem journal_round_trip (calls : List AppendCall) (cut : Nat) :
    (appendAll {} calls).2.map Prod.fst = calls.filter AppendCall.Supported ∧
      (∀ (writer : JournalWriter) (call : AppendCall),
        payloadSizeForType call.envelope.type = 0 →
          (writer.append call).2 = false ∧ (writer.append call).1.file = writer.file) ∧
      (readAll ((appendAll {} calls).1.file.take cut)).map JournalRecord.content =
        ((appendAll {} calls).2.filter (fun entry => entry.2 ≤ cut)).map
          (fun entry => entry.1.content) := by
  refine ⟨by rw [(appendAll_eq {} calls).2, Framing.ends_map_fst], ?_, ?_⟩
  · intro writer call unsupported
    rw [append_unsupported writer call (not_not.mpr unsupported)]
    exact ⟨rfl, rfl⟩
  · rw [readAll_take, List.map_map]
    rfl

end TradingPlatform.Journal
