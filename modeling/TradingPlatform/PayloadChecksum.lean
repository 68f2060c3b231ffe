import TradingPlatform.TcpCorruption
import TradingPlatform.JournalCorruption
import TradingPlatform.ReplayFile

set_option autoImplicit false

/- The transport, the journal and the replay file each carry their own copy of
the hash. What one altered byte does to the values, and to each of the readers. -/
namespace TradingPlatform

open FoldHash (DifferOnce)

/-- Over the payload of a frame. -/
def TcpTransport.checksumBytes (data : List UInt8) : UInt32 := Wire.checksum data

/-- Over the payload of a record. -/
def Journal.journalChecksum (data : List UInt8) : UInt32 := Wire.checksum data

/-- Over a whole envelope, whatever member of it is in use. -/
def Replay.replayChecksum (data : List UInt8) : UInt32 := Wire.checksum data

theorem single_byte_changes_checksums (first second : List UInt8)
    (apart : DifferOnce first second) :
    TcpTransport.checksumBytes first ≠ TcpTransport.checksumBytes second ∧
      Journal.journalChecksum first ≠ Journal.journalChecksum second ∧
      Replay.replayChecksum first ≠ Replay.replayChecksum second := by
  have different := Wire.checksum_once first second apart
  exact ⟨different, different, different⟩

theorem second_byte_changes_checksums :
    DifferOnce [(1 : UInt8), 2, 3] [1, 5, 3] ∧
      TcpTransport.checksumBytes [1, 2, 3] ≠ TcpTransport.checksumBytes [1, 5, 3] ∧
      Journal.journalChecksum [1, 2, 3] ≠ Journal.journalChecksum [1, 5, 3] ∧
      Replay.replayChecksum [1, 2, 3] ≠ Replay.replayChecksum [1, 5, 3] := by
  have apart : DifferOnce [(1 : UInt8), 2, 3] [1, 5, 3] :=
    FoldHash.differOnce_set [1, 2, 3] 1 5 (by decide)
  exact ⟨apart, single_byte_changes_checksums [1, 2, 3] [1, 5, 3] apart⟩

/-! ### The readers -/

namespace Journal

theorem parseRecord_once (record : JournalRecord) (sound : record.Sound) (altered : List UInt8)
    (apart : DifferOnce record.envelope.payload altered) (rest : List UInt8) :
    parseRecord (headerCodec.encode record.header ++ (altered ++ rest)) = none := by
  obtain ⟨position, byte, replaced, changed⟩ := apart.eq_set
  rw [replaced]
  exact parseRecord_alteredPayload record sound position byte changed rest

/-- Reading ends in front of the altered payload, whatever stands behind it. -/
theorem readAll_once (before : List JournalRecord) (front : ∀ record ∈ before, record.Sound)
    (record : JournalRecord) (sound : record.Sound) (altered : List UInt8)
    (apart : DifferOnce record.envelope.payload altered) (rest : List UInt8) :
    readAll (before.flatMap JournalRecord.image ++
      (headerCodec.encode record.header ++ (altered ++ rest))) = before := by
  rw [readAll, readAll_eq_parse]
  apply reads_records.parse_frames before front
  · exact parseRecord_once record sound altered apart rest
  · omega

end Journal

namespace Replay

theorem next_once (event : RawEvent) (sound : event.Sound) (altered : List UInt8)
    (apart : DifferOnce event.envelope altered) (rest : List UInt8) :
    next (headerCodec.encode event.header ++ (altered ++ rest)) = none := by
  have sized : altered.length = envelopeSize := by
    rw [← apart.sized, event.sized]
  have read := next_image ⟨event.header, altered, sized⟩ rest
  rw [RawEvent.image, List.append_assoc] at read
  rw [read, if_neg]
  rintro ⟨-, passes⟩
  apply Wire.checksum_once event.envelope altered apart
  rw [sound.2, passes]

theorem readAll_once (before : List RawEvent) (front : ∀ event ∈ before, event.Sound)
    (event : RawEvent) (sound : event.Sound) (altered : List UInt8)
    (apart : DifferOnce event.envelope altered) (rest : List UInt8) :
    readAll (before.flatMap RawEvent.image ++
      (headerCodec.encode event.header ++ (altered ++ rest))) = before := by
  rw [readAll]
  apply reads_events.parse_frames before front
  · exact next_once event sound altered apart rest
  · omega

end Replay
end TradingPlatform
