import TradingPlatform.JournalRoundTrip
import TradingPlatform.Metrics
import TradingPlatform.WireImage

set_option autoImplicit false

/- The journal as its callers see it: a list of complete records, and calls that
may fail. -/
namespace TradingPlatform

open Wire (payloadSizeForType payloadPtr)

structure JournalEntry where
  recordType : JournalRecordType
  envelope : Envelope
  sequence : Sequence
  tsNs : TimestampNs
  deriving DecidableEq, Repr

/-- The append at the level of bytes that writes an entry. -/
def JournalEntry.call (entry : JournalEntry) : Journal.AppendCall where
  recordType := entry.recordType.code
  envelope := Wire.ofEnvelope entry.envelope
  sequence := UInt64.ofNat entry.sequence
  tsNs := UInt64.ofNat entry.tsNs

/-- The order that an `OrderIntent` record announces. -/
def JournalEntry.intentId (entry : JournalEntry) : Option ClientOrderId :=
  match entry.recordType with
  | .orderIntent => entry.envelope.newOrder?.map NewOrder.clientOrderId
  | _ => none

/-- The order that a `GatewayAck` or `GatewayReject` record answers. -/
def JournalEntry.answerId (entry : JournalEntry) : Option ClientOrderId :=
  match entry.recordType with
  | .gatewayAck => entry.envelope.answeredId
  | .gatewayReject => entry.envelope.answeredId
  | _ => none

/-- What the surroundings contribute to one call: whether the file opens if it
has to be opened, whether the stream is good after the write, the clock. -/
structure JournalIo where
  opens : Bool := true
  writes : Bool := true
  now : TimestampNs := 0
  deriving DecidableEq, Repr

/-- Sequences from 1 on, and one more. -/
theorem sequences_succ (count : Nat) :
    List.range' 1 (count + 1) = List.range' 1 count ++ [count + 1] := by
  rw [List.range'_concat, Nat.one_mul, Nat.add_comm 1]

structure JournalLog where
  opened : Bool := false
  entries : List JournalEntry := []
  deriving DecidableEq, Repr

def JournalLog.open (journal : JournalLog) (io : JournalIo) : JournalLog × Bool :=
  if journal.opened then (journal, true)
  else if !io.opens then (journal, false)
  else ({ journal with opened := true }, true)

namespace JournalLog

/-- A failed write leaves no complete record. -/
def append (journal : JournalLog) (io : JournalIo) (recordType : JournalRecordType)
    (envelope : Envelope) (sequence : Sequence) : JournalLog × Bool :=
  let (journal, ready) := journal.open io
  if !ready then (journal, false)
  else if payloadPtr envelope.type.code = none ∨ payloadSizeForType envelope.type.code = 0 then
    (journal, false)
  else if !io.writes then (journal, false)
  else
    ({ journal with entries := journal.entries ++ [⟨recordType, envelope, sequence, io.now⟩] },
      true)

/-- The call gets its record into the file. -/
def Writes (journal : JournalLog) (io : JournalIo) : Prop :=
  (journal.opened = true ∨ io.opens = true) ∧ io.writes = true

instance (journal : JournalLog) (io : JournalIo) : Decidable (journal.Writes io) := by
  unfold Writes; infer_instance

/-- The entries of an append: one more, or the same. -/
theorem append_entries (journal : JournalLog) (io : JournalIo) (recordType : JournalRecordType)
    (envelope : Envelope) (sequence : Sequence)
    (supported : payloadSizeForType envelope.type.code ≠ 0) :
    (journal.append io recordType envelope sequence).1.entries =
        journal.entries ++
          (if journal.Writes io then [⟨recordType, envelope, sequence, io.now⟩] else []) ∧
      ((journal.append io recordType envelope sequence).2 = true ↔ journal.Writes io) := by
  have pointer : payloadPtr envelope.type.code ≠ none :=
    fun null => supported ((Wire.payloadPtr_eq_none_iff _).mp null)
  obtain ⟨opens, writes, now⟩ := io
  obtain ⟨opened, entries⟩ := journal
  cases opened <;> cases opens <;> cases writes <;>
    simp [append, JournalLog.open, Writes, pointer, supported]

theorem append_opened (journal : JournalLog) (io : JournalIo) (recordType : JournalRecordType)
    (envelope : Envelope) (sequence : Sequence) (opened : journal.opened = true) :
    (journal.append io recordType envelope sequence).1.opened = true := by
  unfold append JournalLog.open
  simp only [opened, ↓reduceIte, Bool.not_true, Bool.false_eq_true]
  split
  · exact opened
  · split
    · exact opened
    · rfl

/-- The append together with the metric that the writer counts. -/
def record (journal : JournalLog) (metrics : MetricsRegistry) (io : JournalIo)
    (recordType : JournalRecordType) (envelope : Envelope) (sequence : Sequence) :
    JournalLog × MetricsRegistry :=
  let (journal, complete) := journal.append io recordType envelope sequence
  (journal, metrics.incrementIf complete .journalWrites)

/-- A complete record of the intent to send an order. -/
def Intended (journal : JournalLog) (id : ClientOrderId) : Prop :=
  ∃ entry ∈ journal.entries, entry.recordType = .orderIntent ∧
    entry.envelope.newOrder?.map NewOrder.clientOrderId = some id

instance (journal : JournalLog) (id : ClientOrderId) : Decidable (journal.Intended id) := by
  unfold Intended; infer_instance

/-- After the append of an intent it is in the journal if the append worked, or
if it had been there before. -/
theorem append_intended (journal : JournalLog) (io : JournalIo) (order : NewOrder)
    (sequence : Sequence) :
    (journal.append io .orderIntent (.newOrder order) sequence).1.Intended order.clientOrderId ↔
      journal.Writes io ∨ journal.Intended order.clientOrderId := by
  have supported : payloadSizeForType MsgType.newOrder.code ≠ 0 := by decide
  obtain ⟨entries, -⟩ :=
    journal.append_entries io .orderIntent (.newOrder order) sequence supported
  unfold Intended
  rw [entries]
  by_cases writes : journal.Writes io
  · simp [writes, Envelope.newOrder?]
  · simp [writes]

/-! ### The log and the file -/

/-- The file of a writer holds exactly the records of a log. -/
def Represents (journal : JournalLog) (writer : Journal.JournalWriter) : Prop :=
  writer.opened = journal.opened ∧
    writer.file = journal.entries.flatMap (fun entry => entry.call.record.image)

/-- As long as the file system works, an append does to the bytes what it does
to the log. -/
theorem append_represents (journal : JournalLog) (writer : Journal.JournalWriter)
    (io : JournalIo) (recordType : JournalRecordType) (envelope : Envelope)
    (sequence : Sequence) (represents : journal.Represents writer) (opens : io.opens = true)
    (writes : io.writes = true) :
    let entry : JournalEntry := ⟨recordType, envelope, sequence, io.now⟩
    (journal.append io recordType envelope sequence).1.Represents (writer.append entry.call).1 ∧
      (journal.append io recordType envelope sequence).2 = (writer.append entry.call).2 := by
  intro entry
  obtain ⟨opened, file⟩ := represents
  have ready : journal.open io = ({ journal with opened := true }, true) := by
    unfold JournalLog.open
    cases state : journal.opened
    · simp [opens]
    · simp [← state]
  by_cases supported : entry.call.Supported
  · have size : payloadSizeForType envelope.type.code ≠ 0 := supported
    have pointer : payloadPtr envelope.type.code ≠ none :=
      fun null => size ((Wire.payloadPtr_eq_none_iff _).mp null)
    rw [Journal.append_supported writer entry.call supported]
    simp [append, ready, pointer, size, writes, Represents, file, entry]
  · have size : payloadSizeForType envelope.type.code = 0 := not_not.mp supported
    rw [Journal.append_unsupported writer entry.call supported]
    simp [append, ready, size, Represents, file]

end JournalLog
end TradingPlatform
