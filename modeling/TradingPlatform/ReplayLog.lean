import Mathlib.Data.List.TakeWhile
import TradingPlatform.Metrics
import TradingPlatform.ReplayFile

set_option autoImplicit false

/- Replay files as the nodes see them: a list of events, each a header and an
envelope. -/
namespace TradingPlatform

open Replay (ReplayRecordHeader RawEvent)

structure ReplayEvent where
  header : ReplayRecordHeader := {}
  envelope : Envelope := .unknown
  deriving DecidableEq, Repr

/-- The event as it is laid out in memory and on disk. -/
def ReplayEvent.raw (event : ReplayEvent) : RawEvent where
  header := event.header
  envelope := Wire.envelopeImage event.envelope
  sized := Wire.envelopeImage_length event.envelope

/-- What the surroundings contribute to one append: whether its writes succeed,
and the timestamp the caller has read. -/
structure ReplayIo where
  writes : Bool := true
  now : TimestampNs := 0
  /-- How many bytes of the event reach the file when a write fails. -/
  torn : Nat := 0
  deriving DecidableEq, Repr

/-- The same, for the writer of the bytes. -/
def ReplayIo.fault (io : ReplayIo) : Replay.WriteFault where
  failsAfter := if io.writes then none else some io.torn

/-- A writer in truncate mode. -/
structure ReplayLog where
  nodeRole : NodeRole
  opened : Bool := false
  /-- The events whose appends have succeeded. -/
  events : List ReplayEvent := []
  /-- All bytes of the file. -/
  file : List UInt8 := (events.map ReplayEvent.raw).flatMap RawEvent.image
  deriving DecidableEq, Repr

/-- The caller does not look at whether the file could be opened. -/
def ReplayLog.open (log : ReplayLog) (opens : Bool) : ReplayLog :=
  if opens then { log with opened := true, events := [], file := [] } else log

namespace ReplayLog

/-- The event of an append. -/
def eventFor (log : ReplayLog) (envelope : Envelope) (sequence : Sequence)
    (timestamp : TimestampNs) : ReplayEvent where
  header := {
    nodeRole := log.nodeRole.code
    sequence := UInt64.ofNat sequence
    timestampNs := UInt64.ofNat timestamp
    messageType := envelope.type.code
    checksum := Wire.checksum (Wire.envelopeImage envelope) }
  envelope := envelope

/-- The log with one more event. -/
def put (log : ReplayLog) (event : ReplayEvent) : ReplayLog :=
  { log with events := log.events ++ [event], file := log.file ++ event.raw.image }

@[simp] theorem put_nodeRole (log : ReplayLog) (event : ReplayEvent) :
    (log.put event).nodeRole = log.nodeRole := rfl

@[simp] theorem put_opened (log : ReplayLog) (event : ReplayEvent) :
    (log.put event).opened = log.opened := rfl

@[simp] theorem put_events (log : ReplayLog) (event : ReplayEvent) :
    (log.put event).events = log.events ++ [event] := rfl

@[simp] theorem put_file (log : ReplayLog) (event : ReplayEvent) :
    (log.put event).file = log.file ++ event.raw.image := rfl

/-- An append that fails leaves a part of its event in the file. -/
def append (log : ReplayLog) (io : ReplayIo) (envelope : Envelope) (sequence : Sequence) :
    ReplayLog × Bool :=
  let event := log.eventFor envelope sequence io.now
  if !log.opened then (log, false)
  else if !io.writes then
    ({ log with file := log.file ++ event.raw.image.dropLast.take io.torn }, false)
  else (log.put event, true)

/-- The append together with the metric that the writer counts. -/
def record (log : ReplayLog) (metrics : MetricsRegistry) (io : ReplayIo) (envelope : Envelope)
    (sequence : Sequence) : ReplayLog × MetricsRegistry :=
  let (log, complete) := log.append io envelope sequence
  (log, metrics.incrementIf complete .replayEventsWritten)

theorem append_writes (log : ReplayLog) (io : ReplayIo) (envelope : Envelope)
    (sequence : Sequence) (opened : log.opened = true) (writes : io.writes = true) :
    log.append io envelope sequence = (log.put (log.eventFor envelope sequence io.now), true) := by
  simp [append, opened, writes]

/-- The envelopes recorded so far. -/
def envelopes (log : ReplayLog) : List Envelope :=
  log.events.map ReplayEvent.envelope

@[simp] theorem record_envelopes (log : ReplayLog) (metrics : MetricsRegistry) (io : ReplayIo)
    (envelope : Envelope) (sequence : Sequence) (opened : log.opened = true)
    (writes : io.writes = true) :
    (log.record metrics io envelope sequence).1.envelopes = log.envelopes ++ [envelope] := by
  simp [record, append_writes log io envelope sequence opened writes, envelopes, eventFor]

@[simp] theorem record_opened (log : ReplayLog) (metrics : MetricsRegistry) (io : ReplayIo)
    (envelope : Envelope) (sequence : Sequence) :
    (log.record metrics io envelope sequence).1.opened = log.opened := by
  unfold record append
  cases opened : log.opened <;> cases writes : io.writes <;> simp [opened]

end ReplayLog

/-! ### Reading -/

/-- The events that a reader accepts. -/
def ReplayEvent.Sound (event : ReplayEvent) : Prop := event.raw.Sound

instance (event : ReplayEvent) : Decidable event.Sound := by
  unfold ReplayEvent.Sound; infer_instance

/-- `ReplayReader::next` on the events of a file. -/
def ReplayEvent.next : List ReplayEvent → Option (ReplayEvent × List ReplayEvent)
  | [] => none
  | event :: rest =>
      if ¬ event.header.Valid then none
      else if Wire.checksum (Wire.envelopeImage event.envelope) ≠ event.header.checksum then none
      else some (event, rest)

namespace ReplayLog

/-- What `while (auto event = reader.next())` sees of the file. -/
def read (log : ReplayLog) : List ReplayEvent :=
  Framing.parse ReplayEvent.next (log.events.length + 1) log.events

theorem next_cons (event : ReplayEvent) (rest : List ReplayEvent) :
    ReplayEvent.next (event :: rest) = if event.Sound then some (event, rest) else none := by
  unfold ReplayEvent.next ReplayEvent.Sound RawEvent.Sound
  by_cases valid : event.header.Valid
  · by_cases checksum :
        Wire.checksum (Wire.envelopeImage event.envelope) = event.header.checksum
    · simp [valid, checksum, ReplayEvent.raw]
    · simp [valid, checksum, ReplayEvent.raw]
  · simp [valid, ReplayEvent.raw]

theorem read_eq_takeWhile (log : ReplayLog) :
    log.read = log.events.takeWhile (fun event => event.Sound) := by
  unfold read
  induction log.events with
  | nil => rfl
  | cons event rest ih =>
      rw [List.length_cons, Framing.parse, next_cons]
      by_cases sound : event.Sound
      · simp only [sound, ↓reduceIte, ih, List.takeWhile_cons_of_pos, decide_true]
      · simp only [sound, ↓reduceIte, decide_false, Bool.false_eq_true, not_false_eq_true,
          List.takeWhile_cons_of_neg]

/-- The bytes of the events. -/
def image (log : ReplayLog) : List UInt8 :=
  (log.events.map ReplayEvent.raw).flatMap RawEvent.image

/-- No failed append has left bytes behind. -/
def Intact (log : ReplayLog) : Prop := log.file = log.image

/-- Reading the bytes delivers the same events. -/
theorem readAll_file (log : ReplayLog) (intact : log.Intact) :
    Replay.readAll log.file = log.read.map ReplayEvent.raw := by
  rw [intact, image, Replay.readAll_images, read_eq_takeWhile, List.takeWhile_map]
  rfl

theorem open_intact (log : ReplayLog) (opens : Bool) (intact : log.Intact) :
    (log.open opens).Intact := by
  cases opens with
  | false => exact intact
  | true => rfl

theorem put_intact (log : ReplayLog) (event : ReplayEvent) (intact : log.Intact) :
    (log.put event).Intact := by
  unfold Intact image at intact ⊢
  rw [put_file, put_events, List.map_append, List.flatMap_append, intact]
  simp

theorem append_intact (log : ReplayLog) (io : ReplayIo) (envelope : Envelope)
    (sequence : Sequence) (intact : log.Intact) (writes : io.writes = true) :
    (log.append io envelope sequence).1.Intact := by
  cases opened : log.opened with
  | false => simpa [append, opened] using intact
  | true =>
      rw [append_writes log io envelope sequence opened writes]
      exact log.put_intact _ intact

/-- The appends put sound events into the file. -/
theorem eventFor_sound (log : ReplayLog) (envelope : Envelope) (sequence : Sequence)
    (timestamp : TimestampNs) : (log.eventFor envelope sequence timestamp).Sound := by
  refine ⟨⟨rfl, rfl, ?_, ?_⟩, ?_⟩
  · simp only [ReplayEvent.raw, eventFor, Replay.headerCodec_width]
    rfl
  · simp only [ReplayEvent.raw, eventFor]
  · simp only [ReplayEvent.raw, eventFor]

/-- Every event of the file is sound. -/
def Sound (log : ReplayLog) : Prop := ∀ event ∈ log.events, event.Sound

theorem record_sound (log : ReplayLog) (metrics : MetricsRegistry) (io : ReplayIo)
    (envelope : Envelope) (sequence : Sequence) (sound : log.Sound) :
    (log.record metrics io envelope sequence).1.Sound := by
  unfold record append
  cases log.opened with
  | false => exact sound
  | true =>
    cases io.writes with
    | false => exact sound
    | true =>
      show ∀ event ∈ log.events ++ [log.eventFor envelope sequence io.now], event.Sound
      rw [List.forall_mem_append, List.forall_mem_singleton]
      exact ⟨sound, log.eventFor_sound envelope sequence io.now⟩

theorem read_sound (log : ReplayLog) (sound : log.Sound) : log.read = log.events := by
  rw [read_eq_takeWhile, List.takeWhile_eq_self_iff]
  exact fun event member => decide_eq_true (sound event member)

/-- An append does to the bytes what `append_event` does, whether it works or not. -/
theorem append_file (log : ReplayLog) (writer : Replay.FileWriter) (io : ReplayIo)
    (envelope : Envelope) (sequence : Sequence) (opened : writer.opened = log.opened)
    (file : writer.file = log.file) :
    let (next, complete) := log.append io envelope sequence
    let (written, reported) :=
      writer.appendEvent (log.eventFor envelope sequence io.now).raw io.fault
    written.file = next.file ∧ reported = complete := by
  unfold append Replay.FileWriter.appendEvent ReplayIo.fault
  cases state : log.opened with
  | false => simp [opened, state, file]
  | true => cases writes : io.writes <;> simp [opened, state, file]

end ReplayLog
end TradingPlatform
