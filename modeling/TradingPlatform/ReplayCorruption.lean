import TradingPlatform.ReplayLog

set_option autoImplicit false

/- One byte of a replay file replaced on disk. The reader checks the ends of a
header and the whole envelope; the eighteen bytes in between it takes as they are. -/
namespace TradingPlatform
namespace Replay

open ByteCodec.Codec

/-! ### The bytes of a header -/

/-- What is checked in front of the node role. -/
def frontCodec : ByteCodec.Codec (UInt32 × UInt16 × UInt16) := pair u32 (pair u16 u16)

def middleCodec : ByteCodec.Codec (UInt8 × UInt64 × UInt64 × UInt8) :=
  pair u8 (pair u64 (pair u64 u8))

/-- What is checked behind the message type. -/
def backCodec : ByteCodec.Codec (UInt32 × UInt32) := pair u32 u32

section Header

variable (header : ReplayRecordHeader)

def ReplayRecordHeader.front : List UInt8 :=
  frontCodec.encode (header.magic, header.version, header.headerSize)

def ReplayRecordHeader.middle : List UInt8 :=
  middleCodec.encode (header.nodeRole, header.sequence, header.timestampNs, header.messageType)

def ReplayRecordHeader.back : List UInt8 :=
  backCodec.encode (header.payloadSize, header.checksum)

theorem front_length : header.front.length = 8 := frontCodec.encode_length _

theorem middle_length : header.middle.length = 18 := middleCodec.encode_length _

theorem encode_parts : headerCodec.encode header = header.front ++ (header.middle ++ header.back) := by
  show u32.encode _ ++ (u16.encode _ ++ (u16.encode _ ++ (u8.encode _ ++ (u64.encode _ ++
    (u64.encode _ ++ (u8.encode _ ++ (u32.encode _ ++ u32.encode _))))))) =
      (u32.encode _ ++ (u16.encode _ ++ u16.encode _)) ++
        ((u8.encode _ ++ (u64.encode _ ++ (u64.encode _ ++ u8.encode _))) ++
          (u32.encode _ ++ u32.encode _))
  simp only [List.append_assoc]
  rfl

theorem front_eq : header.front = (headerCodec.encode header).take 8 := by
  rw [encode_parts, List.take_left' (front_length header)]

theorem back_eq : header.back = (headerCodec.encode header).drop 26 := by
  have width : (header.front ++ header.middle).length = 26 := by
    rw [List.length_append, front_length, middle_length]
  rw [encode_parts, ← List.append_assoc, List.drop_left' width]

end Header

/-- The checks of a header and of the checksum see its ends only. -/
theorem sound_iff_ends (event : RawEvent) (sound : event.Sound) (header : ReplayRecordHeader) :
    RawEvent.Sound { event with header } ↔
      header.front = event.header.front ∧ header.back = event.header.back := by
  obtain ⟨⟨magic, version, headerSize, payloadSize⟩, checksum⟩ := sound
  constructor
  · rintro ⟨⟨magic', version', headerSize', payloadSize'⟩, checksum'⟩
    dsimp only at magic' version' headerSize' payloadSize' checksum'
    unfold ReplayRecordHeader.front ReplayRecordHeader.back
    rw [magic', version', headerSize', payloadSize', ← checksum', magic, version, headerSize,
      payloadSize, checksum]
    exact ⟨rfl, rfl⟩
  · rintro ⟨front, back⟩
    have fronts := frontCodec.encode_injective front
    have backs := backCodec.encode_injective back
    simp only [Prod.mk.injEq] at fronts backs
    exact ⟨⟨fronts.1.trans magic, fronts.2.1.trans version, fronts.2.2.trans headerSize,
      backs.1.trans payloadSize⟩, checksum.trans backs.2.symm⟩

/-! ### One byte of an event -/

namespace RawEvent

/-- The event with one byte of its image replaced. -/
def alter (event : RawEvent) (offset : Nat) (byte : UInt8) : RawEvent :=
  if offset < 34 then { event with header := headerCodec.alter event.header offset byte }
  else
    { event with
      envelope := event.envelope.set (offset - 34) byte
      sized := by rw [List.length_set, event.sized] }

variable (event : RawEvent) (offset : Nat) (byte : UInt8)

theorem image_alter : (event.alter offset byte).image = event.image.set offset byte := by
  have width := headerCodec.encode_length event.header
  rw [headerCodec_width] at width
  unfold alter image
  by_cases inside : offset < 34
  · rw [if_pos inside, List.set_append_left _ _ (by omega), encode_alter]
  · rw [if_neg inside, List.set_append_right _ _ (by omega), width]

/-- An event with one byte replaced is accepted exactly if the byte lies between
the ends of the header. -/
theorem alter_sound_iff (sound : event.Sound)
    (changed : event.image.set offset byte ≠ event.image) :
    (event.alter offset byte).Sound ↔ 8 ≤ offset ∧ offset < 26 := by
  have width := headerCodec.encode_length event.header
  rw [headerCodec_width] at width
  unfold image at changed
  unfold alter
  by_cases inside : offset < 34
  · rw [List.set_append_left _ _ (by omega)] at changed
    rw [if_pos inside, sound_iff_ends event sound, front_eq, back_eq, front_eq, back_eq,
      encode_alter]
    constructor
    · rintro ⟨front, back⟩
      by_contra outside
      apply changed
      congr 1
      rcases Nat.lt_or_ge offset 8 with early | late
      · rw [← List.take_append_drop 8 ((headerCodec.encode event.header).set offset byte), front,
          List.drop_set_of_lt early, List.take_append_drop]
      · rw [← List.take_append_drop 26 ((headerCodec.encode event.header).set offset byte), back,
          List.take_set_of_le (by omega), List.take_append_drop]
    · rintro ⟨late, early⟩
      exact ⟨List.take_set_of_le late, List.drop_set_of_lt early⟩
  · rw [List.set_append_right _ _ (by omega), width] at changed
    have different : event.envelope.set (offset - 34) byte ≠ event.envelope := by
      intro same
      exact changed (by rw [same])
    rw [if_neg inside]
    constructor
    · rintro ⟨-, checksum⟩
      exact absurd (checksum.trans sound.2.symm)
        (Wire.checksum_set event.envelope (offset - 34) byte different)
    · rintro ⟨late, early⟩
      omega

end RawEvent

/-! ### A whole file -/

theorem images_length (events : List RawEvent) :
    (events.flatMap RawEvent.image).length = 146 * events.length := by
  induction events with
  | nil => rfl
  | cons event events ih =>
      rw [List.flatMap_cons, List.length_append, RawEvent.image_length, ih, List.length_cons]
      omega

theorem modify_middle (before after : List RawEvent) (event : RawEvent)
    (change : RawEvent → RawEvent) :
    (before ++ event :: after).modify before.length change = before ++ change event :: after := by
  induction before with
  | nil => rfl
  | cons first before ih =>
      rw [List.cons_append, List.length_cons, List.modify_succ_cons, ih, List.cons_append]

/-- Whole events come first, whatever follows them. -/
theorem readAll_front (events : List RawEvent) (sound : ∀ event ∈ events, event.Sound)
    (rest : List UInt8) :
    readAll (events.flatMap RawEvent.image ++ rest) = events ++ readAll rest :=
  reads_events.parse_append events sound rest _ (Nat.lt_succ_self _)

/-- A file that begins with whole events, one byte of them replaced: a byte between
the ends of a header changes that header alone, and any other ends the reading in
front of its event. -/
theorem readAll_set (events : List RawEvent) (sound : ∀ event ∈ events, event.Sound)
    (rest : List UInt8) (position : Nat) (byte : UInt8)
    (inside : position < (events.flatMap RawEvent.image).length)
    (changed : (events.flatMap RawEvent.image ++ rest).set position byte ≠
      events.flatMap RawEvent.image ++ rest) :
    readAll ((events.flatMap RawEvent.image ++ rest).set position byte) =
      if 8 ≤ position % 146 ∧ position % 146 < 26 then
        events.modify (position / 146) (fun event => event.alter (position % 146) byte) ++
          readAll rest
      else events.take (position / 146) := by
  rw [List.set_append_left _ _ inside] at changed ⊢
  obtain ⟨before, event, after, offset, rfl, place, bound⟩ :=
    Framing.locate RawEvent.image events position inside
  have replaced := Framing.set_frames RawEvent.image before after event offset byte bound
  rw [images_length] at place
  rw [RawEvent.image_length] at bound
  have number : position / 146 = before.length := by omega
  have within : position % 146 = offset := by omega
  have own : event.Sound := sound event (by simp)
  have front : ∀ other ∈ before, other.Sound :=
    fun other member => sound other (List.mem_append_left _ member)
  have back : ∀ other ∈ after, other.Sound := fun other member =>
    sound other (List.mem_append_right _ (List.mem_cons_of_mem _ member))
  rw [images_length, ← place] at replaced
  have different : event.image.set offset byte ≠ event.image := by
    intro same
    apply changed
    rw [replaced, same, List.flatMap_append, List.flatMap_cons]
  have accepted := event.alter_sound_iff offset byte own different
  have whole : (before.flatMap RawEvent.image ++
      (event.image.set offset byte ++ after.flatMap RawEvent.image)) ++ rest =
      before.flatMap RawEvent.image ++
        ((event.alter offset byte).image ++ (after.flatMap RawEvent.image ++ rest)) := by
    rw [event.image_alter offset byte]
    simp only [List.append_assoc]
  rw [replaced, whole, readAll_front before front, number, within]
  by_cases unchecked : 8 ≤ offset ∧ offset < 26
  · have altered : ∀ other ∈ event.alter offset byte :: after, other.Sound := by
      rw [List.forall_mem_cons]
      exact ⟨accepted.mpr unchecked, back⟩
    have read := readAll_front (event.alter offset byte :: after) altered rest
    rw [List.flatMap_cons, List.append_assoc] at read
    rw [if_pos unchecked, modify_middle, read, List.append_assoc]
  · have stops : readAll ((event.alter offset byte).image ++
        (after.flatMap RawEvent.image ++ rest)) = [] := by
      rw [readAll, Framing.parse, next_image, if_neg (mt accepted.mp unchecked)]
    rw [if_neg unchecked, stops, List.append_nil, List.take_left]

end Replay

/-! ### The files of the writers -/

/-- A call of `append`. -/
structure ReplayCall where
  envelope : Envelope
  sequence : Sequence := 0
  io : ReplayIo := {}
  deriving DecidableEq, Repr

namespace ReplayLog

def appendAll (log : ReplayLog) (calls : List ReplayCall) : ReplayLog :=
  calls.foldl (fun log call => (log.append call.io call.envelope call.sequence).1) log

theorem appendAll_append (log : ReplayLog) (first rest : List ReplayCall) :
    log.appendAll (first ++ rest) = (log.appendAll first).appendAll rest :=
  List.foldl_append

theorem appendAll_sound (calls : List ReplayCall) (log : ReplayLog) (sound : log.Sound) :
    (log.appendAll calls).Sound := by
  induction calls generalizing log with
  | nil => exact sound
  | cons call calls ih =>
      apply ih
      exact log.record_sound {} call.io call.envelope call.sequence sound

theorem appendAll_intact (calls : List ReplayCall) (log : ReplayLog) (intact : log.Intact)
    (writes : ∀ call ∈ calls, call.io.writes = true) : (log.appendAll calls).Intact := by
  induction calls generalizing log with
  | nil => exact intact
  | cons call calls ih =>
      obtain ⟨now, later⟩ := List.forall_mem_cons.mp writes
      exact ih _ (log.append_intact call.io call.envelope call.sequence intact now) later

/-- An append takes nothing back. -/
theorem prefix_appendAll (calls : List ReplayCall) (log : ReplayLog) :
    log.file <+: (log.appendAll calls).file := by
  induction calls generalizing log with
  | nil => exact List.prefix_refl _
  | cons call calls ih =>
      have first : log.file <+: (log.append call.io call.envelope call.sequence).1.file := by
        cases opened : log.opened with
        | false => simp [append, opened]
        | true =>
            cases writes : call.io.writes with
            | false => simp [append, opened, writes]
            | true => simp [append, opened, writes]
      exact first.trans (ih _)

/-- The appends in front of the first one that fails. -/
def whole (calls : List ReplayCall) : List ReplayCall := calls.takeWhile fun call => call.io.writes

/-- Whatever has been appended, and whichever writes have failed. In the events in
front of the first failure, which is all of the file if there is none, one byte
replaced shows in a single header, when it is one of the eighteen behind the sizes
and in front of the payload size, and hides its event and all later ones
otherwise; the events in front of it are read. A byte behind those events leaves
them as they are. -/
theorem altered_replay (nodeRole : NodeRole) (opens : Bool) (calls : List ReplayCall)
    (position : Nat) (byte : UInt8) :
    let log := (ReplayLog.open { nodeRole } opens).appendAll calls
    let front := (ReplayLog.open { nodeRole } opens).appendAll (whole calls)
    let events := front.events.map ReplayEvent.raw
    let rest := log.file.drop front.file.length
    log.file = front.file ++ rest ∧
      Replay.readAll log.file = events ++ Replay.readAll rest ∧
      (log.file.set position byte ≠ log.file →
        Replay.readAll (log.file.set position byte) =
          if position < front.file.length then
            if 8 ≤ position % 146 ∧ position % 146 < 26 then
              events.modify (position / 146) (fun event => event.alter (position % 146) byte) ++
                Replay.readAll rest
            else events.take (position / 146)
          else events ++ Replay.readAll (rest.set (position - front.file.length) byte)) := by
  intro log front events rest
  have begun : (ReplayLog.open { nodeRole } opens).Sound := by
    cases opens <;> simp [ReplayLog.open, Sound]
  have sound : ∀ event ∈ events, event.Sound := by
    intro event member
    obtain ⟨stored, listed, rfl⟩ := List.mem_map.mp member
    exact appendAll_sound (whole calls) _ begun stored listed
  have bytes : front.file = events.flatMap Replay.RawEvent.image := by
    apply appendAll_intact (whole calls) _ (open_intact { nodeRole } opens rfl)
    intro call member
    have writes := List.mem_takeWhile_imp member
    exact writes
  have grown : front.file <+: log.file := by
    have split : log = front.appendAll (calls.dropWhile fun call => call.io.writes) := by
      rw [← appendAll_append]
      exact congrArg _ (List.takeWhile_append_dropWhile).symm
    rw [split]
    exact prefix_appendAll _ _
  have file : log.file = front.file ++ rest := (List.prefix_iff_eq_append.mp grown).symm
  refine ⟨file, ?_, ?_⟩
  · rw [file, bytes]
    exact Replay.readAll_front events sound rest
  · intro changed
    by_cases inside : position < front.file.length
    · rw [if_pos inside]
      rw [file, bytes] at changed ⊢
      rw [bytes] at inside
      exact Replay.readAll_set events sound rest position byte inside changed
    · rw [if_neg inside, file, List.set_append_right _ _ (by omega), bytes]
      exact Replay.readAll_front events sound _

/-- Two heartbeats and a third one whose write fails, then a fourth. -/
def heartbeats : List ReplayCall :=
  [{ envelope := .heartbeat {}, sequence := 1 }, { envelope := .heartbeat {}, sequence := 2 },
    { envelope := .heartbeat {}, sequence := 3, io := { writes := false, torn := 40 } },
    { envelope := .heartbeat {}, sequence := 4 }]

/-- The sequence of the first one is replaced, or the version of the second. What is
torn ends the reading. -/
theorem altered_replay_heartbeats :
    let log := (ReplayLog.open { nodeRole := .oms } true).appendAll heartbeats
    log.file.length = 146 * 3 + 40 ∧
      (Replay.readAll log.file).map (fun event => event.header.sequence) = [1, 2] ∧
      (Replay.readAll (log.file.set 9 7)).map (fun event => event.header.sequence) = [7, 2] ∧
      (Replay.readAll (log.file.set 150 7)).map (fun event => event.header.sequence) = [1] := by
  intro log
  have early := (altered_replay .oms true heartbeats 9 7).2.2 (by decide +kernel)
  have later := (altered_replay .oms true heartbeats 150 7).2.2 (by decide +kernel)
  refine ⟨by decide +kernel, ?_, ?_, ?_⟩
  · rw [(altered_replay .oms true heartbeats 9 7).2.1]
    decide +kernel
  · rw [early]
    decide +kernel
  · rw [later]
    decide +kernel

end ReplayLog
end TradingPlatform
