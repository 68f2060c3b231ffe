import TradingPlatform.JournalRoundTrip

set_option autoImplicit false

/- Several lifetimes of a process on one journal. Each opens the file in append
mode, so what a crash left of a record stays in front of the next session's
records. -/
namespace TradingPlatform.Journal

/-- An append that a crash interrupted: only some of the record's bytes reached
the file. -/
structure Crash where
  call : AppendCall
  reached : Nat
  supported : call.Supported
  incomplete : reached < call.record.image.length

def Crash.bytes (crash : Crash) : List UInt8 := crash.call.record.image.take crash.reached

/-- The appends of one process, and the crash that ended it, if one did. -/
structure Session where
  calls : List AppendCall
  crash : Option Crash

/-- What is left of the interrupted append. -/
def Session.torn (session : Session) : List UInt8 :=
  match session.crash with
  | none => []
  | some crash => crash.bytes

/-- Run a session on the file it finds; the records whose append returned true. -/
def Session.run (session : Session) (file : List UInt8) : List UInt8 × List JournalRecord :=
  let (writer, completed) := appendAll { file := file } session.calls
  (writer.file ++ session.torn, completed.map (fun entry => entry.1.record))

def runSessions (file : List UInt8) : List Session → List UInt8 × List JournalRecord
  | [] => (file, [])
  | session :: sessions =>
      let (file, completed) := session.run file
      let (final, later) := runSessions file sessions
      (final, completed ++ later)

/-- Every record whose append returned true is read back, in order. -/
def Durable (sessions : List Session) : Prop :=
  (runSessions [] sessions).2.Sublist (readAll (runSessions [] sessions).1)

instance (sessions : List Session) : Decidable (Durable sessions) := by
  unfold Durable; infer_instance

/-- The appends of a session that return true. -/
def Session.completed (session : Session) : List AppendCall :=
  session.calls.filter AppendCall.Supported

/-- No append completes behind the torn bytes of an earlier session. -/
def NoAppendBehindTear (sessions : List Session) : Prop :=
  sessions.Pairwise (fun earlier later => earlier.torn ≠ [] → later.completed = [])

instance (sessions : List Session) : Decidable (NoAppendBehindTear sessions) := by
  unfold NoAppendBehindTear; infer_instance

/-! ### What the file holds -/

theorem Session.run_eq (session : Session) (file : List UInt8) :
    session.run file =
      (file ++ ((session.completed.map AppendCall.record).flatMap JournalRecord.image ++
        session.torn), session.completed.map AppendCall.record) := by
  obtain ⟨bytes, completed⟩ := appendAll_eq { file := file } session.calls
  have records : (appendAll { file := file } session.calls).2.map (fun entry => entry.1.record) =
      session.completed.map AppendCall.record := by
    have calls := congrArg (List.map Prod.fst) completed
    rw [Framing.ends_map_fst] at calls
    rw [Session.completed, ← calls, List.map_map]
    rfl
  simp only [Session.run, bytes, records, Session.completed, List.flatMap_map, List.append_assoc]

theorem runSessions_records (file : List UInt8) (sessions : List Session) :
    (runSessions file sessions).2 =
      sessions.flatMap (fun session => session.completed.map AppendCall.record) := by
  induction sessions generalizing file with
  | nil => rfl
  | cons session sessions ih =>
      rw [runSessions, session.run_eq, List.flatMap_cons]
      exact congrArg (List.append _) (ih _)

/-- Under the condition every completed record stands in front of every torn
byte. -/
theorem runSessions_file (file : List UInt8) (sessions : List Session)
    (condition : NoAppendBehindTear sessions) :
    ∃ tail, (runSessions file sessions).1 =
        file ++ ((runSessions file sessions).2.flatMap JournalRecord.image ++ tail) := by
  induction sessions generalizing file with
  | nil => exact ⟨[], by simp [runSessions]⟩
  | cons session sessions ih =>
      obtain ⟨first, others⟩ := List.pairwise_cons.mp condition
      obtain ⟨tail, later⟩ := ih (session.run file).1 others
      have records : (runSessions file (session :: sessions)).2 =
          session.completed.map AppendCall.record ++
            (runSessions (session.run file).1 sessions).2 := by
        rw [runSessions, session.run_eq]
      have final : (runSessions file (session :: sessions)).1 =
          (runSessions (session.run file).1 sessions).1 := rfl
      rw [final, records, later, List.flatMap_append, session.run_eq]
      by_cases whole : session.torn = []
      · refine ⟨tail, ?_⟩
        simp only [whole, List.append_nil, List.append_assoc]
      · -- nothing is completed any more, so the torn bytes join the tail
        have nothing : (runSessions (session.run file).1 sessions).2 = [] := by
          rw [runSessions_records]
          apply List.flatMap_eq_nil_iff.mpr
          intro other member
          rw [first other member whole, List.map_nil]
        rw [session.run_eq] at nothing
        refine ⟨session.torn ++ tail, ?_⟩
        simp only [nothing, List.flatMap_nil, List.append_nil, List.nil_append, List.append_assoc]

theorem runSessions_sound (file : List UInt8) (sessions : List Session) :
    ∀ record ∈ (runSessions file sessions).2, record.Sound := by
  intro record member
  rw [runSessions_records] at member
  obtain ⟨session, -, inside⟩ := List.mem_flatMap.mp member
  obtain ⟨call, accepted, rfl⟩ := List.mem_map.mp inside
  exact call.record_sound (of_decide_eq_true (List.mem_filter.mp accepted).2)

/-! ### Recovery -/

/-- No completed record is lost as long as no append completes behind the torn
bytes of an earlier session. -/
theorem durable_of_noAppendBehindTear (sessions : List Session)
    (condition : NoAppendBehindTear sessions) : Durable sessions := by
  obtain ⟨tail, file⟩ := runSessions_file [] sessions condition
  have sound := runSessions_sound [] sessions
  unfold Durable readAll
  rw [readAll_eq_parse, file, List.nil_append]
  exact (reads_records.prefix_parse _ sound tail _ (Nat.lt_succ_self _)).sublist

/-- The risk-checked order that the OMS journals under some sequence. -/
def orderIntent (sequence : UInt64) : AppendCall where
  recordType := JournalRecordType.orderIntent.code
  envelope := Wire.Envelope.overwrite MsgType.newOrder.code []
  sequence := sequence
  tsNs := 0

/-- One order is journaled, the next one torn after 20 bytes by a crash. -/
def tornSession : Session where
  calls := [orderIntent 1]
  crash := some ⟨orderIntent 2, 20, by decide, by decide +kernel⟩

theorem durable_last_crash :
    Durable [{ calls := [orderIntent 0], crash := none }, tornSession] :=
  durable_of_noAppendBehindTear _ (by decide +kernel)

/-- The restarted process appends behind the torn bytes, and the reader never
gets there. -/
theorem record_lost_behind_tear :
    ¬ Durable [tornSession, { calls := [orderIntent 3], crash := none }] := by
  decide +kernel

end TradingPlatform.Journal
