import TradingPlatform.Library.History
import TradingPlatform.OmsNode
import TradingPlatform.StrategyNode

set_option autoImplicit false

/- The counters of the nodes against what the nodes have appended to their files.
A writer counts its appends, and so does whoever calls it. -/
namespace TradingPlatform

open Transducer

namespace MetricsRegistry

theorem counter_increment (registry : MetricsRegistry) (counted counter : MetricCounter) :
    (registry.increment counted).counter counter =
      registry.counter counter + if counted = counter then 1 else 0 := by
  unfold MetricsRegistry.counter increment
  by_cases same : counted = counter
  · subst same
    simp [MetricsRegistry.counter]
  · have apart : counted.index.val ≠ counter.index.val := by
      intro equal
      exact same (by cases counted <;> cases counter <;> first | rfl | exact absurd equal (by decide))
    simp [same, Vector.getElem_set_ne, apart]

end MetricsRegistry

/-- The file calls of a step succeed. -/
def NodeInput.Succeeds (input : NodeInput) : Prop :=
  input.journal.opens = true ∧ input.journal.writes = true ∧ input.replay.writes = true

instance (input : NodeInput) : Decidable input.Succeeds := by
  unfold NodeInput.Succeeds; infer_instance

/-- The counters of a node and the lengths of its two files. -/
structure Appended where
  metrics : MetricsRegistry
  journal : Nat
  replay : Nat

namespace Appended

/-- The counters are the numbers of appends, to a journal with some records in it
and to an empty replay file. -/
def Agrees (held : Nat) (appended : Appended) : Prop :=
  (appended.metrics.counter .journalWrites).toNat + held = appended.journal ∧
    (appended.metrics.counter .replayEventsWritten).toNat = appended.replay

instance (held : Nat) (appended : Appended) : Decidable (appended.Agrees held) := by
  unfold Agrees; infer_instance

/-- What a step does to the files and to their counters; the last argument says
whether it appends. -/
inductive Step (before after : Appended) : Bool → Prop
  | none (journal : after.journal = before.journal) (replay : after.replay = before.replay)
      (journalWrites : after.metrics.counter .journalWrites =
        before.metrics.counter .journalWrites)
      (replayEventsWritten : after.metrics.counter .replayEventsWritten =
        before.metrics.counter .replayEventsWritten) : Step before after false
  | journal (journal : after.journal = before.journal + 1)
      (replay : after.replay = before.replay)
      (journalWrites : after.metrics.counter .journalWrites =
        before.metrics.counter .journalWrites + 1 + 1)
      (replayEventsWritten : after.metrics.counter .replayEventsWritten =
        before.metrics.counter .replayEventsWritten) : Step before after true
  | replay (journal : after.journal = before.journal)
      (replay : after.replay = before.replay + 1)
      (journalWrites : after.metrics.counter .journalWrites =
        before.metrics.counter .journalWrites)
      (replayEventsWritten : after.metrics.counter .replayEventsWritten =
        before.metrics.counter .replayEventsWritten + 1 + 1) : Step before after true

/-- Every append has been counted twice. -/
structure Doubled (held : Nat) (appended : Appended) : Prop where
  before : held ≤ appended.journal
  journalWrites : appended.metrics.counter .journalWrites =
    UInt64.ofNat (2 * (appended.journal - held))
  replayEventsWritten : appended.metrics.counter .replayEventsWritten =
    UInt64.ofNat (2 * appended.replay)

theorem Doubled.step {held : Nat} {before after : Appended} {appends : Bool}
    (doubled : Doubled held before) (step : Step before after appends) : Doubled held after := by
  obtain ⟨start, journalWrites, replayEventsWritten⟩ := doubled
  have one : (1 : UInt64) = UInt64.ofNat 1 := rfl
  cases step with
  | none journal replay counted recorded =>
      refine ⟨journal ▸ start, ?_, ?_⟩
      · rw [counted, journal, journalWrites]
      · rw [recorded, replay, replayEventsWritten]
  | journal journal replay counted recorded =>
      refine ⟨by omega, ?_, ?_⟩
      · rw [counted, journal, journalWrites, one, ← UInt64.ofNat_add, ← UInt64.ofNat_add]
        congr 1
        omega
      · rw [recorded, replay, replayEventsWritten]
  | replay journal replay counted recorded =>
      refine ⟨by omega, ?_, ?_⟩
      · rw [counted, journal, journalWrites]
      · rw [recorded, replay, replayEventsWritten, one, ← UInt64.ofNat_add, ← UInt64.ofNat_add]
        congr 1

/-- A number and its double are the same 64-bit counter only when both are zero. -/
theorem double_iff (count : Nat) : (UInt64.ofNat (2 * count)).toNat = count ↔ count = 0 := by
  rw [UInt64.toNat_ofNat']
  omega

theorem Doubled.agrees_iff {held : Nat} {appended : Appended}
    (doubled : Doubled held appended) :
    appended.Agrees held ↔ appended.journal = held ∧ appended.replay = 0 := by
  have start := doubled.before
  have journal := double_iff (appended.journal - held)
  unfold Agrees
  rw [doubled.journalWrites, doubled.replayEventsWritten, double_iff]
  apply and_congr_left'
  constructor
  · intro same
    have none := journal.mp (by omega)
    omega
  · intro same
    have none := journal.mpr (by omega)
    omega

/-- Nothing is appended by a step that is no append, and only by such a step. -/
theorem Step.untouched_iff {held : Nat} {before after : Appended} {appends : Bool}
    (step : Step before after appends) (start : held ≤ before.journal) :
    (after.journal = held ∧ after.replay = 0) ↔
      (before.journal = held ∧ before.replay = 0) ∧ appends = false := by
  cases step with
  | none journal replay => simp [journal, replay]
  | journal journal replay =>
      simp only [journal, Bool.true_eq_false, and_false, iff_false]
      omega
  | replay journal replay => simp [replay]

/-- Over a run of a node: the counters agree exactly when no step was an append. -/
theorem run_agrees_iff {σ β : Type} (step : σ → NodeInput → σ × List β)
    (view : σ → Appended) (appends : σ → Bool) (ready : σ → Prop)
    (stepwise : ∀ s input, ready s → input.Succeeds →
      ready (step s input).1 ∧ Step (view s) (view (step s input).1) (appends s))
    (start : σ) (prepared : ready start) (held : Nat) (fresh : Doubled held (view start))
    (untouched : (view start).journal = held ∧ (view start).replay = 0)
    (inputs : List NodeInput) (succeeds : ∀ input ∈ inputs, input.Succeeds) :
    (view (after step start inputs)).Agrees held ↔
      History.Always (fun before _ => appends (after step start before) = false) inputs := by
  have run : ready (after step start inputs) ∧ Doubled held (view (after step start inputs)) ∧
      (((view (after step start inputs)).journal = held ∧
          (view (after step start inputs)).replay = 0) ↔
        History.Always (fun before _ => appends (after step start before) = false) inputs) := by
    induction inputs using List.reverseRecOn with
    | nil => exact ⟨prepared, fresh, iff_of_true untouched (History.always_nil _)⟩
    | append_singleton inputs last ih =>
        obtain ⟨prepared, doubled, same⟩ :=
          ih fun input member => succeeds input (List.mem_append_left _ member)
        obtain ⟨next, effect⟩ := stepwise _ last prepared
          (succeeds last (List.mem_append_right _ (List.mem_singleton_self _)))
        rw [after_concat, History.always_concat, ← same]
        exact ⟨next, doubled.step effect, effect.untouched_iff doubled.before⟩
  rw [run.2.1.agrees_iff]
  exact run.2.2

end Appended

/-! ### The two nodes -/

namespace JournalLog

/-- An append that works puts one record into the file and is counted. -/
theorem record_works (journal : JournalLog) (metrics : MetricsRegistry) (io : JournalIo)
    (recordType : JournalRecordType) (envelope : Envelope) (sequence : Sequence)
    (supported : Wire.payloadSizeForType envelope.type.code ≠ 0) (works : journal.Writes io) :
    (journal.record metrics io recordType envelope sequence).1.entries.length =
        journal.entries.length + 1 ∧
      (journal.record metrics io recordType envelope sequence).2 =
        metrics.increment .journalWrites := by
  obtain ⟨entries, complete⟩ :=
    journal.append_entries io recordType envelope sequence supported
  unfold record
  refine ⟨?_, ?_⟩
  · show (journal.append io recordType envelope sequence).1.entries.length = _
    rw [entries, if_pos works, List.length_append, List.length_singleton]
  · show metrics.incrementIf (journal.append io recordType envelope sequence).2 _ = _
    rw [complete.mpr works]
    rfl

end JournalLog

theorem ReplayLog.record_works (log : ReplayLog) (metrics : MetricsRegistry) (io : ReplayIo)
    (envelope : Envelope) (sequence : Sequence) (opened : log.opened = true)
    (writes : io.writes = true) :
    (log.record metrics io envelope sequence).1.events.length = log.events.length + 1 ∧
      (log.record metrics io envelope sequence).2 = metrics.increment .replayEventsWritten := by
  simp [record, append_writes log io envelope sequence opened writes,
    MetricsRegistry.incrementIf]

namespace OmsNode

def appended (node : OmsNode) : Appended where
  metrics := node.metrics
  journal := node.journal.entries.length
  replay := node.replayWriter.events.length

/-- The next step appends to the journal or to the replay file. -/
def appends (node : OmsNode) : Bool :=
  match node.phase with
  | .journaling _ => true
  | .recording _ => true
  | .recordingResponse _ => true
  | .processing (.ack _) => true
  | .processing (.reject _) => true
  | _ => false

theorem step_appended (node : OmsNode) (input : NodeInput)
    (opened : node.replayWriter.opened = true) (succeeds : input.Succeeds) :
    Appended.Step node.appended (node.step input).1.appended node.appends := by
  obtain ⟨opens, journals, records⟩ := succeeds
  have works : node.journal.Writes input.journal := ⟨Or.inr opens, journals⟩
  cases phase : node.phase with
  | awaitingSignal =>
      simp only [appends, phase, step]
      cases input.received with
      | none => exact .none rfl rfl rfl rfl
      | some envelope =>
          cases envelope with
          | signal signal =>
              dsimp only
              by_cases accepted : node.manager.Accepts signal
              · rw [OrderManager.onSignal_accept _ _ _ _ accepted]
                exact .none rfl rfl rfl rfl
              · rw [OrderManager.onSignal_refuse _ _ _ _ accepted]
                refine .none rfl rfl ?_ ?_ <;> simp [appended, MetricsRegistry.counter_increment]
          | _ => exact .none rfl rfl rfl rfl
  | journaling order =>
      obtain ⟨length, counted⟩ := node.journal.record_works node.metrics input.journal .orderIntent
        (.newOrder order) (node.journalSeq + 1)
        (by show Wire.payloadSizeForType MsgType.newOrder.code ≠ 0; decide) works
      simp only [appends, phase, step]
      refine .journal length rfl ?_ ?_ <;>
        simp [appended, counted, MetricsRegistry.counter_increment]
  | recording order =>
      obtain ⟨length, counted⟩ := node.replayWriter.record_works node.metrics input.replay
        (.newOrder order) (node.replaySeq + 1) opened records
      simp only [appends, phase, step]
      refine .replay rfl length ?_ ?_ <;>
        simp [appended, counted, MetricsRegistry.counter_increment]
  | sending order =>
      simp only [appends, phase, step]
      cases input.sends
      · refine .none rfl rfl ?_ ?_ <;> simp [appended, MetricsRegistry.counter_increment]
      · refine .none rfl rfl ?_ ?_ <;> simp [appended, MetricsRegistry.counter_increment]
  | awaitingResponse =>
      simp only [appends, phase, step]
      cases input.received with
      | none =>
          refine .none rfl rfl ?_ ?_ <;> simp [appended, MetricsRegistry.counter_increment]
      | some response => exact .none rfl rfl rfl rfl
  | recordingResponse response =>
      obtain ⟨length, counted⟩ := node.replayWriter.record_works node.metrics input.replay
        response (node.replaySeq + 1) opened records
      simp only [appends, phase, step]
      refine .replay rfl length ?_ ?_ <;>
        simp [appended, counted, MetricsRegistry.counter_increment]
  | processing response =>
      simp only [appends, phase, step]
      cases response with
      | ack ack =>
          obtain ⟨length, counted⟩ := node.journal.record_works node.metrics input.journal
            .gatewayAck (.ack ack) (node.journalSeq + 1)
            (by show Wire.payloadSizeForType MsgType.ack.code ≠ 0; decide) works
          refine .journal length rfl ?_ ?_ <;>
            simp [appended, process, counted, MetricsRegistry.counter_increment]
      | reject reject =>
          obtain ⟨length, counted⟩ := node.journal.record_works node.metrics input.journal
            .gatewayReject (.reject reject) (node.journalSeq + 1)
            (by show Wire.payloadSizeForType MsgType.reject.code ≠ 0; decide) works
          refine .journal length rfl ?_ ?_ <;>
            simp [appended, process, counted, MetricsRegistry.counter_increment]
      | fill fill =>
          refine .none rfl rfl ?_ ?_ <;>
            simp [appended, process, MetricsRegistry.counter_increment]
      | _ => exact .none rfl rfl rfl rfl
  | stopped =>
      simp only [appends, phase, step]
      exact .none rfl rfl rfl rfl

theorem run_agrees_iff (journal : JournalLog) (io : JournalIo) (file : List ReplayEvent)
    (inputs : List NodeInput) (succeeds : ∀ input ∈ inputs, input.Succeeds) :
    (after step (start journal io file true) inputs).appended.Agrees journal.entries.length ↔
      History.Always
        (fun before _ => (after step (start journal io file true) before).appends = false)
        inputs := by
  have held : (start journal io file true).journal.entries = journal.entries := by
    show (journal.open io).1.entries = _
    unfold JournalLog.open
    cases journal.opened <;> cases io.opens <;> rfl
  have length := congrArg List.length held
  refine Appended.run_agrees_iff step appended appends
    (fun node => node.replayWriter.opened = true) ?_ _ rfl _ ⟨length.ge, ?_, rfl⟩
    ⟨length, rfl⟩ inputs succeeds
  · intro node input opened works
    exact ⟨(node.step_opened input).trans opened, node.step_appended input opened works⟩
  · show (0 : UInt64) = UInt64.ofNat (2 * ((start journal io file true).journal.entries.length - _))
    rw [length, Nat.sub_self]
    rfl

end OmsNode

namespace StrategyNode

/-- There is no journal at this node. -/
def appended (node : StrategyNode) : Appended where
  metrics := node.metrics
  journal := 0
  replay := node.replayWriter.events.length

/-- The next step appends to the replay file. -/
def appends (node : StrategyNode) : Bool :=
  match node.phase with
  | .recording _ => true
  | _ => false

theorem step_appended (node : StrategyNode) (input : NodeInput)
    (opened : node.replayWriter.opened = true) (succeeds : input.Succeeds) :
    (node.step input).1.replayWriter.opened = true ∧
      Appended.Step node.appended (node.step input).1.appended node.appends := by
  cases phase : node.phase with
  | receiving =>
      simp only [appends, phase, step]
      cases input.received with
      | none => exact ⟨opened, .none rfl rfl rfl rfl⟩
      | some envelope =>
          cases envelope with
          | marketData md =>
              dsimp only
              cases node.strategy.onMarketData md input.now with
              | mk strategy signal =>
                  cases signal <;> refine ⟨opened, .none rfl rfl ?_ ?_⟩ <;>
                    simp [appended, MetricsRegistry.counter_increment]
          | _ => exact ⟨opened, .none rfl rfl rfl rfl⟩
  | recording signal =>
      obtain ⟨length, counted⟩ := node.replayWriter.record_works node.metrics input.replay
        (.signal signal) (node.signalSeq + 1) opened succeeds.2.2
      simp only [appends, phase, step]
      refine ⟨(ReplayLog.record_opened ..).trans opened, .replay rfl length ?_ ?_⟩ <;>
        simp [appended, counted, MetricsRegistry.counter_increment]
  | sending signal =>
      simp only [appends, phase, step]
      cases input.sends
      · refine ⟨opened, .none rfl rfl ?_ ?_⟩ <;>
          simp [appended, MetricsRegistry.counter_increment]
      · exact ⟨opened, .none rfl rfl rfl rfl⟩
  | stopped =>
      simp only [appends, phase, step]
      exact ⟨opened, .none rfl rfl rfl rfl⟩

end StrategyNode

/-- The counters of a node are the numbers of its appends exactly as long as it
has appended nothing: every append is counted by the writer and by its caller. -/
theorem nodes_agree_iff (journal : JournalLog) (io : JournalIo) (file : List ReplayEvent)
    (inputs : List NodeInput) (succeeds : ∀ input ∈ inputs, input.Succeeds) :
    ((after OmsNode.step (.start journal io file true) inputs).appended.Agrees
        journal.entries.length ↔
      History.Always (fun before _ =>
        (after OmsNode.step (.start journal io file true) before).appends = false) inputs) ∧
    ((after StrategyNode.step (.start file true) inputs).appended.Agrees 0 ↔
      History.Always (fun before _ =>
        (after StrategyNode.step (.start file true) before).appends = false) inputs) := by
  refine ⟨OmsNode.run_agrees_iff journal io file inputs succeeds, ?_⟩
  apply Appended.run_agrees_iff StrategyNode.step StrategyNode.appended StrategyNode.appends
    (fun node => node.replayWriter.opened = true)
  · exact fun node input opened works => node.step_appended input opened works
  · rfl
  · exact ⟨Nat.le_refl 0, rfl, rfl⟩
  · exact ⟨rfl, rfl⟩
  · exact succeeds

/-- One signal that passes the risk check, and the two appends of its order. -/
def acceptedSignal : List NodeInput := [
  { received := some (.signal { side := .buy, limitPx := 100, qty := 1 }) }, {}, {}]

theorem nodes_agree_acceptedSignal :
    ¬ (after OmsNode.step (.start {} {} [] true) acceptedSignal).appended.Agrees 0 := by
  intro agrees
  have none := (nodes_agree_iff {} {} [] acceptedSignal (by decide)).1.mp agrees
  exact absurd none (by decide +kernel)

/-- One record and one event, each counted twice. -/
theorem accepted_signal_counted_twice :
    ¬ ∀ inputs : List NodeInput, (∀ input ∈ inputs, input.Succeeds) →
      (after OmsNode.step (.start {} {} [] true) inputs).appended.Agrees 0 ∧
        (after StrategyNode.step (.start [] true) inputs).appended.Agrees 0 := by
  intro agree
  have counted := (agree acceptedSignal (by decide)).1
  exact absurd counted (by decide +kernel)

end TradingPlatform
