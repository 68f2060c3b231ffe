import TradingPlatform.Connection
import TradingPlatform.Oms

set_option autoImplicit false

/- The order management node: an order is journaled, recorded and sent to the
gateway, and its response awaited, before the next signal is taken. -/
namespace TradingPlatform

open Transducer

/-- Where the node is in its loop. -/
inductive OmsNodeAt where
  | awaitingSignal
  | journaling (order : NewOrder)
  | recording (order : NewOrder)
  | sending (order : NewOrder)
  | awaitingResponse
  | recordingResponse (response : Envelope)
  | processing (response : Envelope)
  | stopped
  deriving DecidableEq, Repr

structure OmsNode where
  manager : OrderManager
  journal : JournalLog := {}
  journalSeq : Sequence := 0
  gatewaySeq : Sequence := 0
  replayWriter : ReplayLog
  replaySeq : Sequence := 0
  metrics : MetricsRegistry := {}
  phase : OmsNodeAt := .awaitingSignal

namespace OmsNode

def limits : RiskLimits where
  maxPosition := 10
  maxOrderQty := 2
  maxNotional := 100000000

/-- The journal file may hold records of earlier runs, and nobody looks at
whether it could be opened. -/
def start (journal : JournalLog) (io : JournalIo) (file : List ReplayEvent) (opens : Bool) :
    OmsNode where
  manager := .new 3 limits
  journal := (journal.open io).1
  replayWriter := ReplayLog.open { nodeRole := .oms, events := file } opens

/-- A response has been recorded: the manager and the journal follow. -/
def process (node : OmsNode) (response : Envelope) (io : JournalIo) : OmsNode :=
  match response with
  | .ack ack =>
      let journalSeq := node.journalSeq + 1
      let (journal, metrics) :=
        node.journal.record node.metrics io .gatewayAck response journalSeq
      { node with
        manager := (node.manager.onGatewayAck ack).1
        journal, journalSeq
        metrics := (metrics.increment .journalWrites).increment .acksReceived }
  | .reject reject =>
      let journalSeq := node.journalSeq + 1
      let (journal, metrics) :=
        node.journal.record node.metrics io .gatewayReject response journalSeq
      { node with
        manager := (node.manager.onGatewayReject reject).1
        journal, journalSeq
        metrics := (metrics.increment .journalWrites).increment .ordersRejected }
  | .fill _ => { node with metrics := node.metrics.increment .fillsReceived }
  | _ => node

/-- One effect of the loop; the second component is what it sends. -/
def step (node : OmsNode) (input : NodeInput) : OmsNode × List Envelope :=
  match node.phase with
  | .awaitingSignal =>
      match input.received with
      | none => ({ node with phase := .stopped }, [])
      | some (.signal signal) =>
          match node.manager.onSignal signal input.now input.laterNow with
          | (manager, some (.newOrder order)) =>
              ({ node with manager, phase := .journaling order }, [])
          | (manager, some (.reject _)) =>
              ({ node with manager, metrics := node.metrics.increment .ordersRejected }, [])
          | (manager, _) => ({ node with manager }, [])
      | some _ => (node, [])
  | .journaling order =>
      let journalSeq := node.journalSeq + 1
      -- the result of the append is not looked at
      let (journal, metrics) :=
        node.journal.record node.metrics input.journal .orderIntent (.newOrder order) journalSeq
      ({ node with
          journal, journalSeq
          metrics := metrics.increment .journalWrites
          phase := .recording order }, [])
  | .recording order =>
      let replaySeq := node.replaySeq + 1
      let (replayWriter, metrics) :=
        node.replayWriter.record node.metrics input.replay (.newOrder order) replaySeq
      ({ node with
          replayWriter, replaySeq
          metrics := metrics.increment .replayEventsWritten
          phase := .sending order }, [])
  | .sending order =>
      let node := { node with gatewaySeq := node.gatewaySeq + 1 }
      if input.sends then
        ({ node with
            metrics := node.metrics.increment .ordersSent
            phase := .awaitingResponse }, [.newOrder order])
      else
        ({ node with
            metrics := (node.metrics.increment .gatewayDisconnects).increment .queueDrops
            phase := .stopped }, [.newOrder order])
  | .awaitingResponse =>
      match input.received with
      | none =>
          ({ node with
              metrics := node.metrics.increment .gatewayDisconnects
              phase := .stopped }, [])
      | some response => ({ node with phase := .recordingResponse response }, [])
  | .recordingResponse response =>
      let replaySeq := node.replaySeq + 1
      let (replayWriter, metrics) :=
        node.replayWriter.record node.metrics input.replay response replaySeq
      ({ node with
          replayWriter, replaySeq
          metrics := metrics.increment .replayEventsWritten
          phase := .processing response }, [])
  | .processing response =>
      ({ node.process response input.journal with phase := .awaitingSignal }, [])
  | .stopped => (node, [])

/-! ### What the node has recorded -/

/-- The orders in the replay file. -/
def recorded (node : OmsNode) : List NewOrder :=
  node.replayWriter.envelopes.filterMap Envelope.newOrder?

/-- The order that is about to be recorded. -/
def unrecorded (node : OmsNode) : List NewOrder :=
  match node.phase with
  | .journaling order => [order]
  | .recording order => [order]
  | _ => []

/-- The response that is about to be recorded. -/
def unrecordedResponse (node : OmsNode) : List Envelope :=
  match node.phase with
  | .recordingResponse response => [response]
  | _ => []

/-- The signals a step takes in. -/
def takes (node : OmsNode) (input : NodeInput) : List Signal :=
  if node.phase = .awaitingSignal then (input.received.bind Envelope.signal?).toList else []

/-- The node has done what the order manager does with the signals it has taken;
the responses have changed nothing but its live orders. -/
structure Follows (node : OmsNode) (consumed : List Signal) : Prop where
  manager : node.manager.Agrees
    (after OrderManager.untimedStage (.new 3 limits) (consumed.map Signal.untimed))
  orders : (node.recorded ++ node.unrecorded).map NewOrder.untimed =
    emitted OrderManager.untimedStage (.new 3 limits) (consumed.map Signal.untimed)

@[simp] theorem process_manager (node : OmsNode) (response : Envelope) (io : JournalIo) :
    (node.process response io).manager = node.manager.settle response := by
  cases response <;> rfl

@[simp] theorem process_replayWriter (node : OmsNode) (response : Envelope) (io : JournalIo) :
    (node.process response io).replayWriter = node.replayWriter := by
  cases response <;> rfl

section Step

variable (node : OmsNode) (input : NodeInput)

theorem step_opened : (node.step input).1.replayWriter.opened = node.replayWriter.opened := by
  unfold step
  cases node.phase with
  | awaitingSignal =>
      cases input.received with
      | none => rfl
      | some envelope =>
          cases envelope with
          | signal signal =>
              by_cases accepted : node.manager.Accepts signal
              · simp [OrderManager.onSignal_accept _ _ _ _ accepted]
              · simp [OrderManager.onSignal_refuse _ _ _ _ accepted]
          | _ => rfl
  | journaling order => rfl
  | recording order => simp
  | sending order => cases input.sends <;> rfl
  | awaitingResponse => cases input.received <;> rfl
  | recordingResponse response => simp
  | processing response => simp
  | stopped => rfl

theorem step_unrecordedResponse (response : Envelope)
    (member : response ∈ (node.step input).1.unrecordedResponse) :
    node.phase = .awaitingResponse ∧ input.received = some response := by
  unfold step at member
  cases phase : node.phase with
  | awaitingSignal =>
      cases received : input.received with
      | none => simp [phase, received, unrecordedResponse] at member
      | some envelope =>
          cases envelope with
          | signal signal =>
              by_cases accepted : node.manager.Accepts signal
              · simp [phase, received, OrderManager.onSignal_accept _ _ _ _ accepted,
                  unrecordedResponse] at member
              · simp [phase, received, OrderManager.onSignal_refuse _ _ _ _ accepted,
                  unrecordedResponse] at member
          | _ => simp [phase, received, unrecordedResponse] at member
  | sending order =>
      cases sends : input.sends <;> simp [phase, sends, unrecordedResponse] at member
  | awaitingResponse =>
      cases received : input.received with
      | none => simp [phase, received, unrecordedResponse] at member
      | some envelope =>
          simp only [phase, received, unrecordedResponse, List.mem_singleton] at member
          exact ⟨rfl, congrArg some member.symm⟩
  | _ => simp [phase, unrecordedResponse] at member

/-- What a step at the first `recv_envelope` takes in goes through the order
manager. -/
theorem awaiting_step (awaiting : node.phase = .awaitingSignal) (manager : OrderManager)
    (agrees : node.manager.Agrees manager) :
    (node.step input).1.manager.Agrees
        (after OrderManager.untimedStage manager ((node.takes input).map Signal.untimed)) ∧
      (node.step input).1.recorded = node.recorded ∧
      (node.step input).1.unrecorded.map NewOrder.untimed =
        emitted OrderManager.untimedStage manager ((node.takes input).map Signal.untimed) := by
  simp only [takes, step, awaiting, ↓reduceIte]
  cases input.received with
  | none => exact ⟨agrees, rfl, rfl⟩
  | some envelope =>
      cases envelope with
      | signal signal =>
          obtain ⟨final, sent⟩ := agrees.stage (signal, input.now, input.laterNow)
          obtain ⟨bare, placed⟩ := manager.stage_untimed signal input.now input.laterNow
          simp only [Option.bind_some, Envelope.signal?, Option.toList_some, List.map_cons,
            List.map_nil, after_cons, after_nil, emitted_cons, emitted_nil, List.append_nil,
            ← bare, ← placed, ← sent]
          by_cases accepted : node.manager.Accepts signal
          · rw [OrderManager.stage_accept _ _ _ _ accepted] at final ⊢
            rw [OrderManager.onSignal_accept _ _ _ _ accepted]
            exact ⟨final, rfl, rfl⟩
          · rw [OrderManager.stage_refuse _ _ _ _ accepted] at final ⊢
            rw [OrderManager.onSignal_refuse _ _ _ _ accepted]
            exact ⟨final, rfl, by simp [unrecorded]⟩
      | _ => exact ⟨agrees, rfl, by simp [unrecorded, awaiting, Envelope.signal?]⟩

/-- The other steps take no signal in and lose no order. -/
theorem working_step (working : node.phase ≠ .awaitingSignal)
    (opened : node.replayWriter.opened = true) (writes : input.replay.writes = true)
    (answers : ∀ response ∈ node.unrecordedResponse, response.answeredId ≠ none) :
    (node.step input).1.manager.Agrees node.manager ∧
      (node.step input).1.recorded ++ (node.step input).1.unrecorded =
        node.recorded ++ node.unrecorded := by
  unfold step
  cases phase : node.phase with
  | awaitingSignal => exact absurd phase working
  | journaling order => exact ⟨rfl, by simp [recorded, unrecorded, phase]⟩
  | recording order =>
      refine ⟨rfl, ?_⟩
      simp only [recorded, unrecorded, phase, List.append_nil]
      rw [ReplayLog.record_envelopes _ _ _ _ _ opened writes, List.filterMap_append]
      rfl
  | sending order =>
      cases input.sends <;> exact ⟨rfl, by simp [recorded, unrecorded, phase]⟩
  | awaitingResponse =>
      cases input.received <;> exact ⟨rfl, by simp [recorded, unrecorded, phase]⟩
  | recordingResponse response =>
      have other := response.newOrder?_of_answeredId
        (answers response (by rw [unrecordedResponse, phase]; exact List.mem_singleton_self _))
      refine ⟨rfl, ?_⟩
      simp only [recorded, unrecorded, phase, List.append_nil]
      rw [ReplayLog.record_envelopes _ _ _ _ _ opened writes, List.filterMap_append]
      simp [other]
  | processing response =>
      refine ⟨?_, by simp [recorded, unrecorded, phase]⟩
      rw [process_manager]
      exact node.manager.settle_agrees response
  | stopped => exact ⟨rfl, rfl⟩

theorem follows_step (consumed : List Signal) (opened : node.replayWriter.opened = true)
    (writes : input.replay.writes = true)
    (answers : ∀ response ∈ node.unrecordedResponse, response.answeredId ≠ none)
    (follows : node.Follows consumed) :
    (node.step input).1.Follows (consumed ++ node.takes input) := by
  obtain ⟨manager, orders⟩ := follows
  by_cases awaiting : node.phase = .awaitingSignal
  · obtain ⟨next, recorded, placed⟩ := node.awaiting_step input awaiting _ manager
    have none : node.unrecorded = [] := by rw [unrecorded, awaiting]
    rw [none, List.append_nil] at orders
    refine ⟨?_, ?_⟩
    · rw [List.map_append, after_append]
      exact next
    · rw [recorded, List.map_append, List.map_append, orders, placed, emitted_append]
  · obtain ⟨agrees, kept⟩ := node.working_step input awaiting opened writes answers
    rw [takes, if_neg awaiting, List.append_nil]
    exact ⟨agrees.trans manager, (congrArg (List.map NewOrder.untimed) kept).trans orders⟩

end Step

end OmsNode
end TradingPlatform
