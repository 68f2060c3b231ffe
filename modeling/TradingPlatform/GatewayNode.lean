import TradingPlatform.Connection
import TradingPlatform.ExchangeGateway

set_option autoImplicit false

/- The gateway node: an order is handed to the exchange, or to the simulated
one, and the response recorded and sent back. -/
namespace TradingPlatform

inductive GatewayMode where
  | kraken
  | sim
  deriving DecidableEq, Repr

/-- Where the node is in its loop. -/
inductive GatewayNodeAt where
  | receiving
  | recording (response : Envelope)
  | sending (response : Envelope)
  | stopped
  deriving DecidableEq, Repr

structure GatewayNode where
  mode : GatewayMode
  simulatedGateway : ExchangeGateway := { nodeId := 4 }
  responseSeq : Sequence := 0
  syntheticExchangeId : OrderId := 50000
  replayWriter : ReplayLog
  metrics : MetricsRegistry := {}
  phase : GatewayNodeAt := .receiving

def makeAckFromOrder (order : NewOrder) (exchangeOrderId : OrderId) (now : TimestampNs) :
    Envelope :=
  .ack {
    header := {
      type := .ack
      sourceNode := 4
      destinationNode := 3
      sequence := order.header.sequence
      sendTsNs := now }
    clientOrderId := order.clientOrderId
    exchangeOrderId := exchangeOrderId
    state := .accepted }

def makeRejectFromOrder (order : NewOrder) (reason : RejectReason) (now : TimestampNs) :
    Envelope :=
  .reject {
    header := {
      type := .reject
      sourceNode := 4
      destinationNode := 3
      sequence := order.header.sequence
      sendTsNs := now }
    clientOrderId := order.clientOrderId
    reason := reason }

namespace GatewayNode

def start (mode : GatewayMode) (file : List ReplayEvent) (opens : Bool) : GatewayNode where
  mode := mode
  replayWriter := ReplayLog.open { nodeRole := .gateway, events := file } opens

/-- The response of the exchange, before it gets its sequence number. -/
def respond (node : GatewayNode) (order : NewOrder) (input : NodeInput) :
    GatewayNode × Envelope :=
  match node.mode with
  | .kraken =>
      if input.accepted then
        let syntheticExchangeId := node.syntheticExchangeId + 1
        ({ node with
            syntheticExchangeId, metrics := node.metrics.increment .acksReceived },
          makeAckFromOrder order syntheticExchangeId input.now)
      else
        ({ node with metrics := node.metrics.increment .ordersRejected },
          makeRejectFromOrder order .gatewayUnavailable input.now)
  | .sim =>
      match node.simulatedGateway.sendOrder order input.now with
      | (simulatedGateway, none) =>
          ({ node with
              simulatedGateway, metrics := node.metrics.increment .ordersRejected },
            makeRejectFromOrder order .gatewayUnavailable input.now)
      | (simulatedGateway, some response) =>
          let metrics :=
            match response with
            | .ack _ => node.metrics.increment .acksReceived
            | .reject _ => node.metrics.increment .ordersRejected
            | _ => node.metrics
          ({ node with simulatedGateway, metrics }, response)

/-- The sequence number and the time of a response are the node's own. -/
def stamp (response : Envelope) (sequence : Sequence) (now : TimestampNs) : Envelope :=
  match response with
  | .ack ack => .ack { ack with header := { ack.header with sequence, sendTsNs := now } }
  | .reject reject =>
      .reject { reject with header := { reject.header with sequence, sendTsNs := now } }
  | .fill fill => .fill { fill with header := { fill.header with sequence, sendTsNs := now } }
  | _ => response

/-- One effect of the loop; the second component is what it sends. -/
def step (node : GatewayNode) (input : NodeInput) : GatewayNode × List Envelope :=
  match node.phase with
  | .receiving =>
      match input.received with
      | none =>
          ({ node with
              metrics := node.metrics.increment .gatewayDisconnects
              phase := .stopped }, [])
      | some (.newOrder order) =>
          let node := { node with metrics := node.metrics.increment .ordersSent }
          let (node, response) := node.respond order input
          let responseSeq := node.responseSeq + 1
          ({ node with
              responseSeq
              phase := .recording (stamp response responseSeq input.laterNow) }, [])
      | some _ => (node, [])
  | .recording response =>
      let (replayWriter, metrics) :=
        node.replayWriter.record node.metrics input.replay response node.responseSeq
      ({ node with replayWriter, metrics, phase := .sending response }, [])
  | .sending response =>
      if input.sends then ({ node with phase := .receiving }, [response])
      else
        ({ node with
            metrics := (node.metrics.increment .gatewayDisconnects).increment .queueDrops
            phase := .stopped }, [response])
  | .stopped => (node, [])

/-! ### Responses -/

/-- The response the node is working on. -/
def pending (node : GatewayNode) : List Envelope :=
  match node.phase with
  | .recording response => [response]
  | .sending response => [response]
  | _ => []

/-- Whatever the mode, the response is about the order. -/
theorem respond_answer (node : GatewayNode) (order : NewOrder) (input : NodeInput) :
    (node.respond order input).2.answeredId = some order.clientOrderId := by
  unfold respond
  cases node.mode with
  | kraken => cases input.accepted <;> rfl
  | sim =>
      cases available : node.simulatedGateway.available <;>
        simp [ExchangeGateway.sendOrder, available, Envelope.answeredId]

@[simp] theorem stamp_answeredId (response : Envelope) (sequence : Sequence)
    (now : TimestampNs) : (stamp response sequence now).answeredId = response.answeredId := by
  cases response <;> rfl

/-- The node only ever works on responses to orders, and sends nothing else. -/
theorem step_answers (node : GatewayNode) (input : NodeInput)
    (answers : ∀ response ∈ node.pending, response.answeredId ≠ none) :
    (∀ response ∈ (node.step input).1.pending, response.answeredId ≠ none) ∧
      ∀ response ∈ (node.step input).2, response.answeredId ≠ none := by
  unfold step
  cases phase : node.phase with
  | receiving =>
      rw [pending, phase] at answers
      cases input.received with
      | none => simp [pending]
      | some envelope =>
          cases envelope with
          | newOrder order => simp [pending, respond_answer]
          | _ => simp [pending, phase]
  | recording response =>
      rw [pending, phase] at answers
      exact ⟨answers, by simp⟩
  | sending response =>
      rw [pending, phase] at answers
      cases input.sends <;> exact ⟨by simp [pending], answers⟩
  | stopped => simp [pending, phase]

end GatewayNode
end TradingPlatform
