import TradingPlatform.Library.Transducer
import TradingPlatform.Types

set_option autoImplicit false

namespace TradingPlatform

structure ExchangeGateway where
  nodeId : NodeId
  available : Bool := true
  nextExchangeOrderId : OrderId := 1000
  sequence : Sequence := 0
  deriving DecidableEq, Repr

namespace ExchangeGateway

def sendOrder (gateway : ExchangeGateway) (order : NewOrder) (now : TimestampNs) :
    ExchangeGateway × Option Envelope :=
  if !gateway.available then
    ({ gateway with sequence := gateway.sequence + 1 },
      some (.reject {
        header := {
          type := .reject
          sourceNode := gateway.nodeId
          destinationNode := order.header.sourceNode
          sequence := gateway.sequence + 1
          sendTsNs := now }
        clientOrderId := order.clientOrderId
        reason := .gatewayUnavailable }))
  else
    ({ gateway with
        sequence := gateway.sequence + 1
        nextExchangeOrderId := gateway.nextExchangeOrderId + 1 },
      some (.ack {
        header := {
          type := .ack
          sourceNode := gateway.nodeId
          destinationNode := order.header.sourceNode
          sequence := gateway.sequence + 1
          sendTsNs := now }
        clientOrderId := order.clientOrderId
        exchangeOrderId := gateway.nextExchangeOrderId
        state := .accepted }))

/-- The response to an order, as the output of a stage. -/
def stage (gateway : ExchangeGateway) (input : NewOrder × TimestampNs) :
    ExchangeGateway × List Envelope :=
  let result := gateway.sendOrder input.1 input.2
  (result.1, result.2.toList)

def untimedStage (gateway : ExchangeGateway) (order : NewOrder) :
    ExchangeGateway × List Envelope :=
  gateway.stage (order, 0)

/-- Every order is answered once, under its own identifier. -/
theorem stage_answer (gateway : ExchangeGateway) (input : NewOrder × TimestampNs) :
    ∃ answer, (gateway.stage input).2 = [answer] ∧
      answer.answeredId = some input.1.clientOrderId := by
  unfold stage sendOrder
  cases gateway.available <;> exact ⟨_, rfl, rfl⟩

theorem stage_untimed (gateway : ExchangeGateway) (order : NewOrder) (now : TimestampNs) :
    (gateway.stage (order, now)).1 = (gateway.untimedStage order.untimed).1 ∧
      (gateway.stage (order, now)).2.map Envelope.untimed =
        (gateway.untimedStage order.untimed).2 := by
  unfold untimedStage stage sendOrder
  cases gateway.available <;> exact ⟨rfl, rfl⟩

end ExchangeGateway
end TradingPlatform
