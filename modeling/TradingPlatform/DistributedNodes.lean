import TradingPlatform.GatewayNode
import TradingPlatform.MarketDataNode
import TradingPlatform.OmsNode
import TradingPlatform.StrategyNode

set_option autoImplicit false

/- The four nodes and the connections between them. -/
namespace TradingPlatform

structure DistributedNodes where
  marketData : MarketDataNode
  strategy : StrategyNode
  oms : OmsNode
  gateway : GatewayNode
  marketDataToStrategy : Connection := {}
  strategyToOms : Connection := {}
  omsToGateway : Connection := {}
  gatewayToOms : Connection := {}

inductive Actor where
  | marketData
  | strategy
  | oms
  | gateway
  deriving DecidableEq, Repr

/-- The node that takes a step, whether a `recv_envelope` finds its peer, and the
rest of the step's surroundings. A node that stops takes no further step. -/
structure NodeAction where
  actor : Actor
  connected : Bool := true
  input : NodeInput := {}
  deriving DecidableEq, Repr

namespace DistributedNodes

/-- All replay files could be opened, which empties them. -/
def start (journal : JournalLog) (io : JournalIo) (mode : GatewayMode) : DistributedNodes where
  marketData := .start [] true
  strategy := .start [] true
  oms := .start journal io [] true
  gateway := .start mode [] true

/-- The updates come from the venue. -/
def stepMarketData (nodes : DistributedNodes) (input : NodeInput) : DistributedNodes :=
  let sends := nodes.marketDataToStrategy.delivers input
  let (marketData, sent) := nodes.marketData.step { input with sends }
  { nodes with
    marketData, marketDataToStrategy := nodes.marketDataToStrategy.send sends sent }

def stepStrategy (nodes : DistributedNodes) (connected : Bool) (input : NodeInput) :
    DistributedNodes :=
  if nodes.strategy.phase = .receiving then
    match nodes.marketDataToStrategy.recv connected with
    | none => nodes
    | some (marketDataToStrategy, received) =>
        let (strategy, _) := nodes.strategy.step { input with received }
        { nodes with strategy, marketDataToStrategy }
  else
    let sends := nodes.strategyToOms.delivers input
    let (strategy, sent) := nodes.strategy.step { input with sends }
    { nodes with strategy, strategyToOms := nodes.strategyToOms.send sends sent }

def stepOms (nodes : DistributedNodes) (connected : Bool) (input : NodeInput) :
    DistributedNodes :=
  if nodes.oms.phase = .awaitingSignal then
    match nodes.strategyToOms.recv connected with
    | none => nodes
    | some (strategyToOms, received) =>
        let (oms, _) := nodes.oms.step { input with received }
        { nodes with oms, strategyToOms }
  else if nodes.oms.phase = .awaitingResponse then
    match nodes.gatewayToOms.recv connected with
    | none => nodes
    | some (gatewayToOms, received) =>
        let (oms, _) := nodes.oms.step { input with received }
        { nodes with oms, gatewayToOms }
  else
    let sends := nodes.omsToGateway.delivers input
    let (oms, sent) := nodes.oms.step { input with sends }
    { nodes with oms, omsToGateway := nodes.omsToGateway.send sends sent }

def stepGateway (nodes : DistributedNodes) (connected : Bool) (input : NodeInput) :
    DistributedNodes :=
  if nodes.gateway.phase = .receiving then
    match nodes.omsToGateway.recv connected with
    | none => nodes
    | some (omsToGateway, received) =>
        let (gateway, _) := nodes.gateway.step { input with received }
        { nodes with gateway, omsToGateway }
  else
    let sends := nodes.gatewayToOms.delivers input
    let (gateway, sent) := nodes.gateway.step { input with sends }
    { nodes with gateway, gatewayToOms := nodes.gatewayToOms.send sends sent }

def step (nodes : DistributedNodes) (action : NodeAction) : DistributedNodes :=
  match action.actor with
  | .marketData => nodes.stepMarketData action.input
  | .strategy => nodes.stepStrategy action.connected action.input
  | .oms => nodes.stepOms action.connected action.input
  | .gateway => nodes.stepGateway action.connected action.input

/-- The state a run reaches. -/
def reached (journal : JournalLog) (io : JournalIo) (mode : GatewayMode)
    (actions : List NodeAction) : DistributedNodes :=
  actions.foldl step (start journal io mode)

end DistributedNodes
end TradingPlatform
