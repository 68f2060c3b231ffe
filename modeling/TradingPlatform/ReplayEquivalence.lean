import TradingPlatform.DistributedNodes
import TradingPlatform.ReplayRun

set_option autoImplicit false

/- Replaying what the market data node has recorded makes the decisions that the
live nodes have made. -/
namespace TradingPlatform

open Transducer

namespace DistributedNodes

/-- How far the nodes are: what the strategy has taken in of the recorded
updates, and the order manager of the recorded signals. -/
structure Follows (nodes : DistributedNodes) (updates : List MarketDataUpdate)
    (signals : List Signal) : Prop where
  marketDataOpened : nodes.marketData.replayWriter.opened = true
  marketDataSound : nodes.marketData.replayWriter.Sound
  strategyOpened : nodes.strategy.replayWriter.opened = true
  omsOpened : nodes.oms.replayWriter.opened = true
  marketDataSends : nodes.marketDataToStrategy.Carries Envelope.marketData?
    nodes.marketData.recorded nodes.marketData.unsent updates
  strategy : nodes.strategy.Follows updates
  strategySends : nodes.strategyToOms.Carries Envelope.signal?
    nodes.strategy.recorded nodes.strategy.unsent signals
  oms : nodes.oms.Follows signals
  /-- The gateway answers orders and does nothing else. -/
  gateway : ∀ response ∈ nodes.gateway.pending, response.answeredId ≠ none
  gatewaySends : ∀ response ∈ nodes.gatewayToOms.inflight, response.answeredId ≠ none
  omsAnswers : ∀ response ∈ nodes.oms.unrecordedResponse, response.answeredId ≠ none

theorem follows_start (journal : JournalLog) (io : JournalIo) (mode : GatewayMode) :
    (start journal io mode).Follows [] [] where
  marketDataOpened := rfl
  marketDataSound := fun _ member => absurd member List.not_mem_nil
  strategyOpened := rfl
  omsOpened := rfl
  marketDataSends := .start
  strategy := ⟨rfl, rfl⟩
  strategySends := .start
  oms := ⟨rfl, rfl⟩
  gateway := fun _ member => absurd member List.not_mem_nil
  gatewaySends := fun _ member => absurd member List.not_mem_nil
  omsAnswers := fun _ member => absurd member List.not_mem_nil

section Steps

variable (nodes : DistributedNodes) (connected : Bool) (input : NodeInput)
variable (updates : List MarketDataUpdate) (signals : List Signal)
variable (writes : input.replay.writes = true) (follows : nodes.Follows updates signals)
include writes follows

theorem follows_stepMarketData : (nodes.stepMarketData input).Follows updates signals := by
  obtain ⟨opened, sound⟩ := nodes.marketData.step_replay
    { input with sends := nodes.marketDataToStrategy.delivers input }
    follows.marketDataOpened follows.marketDataSound
  have carries := nodes.marketData.carries_step
    { input with sends := nodes.marketDataToStrategy.delivers input } updates
    nodes.marketDataToStrategy follows.marketDataOpened writes
    (nodes.marketDataToStrategy.delivers_intact input) follows.marketDataSends
  exact { follows with
    marketDataOpened := opened
    marketDataSound := sound
    marketDataSends := carries }

theorem follows_stepStrategy :
    ∃ updates, (nodes.stepStrategy connected input).Follows updates signals := by
  unfold stepStrategy
  by_cases receiving : nodes.strategy.phase = .receiving
  · rw [if_pos receiving]
    cases taken : nodes.marketDataToStrategy.recv connected with
    | none => exact ⟨updates, follows⟩
    | some result =>
        obtain ⟨connection, received⟩ := result
        have carries := follows.marketDataSends.recv connected connection received taken
        have next := nodes.strategy.follows_step { input with received } updates
          follows.strategyOpened writes follows.strategy
        rw [StrategyNode.takes, if_pos receiving] at next
        obtain ⟨-, recorded, -⟩ :=
          nodes.strategy.receiving_step { input with received } receiving
        obtain ⟨idle, quiet⟩ :=
          nodes.strategy.receiving_unsent { input with received } receiving
        have same := follows.strategySends
        rw [idle, ← quiet, ← recorded] at same
        exact ⟨_, { follows with
          strategyOpened := (nodes.strategy.step_opened _).trans follows.strategyOpened
          marketDataSends := carries
          strategy := next
          strategySends := same }⟩
  · rw [if_neg receiving]
    have next := nodes.strategy.follows_step
      { input with sends := nodes.strategyToOms.delivers input } updates
      follows.strategyOpened writes follows.strategy
    rw [StrategyNode.takes, if_neg receiving, List.append_nil] at next
    have carries := nodes.strategy.carries_step
      { input with sends := nodes.strategyToOms.delivers input } signals nodes.strategyToOms
      follows.strategyOpened writes (nodes.strategyToOms.delivers_intact input)
      follows.strategySends
    exact ⟨updates, { follows with
      strategyOpened := (nodes.strategy.step_opened _).trans follows.strategyOpened
      strategy := next
      strategySends := carries }⟩

theorem follows_stepOms :
    ∃ signals, (nodes.stepOms connected input).Follows updates signals := by
  unfold stepOms
  by_cases awaiting : nodes.oms.phase = .awaitingSignal
  · rw [if_pos awaiting]
    cases taken : nodes.strategyToOms.recv connected with
    | none => exact ⟨signals, follows⟩
    | some result =>
        obtain ⟨connection, received⟩ := result
        have carries := follows.strategySends.recv connected connection received taken
        have next := nodes.oms.follows_step { input with received } signals follows.omsOpened
          writes follows.omsAnswers follows.oms
        rw [OmsNode.takes, if_pos awaiting] at next
        refine ⟨_, { follows with
          omsOpened := (nodes.oms.step_opened _).trans follows.omsOpened
          strategySends := carries
          oms := next
          omsAnswers := ?_ }⟩
        intro response member
        obtain ⟨phase, -⟩ := nodes.oms.step_unrecordedResponse _ response member
        rw [awaiting] at phase
        cases phase
  · rw [if_neg awaiting]
    by_cases response : nodes.oms.phase = .awaitingResponse
    · rw [if_pos response]
      cases taken : nodes.gatewayToOms.recv connected with
      | none => exact ⟨signals, follows⟩
      | some result =>
          obtain ⟨connection, received⟩ := result
          obtain ⟨first, rest⟩ := nodes.gatewayToOms.recv_mem connected connection received taken
          have next := nodes.oms.follows_step { input with received } signals follows.omsOpened
            writes follows.omsAnswers follows.oms
          rw [OmsNode.takes, if_neg awaiting, List.append_nil] at next
          refine ⟨signals, { follows with
            omsOpened := (nodes.oms.step_opened _).trans follows.omsOpened
            oms := next
            gatewaySends := fun other member => follows.gatewaySends other (rest other member)
            omsAnswers := ?_ }⟩
          intro answer member
          obtain ⟨-, same⟩ := nodes.oms.step_unrecordedResponse _ answer member
          exact follows.gatewaySends answer (first answer same)
    · rw [if_neg response]
      have next := nodes.oms.follows_step
        { input with sends := nodes.omsToGateway.delivers input } signals follows.omsOpened
        writes follows.omsAnswers follows.oms
      rw [OmsNode.takes, if_neg awaiting, List.append_nil] at next
      refine ⟨signals, { follows with
        omsOpened := (nodes.oms.step_opened _).trans follows.omsOpened
        oms := next
        omsAnswers := ?_ }⟩
      intro answer member
      exact absurd (nodes.oms.step_unrecordedResponse _ answer member).1 response

omit writes in
theorem follows_stepGateway : (nodes.stepGateway connected input).Follows updates signals := by
  unfold stepGateway
  by_cases receiving : nodes.gateway.phase = .receiving
  · rw [if_pos receiving]
    cases taken : nodes.omsToGateway.recv connected with
    | none => exact follows
    | some result =>
        obtain ⟨connection, received⟩ := result
        exact { follows with
          gateway := (nodes.gateway.step_answers { input with received } follows.gateway).1 }
  · rw [if_neg receiving]
    obtain ⟨pending, sent⟩ := nodes.gateway.step_answers
      { input with sends := nodes.gatewayToOms.delivers input } follows.gateway
    refine { follows with gateway := pending, gatewaySends := ?_ }
    intro response member
    rcases nodes.gatewayToOms.send_mem _ _ response member with old | new
    · exact follows.gatewaySends response old
    · exact sent response new

end Steps

theorem follows_step (nodes : DistributedNodes) (action : NodeAction)
    (updates : List MarketDataUpdate) (signals : List Signal)
    (writes : action.input.replay.writes = true) (follows : nodes.Follows updates signals) :
    ∃ updates signals, (nodes.step action).Follows updates signals := by
  unfold step
  cases action.actor with
  | marketData => exact ⟨_, _, nodes.follows_stepMarketData action.input _ _ writes follows⟩
  | strategy =>
      obtain ⟨more, next⟩ :=
        nodes.follows_stepStrategy action.connected action.input _ _ writes follows
      exact ⟨more, _, next⟩
  | oms =>
      obtain ⟨more, next⟩ := nodes.follows_stepOms action.connected action.input _ _ writes follows
      exact ⟨_, more, next⟩
  | gateway => exact ⟨_, _, nodes.follows_stepGateway action.connected action.input _ _ follows⟩

theorem follows_run (nodes : DistributedNodes) (actions : List NodeAction)
    (writes : ∀ action ∈ actions, action.input.replay.writes = true)
    (updates : List MarketDataUpdate) (signals : List Signal)
    (follows : nodes.Follows updates signals) :
    ∃ updates signals, (actions.foldl step nodes).Follows updates signals := by
  induction actions generalizing nodes updates signals with
  | nil => exact ⟨updates, signals, follows⟩
  | cons action actions ih =>
      obtain ⟨_, _, next⟩ := nodes.follows_step action updates signals
        (writes action List.mem_cons_self) follows
      exact ih _ (fun other member => writes other (List.mem_cons_of_mem _ member)) _ _ next

/-! ### Replay equivalence -/

/-- At any point of any run whose replay writes succeed, the recorded signals
and orders are beginnings of those that a replay of the recorded market data
generates, up to timestamps. -/
theorem replay_equivalence (journal : JournalLog) (io : JournalIo) (mode : GatewayMode)
    (actions : List NodeAction)
    (writes : ∀ action ∈ actions, action.input.replay.writes = true)
    (clock : Nat → TurnClock) :
    let nodes := reached journal io mode actions
    nodes.strategy.recorded.map Signal.untimed <+:
        (ReplayRun.signals nodes.marketData.replayWriter clock).map Signal.untimed ∧
      nodes.oms.recorded.map NewOrder.untimed <+:
        (ReplayRun.orders nodes.marketData.replayWriter clock).map NewOrder.untimed := by
  intro nodes
  obtain ⟨updates, signals, follows⟩ :=
    follows_run _ actions writes [] [] (follows_start journal io mode)
  have replayed := ReplayRun.signals_untimed nodes.marketData.replayWriter clock
    follows.marketDataSound
  have live : (nodes.strategy.recorded ++ nodes.strategy.unrecorded).map Signal.untimed <+:
      (ReplayRun.signals nodes.marketData.replayWriter clock).map Signal.untimed := by
    rw [replayed]
    exact follows.strategy.signals ▸
      prefix_emitted _ _ follows.marketDataSends.prefix_consumed
  have recorded : nodes.strategy.recorded.map Signal.untimed <+:
      (ReplayRun.signals nodes.marketData.replayWriter clock).map Signal.untimed :=
    ((List.prefix_append _ _).map _).trans live
  refine ⟨recorded, ?_⟩
  have taken : signals.map Signal.untimed <+:
      (ReplayRun.signals nodes.marketData.replayWriter clock).map Signal.untimed :=
    (follows.strategySends.prefix_consumed.map _).trans recorded
  rw [ReplayRun.orders_untimed nodes.marketData.replayWriter clock follows.marketDataSound]
  have placed : (nodes.oms.recorded ++ nodes.oms.unrecorded).map NewOrder.untimed <+:
      emitted OrderManager.untimedStage (.new 3 OmsNode.limits)
        ((ReplayRun.signals nodes.marketData.replayWriter clock).map Signal.untimed) :=
    follows.oms.orders ▸ prefix_emitted _ _ taken
  exact ((List.prefix_append _ _).map _).trans placed

/-- One update becomes a recorded order. -/
def oneTrade : List NodeAction :=
  [{ actor := .marketData
     input := { received := some (.marketData
       { symbolId := 1, bidPx := 10000, askPx := 10005, exchangeSequence := 1 }) } },
    { actor := .marketData }, { actor := .marketData },
    { actor := .strategy }, { actor := .strategy }, { actor := .strategy },
    { actor := .oms }, { actor := .oms }, { actor := .oms }]

theorem replay_equivalence_oneTrade :
    (reached {} {} .sim oneTrade).oms.recorded.map NewOrder.clientOrderId = [1] ∧
      (reached {} {} .sim oneTrade).oms.recorded.map NewOrder.untimed <+:
        (ReplayRun.orders (reached {} {} .sim oneTrade).marketData.replayWriter
          fun _ => {}).map NewOrder.untimed :=
  ⟨by decide +kernel,
    (replay_equivalence {} {} .sim oneTrade (by decide +kernel) fun _ => {}).2⟩

end DistributedNodes
end TradingPlatform
