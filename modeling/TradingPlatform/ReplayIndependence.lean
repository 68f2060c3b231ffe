import TradingPlatform.ReplayHistory

set_option autoImplicit false

/- Whether an append to a replay file works decides nothing that the nodes do:
every run appends what the run appends in which all of them work. -/
namespace TradingPlatform

open Transducer

/-- The same surroundings, with an append that works. -/
def NodeInput.recording (input : NodeInput) : NodeInput :=
  { input with replay := { input.replay with writes := true } }

def NodeAction.recording (action : NodeAction) : NodeAction :=
  { action with input := action.input.recording }

/-- The writer without its file. -/
def ReplayLog.bare (log : ReplayLog) : ReplayLog := { nodeRole := log.nodeRole }

@[simp] theorem ReplayLog.record_bare (log : ReplayLog) (metrics : MetricsRegistry)
    (io : ReplayIo) (envelope : Envelope) (sequence : Sequence) :
    (log.record metrics io envelope sequence).1.bare = log.bare := by
  have role := log.appendDue_nodeRole io (some (envelope, sequence))
  exact congrArg (fun nodeRole => ({ nodeRole } : ReplayLog)) role

@[simp] theorem ReplayLog.bare_bare (log : ReplayLog) : log.bare.bare = log.bare := rfl

/-! ### The nodes without replay files and metrics -/

def MarketDataNode.bare (node : MarketDataNode) : MarketDataNode :=
  { node with replayWriter := node.replayWriter.bare, metrics := {} }

def StrategyNode.bare (node : StrategyNode) : StrategyNode :=
  { node with replayWriter := node.replayWriter.bare, metrics := {} }

def OmsNode.bare (node : OmsNode) : OmsNode :=
  { node with replayWriter := node.replayWriter.bare, metrics := {} }

def GatewayNode.bare (node : GatewayNode) : GatewayNode :=
  { node with replayWriter := node.replayWriter.bare, metrics := {} }

section Node

variable (input : NodeInput)

theorem MarketDataNode.bare_step (node : MarketDataNode) :
    (node.step input).1.bare = (node.bare.step input.recording).1.bare ∧
      (node.step input).2 = (node.bare.step input.recording).2 := by
  obtain ⟨book, outboundSeq, replayWriter, metrics, phase⟩ := node
  cases phase with
  | idle =>
      cases received : input.received with
      | none => simp [step, bare, NodeInput.recording, received]
      | some envelope => cases envelope <;> simp [step, bare, NodeInput.recording, received]
  | recording update => simp [step, bare]
  | sending update => simp [step, bare]

theorem StrategyNode.bare_step (node : StrategyNode) :
    (node.step input).1.bare = (node.bare.step input.recording).1.bare ∧
      (node.step input).2 = (node.bare.step input.recording).2 := by
  obtain ⟨strategy, replayWriter, signalSeq, metrics, phase⟩ := node
  cases phase with
  | receiving =>
      cases received : input.received with
      | none => simp [step, bare, NodeInput.recording, received]
      | some envelope =>
          cases envelope with
          | marketData md =>
              cases result : strategy.onMarketData md input.now with
              | mk engine maybeSignal =>
                  cases maybeSignal <;> simp [step, bare, NodeInput.recording, received, result]
          | _ => simp [step, bare, NodeInput.recording, received]
  | recording signal => simp [step, bare]
  | sending signal => cases sends : input.sends <;> simp [step, bare, NodeInput.recording, sends]
  | stopped => simp [step, bare]

theorem OmsNode.bare_step (node : OmsNode) :
    (node.step input).1.bare = (node.bare.step input.recording).1.bare ∧
      (node.step input).2 = (node.bare.step input.recording).2 := by
  cases phase : node.phase with
  | awaitingSignal =>
      cases received : input.received with
      | none => simp [step, bare, NodeInput.recording, phase, received]
      | some envelope =>
          cases envelope with
          | signal signal =>
              by_cases accepted : node.manager.Accepts signal
              · simp [step, bare, NodeInput.recording, phase, received,
                  OrderManager.onSignal_accept _ _ _ _ accepted]
              · simp [step, bare, NodeInput.recording, phase, received,
                  OrderManager.onSignal_refuse _ _ _ _ accepted]
          | _ => simp [step, bare, NodeInput.recording, phase, received]
  | sending order =>
      cases sends : input.sends <;> simp [step, bare, NodeInput.recording, phase, sends]
  | awaitingResponse =>
      cases received : input.received <;>
        simp [step, bare, NodeInput.recording, phase, received]
  | processing response =>
      cases response <;>
        simp [step, process, bare, NodeInput.recording, JournalLog.record, phase]
  | _ => simp [step, bare, NodeInput.recording, JournalLog.record, phase]

theorem GatewayNode.bare_step (node : GatewayNode) :
    (node.step input).1.bare = (node.bare.step input.recording).1.bare ∧
      (node.step input).2 = (node.bare.step input.recording).2 := by
  cases phase : node.phase with
  | receiving =>
      cases received : input.received with
      | none => simp [step, bare, NodeInput.recording, phase, received]
      | some envelope =>
          cases envelope with
          | newOrder order =>
              cases mode : node.mode with
              | kraken =>
                  cases accepted : input.accepted <;>
                    simp [step, respond, bare, NodeInput.recording, phase, received, mode,
                      accepted]
              | sim =>
                  cases available : node.simulatedGateway.available <;>
                    simp [step, respond, ExchangeGateway.sendOrder, bare, NodeInput.recording,
                      phase, received, mode, available]
          | _ => simp [step, bare, NodeInput.recording, phase, received]
  | recording response => simp [step, bare, NodeInput.recording, phase]
  | sending response =>
      cases sends : input.sends <;> simp [step, bare, NodeInput.recording, phase, sends]
  | stopped => simp [step, bare, phase]

end Node

/-! ### The nodes together -/

namespace DistributedNodes

def bare (nodes : DistributedNodes) : DistributedNodes :=
  { nodes with
    marketData := nodes.marketData.bare
    strategy := nodes.strategy.bare
    oms := nodes.oms.bare
    gateway := nodes.gateway.bare }

section Step

variable (nodes : DistributedNodes) (connected : Bool) (input : NodeInput)

theorem bare_stepMarketData :
    (nodes.stepMarketData input).bare = (nodes.bare.stepMarketData input.recording).bare := by
  obtain ⟨same, sent⟩ := nodes.marketData.bare_step
    { input with sends := nodes.marketDataToStrategy.delivers input }
  rw [bare, bare, DistributedNodes.mk.injEq]
  exact ⟨same, rfl, rfl, rfl, congrArg (nodes.marketDataToStrategy.send _) sent, rfl, rfl, rfl⟩

theorem bare_stepStrategy :
    (nodes.stepStrategy connected input).bare =
      (nodes.bare.stepStrategy connected input.recording).bare := by
  have phase : nodes.bare.strategy.phase = nodes.strategy.phase := rfl
  have connection : nodes.bare.marketDataToStrategy = nodes.marketDataToStrategy := rfl
  unfold stepStrategy
  rw [phase, connection]
  split
  · cases nodes.marketDataToStrategy.recv connected with
    | none => rfl
    | some result =>
        obtain ⟨same, -⟩ := nodes.strategy.bare_step { input with received := result.2 }
        rw [bare, bare, DistributedNodes.mk.injEq]
        exact ⟨rfl, same, rfl, rfl, rfl, rfl, rfl, rfl⟩
  · obtain ⟨same, sent⟩ := nodes.strategy.bare_step
      { input with sends := nodes.strategyToOms.delivers input }
    rw [bare, bare, DistributedNodes.mk.injEq]
    exact ⟨rfl, same, rfl, rfl, rfl, congrArg (nodes.strategyToOms.send _) sent, rfl, rfl⟩

theorem bare_stepOms :
    (nodes.stepOms connected input).bare =
      (nodes.bare.stepOms connected input.recording).bare := by
  have phase : nodes.bare.oms.phase = nodes.oms.phase := rfl
  have signals : nodes.bare.strategyToOms = nodes.strategyToOms := rfl
  have responses : nodes.bare.gatewayToOms = nodes.gatewayToOms := rfl
  unfold stepOms
  rw [phase, signals, responses]
  split
  · cases nodes.strategyToOms.recv connected with
    | none => rfl
    | some result =>
        obtain ⟨same, -⟩ := nodes.oms.bare_step { input with received := result.2 }
        rw [bare, bare, DistributedNodes.mk.injEq]
        exact ⟨rfl, rfl, same, rfl, rfl, rfl, rfl, rfl⟩
  · split
    · cases nodes.gatewayToOms.recv connected with
      | none => rfl
      | some result =>
          obtain ⟨same, -⟩ := nodes.oms.bare_step { input with received := result.2 }
          rw [bare, bare, DistributedNodes.mk.injEq]
          exact ⟨rfl, rfl, same, rfl, rfl, rfl, rfl, rfl⟩
    · obtain ⟨same, sent⟩ := nodes.oms.bare_step
        { input with sends := nodes.omsToGateway.delivers input }
      rw [bare, bare, DistributedNodes.mk.injEq]
      exact ⟨rfl, rfl, same, rfl, rfl, rfl, congrArg (nodes.omsToGateway.send _) sent, rfl⟩

theorem bare_stepGateway :
    (nodes.stepGateway connected input).bare =
      (nodes.bare.stepGateway connected input.recording).bare := by
  have phase : nodes.bare.gateway.phase = nodes.gateway.phase := rfl
  have connection : nodes.bare.omsToGateway = nodes.omsToGateway := rfl
  unfold stepGateway
  rw [phase, connection]
  split
  · cases nodes.omsToGateway.recv connected with
    | none => rfl
    | some result =>
        obtain ⟨same, -⟩ := nodes.gateway.bare_step { input with received := result.2 }
        rw [bare, bare, DistributedNodes.mk.injEq]
        exact ⟨rfl, rfl, rfl, same, rfl, rfl, rfl, rfl⟩
  · obtain ⟨same, sent⟩ := nodes.gateway.bare_step
      { input with sends := nodes.gatewayToOms.delivers input }
    rw [bare, bare, DistributedNodes.mk.injEq]
    exact ⟨rfl, rfl, rfl, same, rfl, rfl, rfl, congrArg (nodes.gatewayToOms.send _) sent⟩

end Step

theorem bare_step (nodes : DistributedNodes) (action : NodeAction) :
    (nodes.step action).bare = (nodes.bare.step action.recording).bare := by
  obtain ⟨actor, connected, input⟩ := action
  cases actor with
  | marketData => exact nodes.bare_stepMarketData input
  | strategy => exact nodes.bare_stepStrategy connected input
  | oms => exact nodes.bare_stepOms connected input
  | gateway => exact nodes.bare_stepGateway connected input

/-- The event of an attempt is in what the files and the metrics leave over. -/
theorem bare_attempt (nodes : DistributedNodes) (action : NodeAction) :
    (nodes.attempt action).map ReplayAttempt.event =
      (nodes.bare.attempt action.recording).map ReplayAttempt.event := by
  obtain ⟨actor, connected, input⟩ := action
  rw [attempt, attempt, Option.map_map, Option.map_map]
  cases actor <;> rfl

/-- The events that a run appends, or tries to, are those that it appends if all
writes work. -/
theorem history_recording (nodes : DistributedNodes) (actions : List NodeAction) :
    (nodes.history actions).map ReplayAttempt.event =
      (nodes.history (actions.map NodeAction.recording)).map ReplayAttempt.event := by
  have aligned : List.Forall₂ (fun action action' => action.recording = action') actions
      (actions.map NodeAction.recording) :=
    List.forall₂_map_right_iff.mpr (List.forall₂_same.mpr fun _ _ => rfl)
  have agreed := simulation recordingStep recordingStep
    (fun first second => first.bare = second.bare)
    (fun action action' => action.recording = action') ReplayAttempt.event ReplayAttempt.event
    (by
      intro first second action action' same paired
      subst paired
      have step : (first.step action).bare = (second.step action.recording).bare := by
        rw [first.bare_step, second.bare_step, same]
        rfl
      have event : (first.attempt action).map ReplayAttempt.event =
          (second.attempt action.recording).map ReplayAttempt.event := by
        rw [first.bare_attempt, second.bare_attempt, same]
        rfl
      refine ⟨step, ?_⟩
      rw [recordingStep, recordingStep, ← Option.toList_map, event, Option.toList_map])
    aligned nodes nodes rfl
  exact agreed.2

end DistributedNodes
end TradingPlatform
