import TradingPlatform.Connection
import TradingPlatform.Strategy

set_option autoImplicit false

/- The strategy node: every signal is recorded, then sent to the order
management node. -/
namespace TradingPlatform

open Transducer

/-- Where the node is in its loop. -/
inductive StrategyNodeAt where
  | receiving
  | recording (signal : Signal)
  | sending (signal : Signal)
  | stopped
  deriving DecidableEq, Repr

structure StrategyNode where
  strategy : StrategyEngine := { nodeId := 2 }
  replayWriter : ReplayLog
  signalSeq : Sequence := 0
  metrics : MetricsRegistry := {}
  phase : StrategyNodeAt := .receiving

namespace StrategyNode

def start (file : List ReplayEvent) (opens : Bool) : StrategyNode where
  replayWriter := ReplayLog.open { nodeRole := .strategy, events := file } opens

/-- One effect of the loop; the second component is what it sends. -/
def step (node : StrategyNode) (input : NodeInput) : StrategyNode × List Envelope :=
  match node.phase with
  | .receiving =>
      match input.received with
      | none => ({ node with phase := .stopped }, [])
      | some (.marketData md) =>
          let metrics := node.metrics.increment .marketDataReceived
          match node.strategy.onMarketData md input.now with
          | (strategy, none) => ({ node with strategy, metrics }, [])
          | (strategy, some signal) =>
              ({ node with
                  strategy
                  metrics := metrics.increment .signalsGenerated
                  phase := .recording signal }, [])
      | some _ => (node, [])
  | .recording signal =>
      let signalSeq := node.signalSeq + 1
      let (replayWriter, metrics) :=
        node.replayWriter.record node.metrics input.replay (.signal signal) signalSeq
      ({ node with
          replayWriter, signalSeq
          metrics := metrics.increment .replayEventsWritten
          phase := .sending signal }, [])
  | .sending signal =>
      if input.sends then ({ node with phase := .receiving }, [.signal signal])
      else
        ({ node with metrics := node.metrics.increment .queueDrops, phase := .stopped },
          [.signal signal])
  | .stopped => (node, [])

/-! ### What the node has recorded -/

/-- The signals in the replay file. -/
def recorded (node : StrategyNode) : List Signal :=
  node.replayWriter.envelopes.filterMap Envelope.signal?

/-- The signal that is about to be recorded. -/
def unrecorded (node : StrategyNode) : List Signal :=
  match node.phase with
  | .recording signal => [signal]
  | _ => []

/-- The signal that is recorded and about to be sent. -/
def unsent (node : StrategyNode) : List Signal :=
  match node.phase with
  | .sending signal => [signal]
  | _ => []

/-- The updates a step takes in. -/
def takes (node : StrategyNode) (input : NodeInput) : List MarketDataUpdate :=
  if node.phase = .receiving then (input.received.bind Envelope.marketData?).toList else []

/-- The node has done what the strategy does with the updates it has taken. -/
structure Follows (node : StrategyNode) (consumed : List MarketDataUpdate) : Prop where
  engine : node.strategy = after StrategyEngine.untimedStage { nodeId := 2 } consumed
  signals : (node.recorded ++ node.unrecorded).map Signal.untimed =
    emitted StrategyEngine.untimedStage { nodeId := 2 } consumed

section Step

variable (node : StrategyNode) (input : NodeInput)

theorem step_opened : (node.step input).1.replayWriter.opened = node.replayWriter.opened := by
  obtain ⟨strategy, replayWriter, signalSeq, metrics, phase⟩ := node
  cases phase with
  | receiving =>
      cases received : input.received with
      | none => simp [step, received]
      | some envelope =>
          cases envelope with
          | marketData md =>
              cases result : strategy.onMarketData md input.now with
              | mk engine maybeSignal => cases maybeSignal <;> simp [step, received, result]
          | _ => simp [step, received]
  | recording signal => simp [step]
  | sending signal => cases sends : input.sends <;> simp [step, sends]
  | stopped => rfl

/-- What a step at `recv_envelope` takes in goes through the strategy. -/
theorem receiving_step (receiving : node.phase = .receiving) :
    (node.step input).1.strategy =
        after StrategyEngine.untimedStage node.strategy (node.takes input) ∧
      (node.step input).1.recorded = node.recorded ∧
      (node.step input).1.unrecorded.map Signal.untimed =
        emitted StrategyEngine.untimedStage node.strategy (node.takes input) := by
  simp only [takes, step, receiving, ↓reduceIte]
  cases input.received with
  | none => exact ⟨rfl, rfl, rfl⟩
  | some envelope =>
      cases envelope with
      | marketData md =>
          obtain ⟨engine, produced⟩ := node.strategy.stage_untimed md input.now
          cases result : node.strategy.onMarketData md input.now with
          | mk strategy maybeSignal =>
              rw [StrategyEngine.stage, result] at engine produced
              simp only [Option.bind_some, Envelope.marketData?, Option.toList_some, after_cons,
                after_nil, emitted_cons, emitted_nil, List.append_nil, ← engine, ← produced]
              cases maybeSignal with
              | none => simp [result, recorded, unrecorded]
              | some signal => simp [result, recorded, unrecorded]
      | _ => exact ⟨rfl, rfl, by rw [unrecorded, receiving]; rfl⟩

theorem receiving_unsent (receiving : node.phase = .receiving) :
    node.unsent = [] ∧ (node.step input).1.unsent = [] := by
  refine ⟨by rw [unsent, receiving], ?_⟩
  simp only [step, receiving]
  cases input.received with
  | none => rfl
  | some envelope =>
      cases envelope with
      | marketData md =>
          cases result : node.strategy.onMarketData md input.now with
          | mk strategy maybeSignal => cases maybeSignal <;> simp [result, unsent]
      | _ => simp [unsent, receiving]

/-- The other steps take nothing in and lose nothing. -/
theorem working_step (working : node.phase ≠ .receiving)
    (opened : node.replayWriter.opened = true) (writes : input.replay.writes = true) :
    (node.step input).1.strategy = node.strategy ∧
      (node.step input).1.recorded ++ (node.step input).1.unrecorded =
        node.recorded ++ node.unrecorded := by
  unfold step
  cases phase : node.phase with
  | receiving => exact absurd phase working
  | recording signal =>
      refine ⟨rfl, ?_⟩
      simp only [recorded, unrecorded, phase, List.append_nil]
      rw [ReplayLog.record_envelopes _ _ _ _ _ opened writes, List.filterMap_append]
      rfl
  | sending signal =>
      cases input.sends <;>
        exact ⟨rfl, by simp only [recorded, unrecorded, phase, Bool.false_eq_true, ↓reduceIte]⟩
  | stopped => exact ⟨rfl, rfl⟩

theorem follows_step (consumed : List MarketDataUpdate)
    (opened : node.replayWriter.opened = true) (writes : input.replay.writes = true)
    (follows : node.Follows consumed) :
    (node.step input).1.Follows (consumed ++ node.takes input) := by
  obtain ⟨engine, signals⟩ := follows
  by_cases receiving : node.phase = .receiving
  · obtain ⟨next, recorded, produced⟩ := node.receiving_step input receiving
    have none : node.unrecorded = [] := by rw [unrecorded, receiving]
    rw [none, List.append_nil] at signals
    refine ⟨?_, ?_⟩
    · rw [next, engine, after_append]
    · rw [recorded, List.map_append, signals, produced, engine, emitted_append]
  · obtain ⟨same, kept⟩ := node.working_step input receiving opened writes
    rw [takes, if_neg receiving, List.append_nil]
    exact ⟨same.trans engine, (congrArg (List.map Signal.untimed) kept).trans signals⟩

/-- What is recorded is sent next, or never. -/
theorem carries_step (consumed : List Signal) (connection : Connection)
    (opened : node.replayWriter.opened = true) (writes : input.replay.writes = true)
    (intact : input.sends = true → connection.broken = false)
    (carries : connection.Carries Envelope.signal? node.recorded node.unsent consumed) :
    (connection.send input.sends (node.step input).2).Carries Envelope.signal?
      (node.step input).1.recorded (node.step input).1.unsent consumed := by
  unfold step
  cases phase : node.phase with
  | receiving =>
      rw [unsent, phase] at carries
      cases input.received with
      | none => exact carries
      | some envelope =>
          cases envelope with
          | marketData md =>
              cases result : node.strategy.onMarketData md input.now with
              | mk strategy maybeSignal =>
                  cases maybeSignal with
                  | none => simpa [result, recorded, unsent, phase] using carries
                  | some signal => simpa [result, recorded, unsent] using carries
          | _ => simpa [recorded, unsent, phase] using carries
  | recording signal =>
      rw [unsent, phase] at carries
      simp only [recorded, unsent, ReplayLog.record_envelopes _ _ _ _ _ opened writes,
        List.filterMap_append]
      exact carries.record signal
  | sending signal =>
      rw [unsent, phase] at carries
      have sent := carries.send input.sends intact (.signal signal) rfl
      cases sends : input.sends <;> rw [sends] at sent <;> exact sent
  | stopped =>
      rw [unsent, phase] at carries
      simpa [recorded, unsent, phase] using carries

end Step

end StrategyNode
end TradingPlatform
