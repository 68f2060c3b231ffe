import TradingPlatform.ThreadedRuntime

set_option autoImplicit false

/- The threaded runtime refines the pipeline: a queue and what its producer is
about to push form one channel, and a push into a full queue loses a message. -/
namespace TradingPlatform

open Transducer

namespace ThreadedRuntime

open Pipeline (Output)

variable {capacity : Nat}

/-- The pipeline that a state of the runtime stands for. -/
def view (runtime : ThreadedRuntime capacity) : Pipeline where
  strategy := runtime.strategy
  oms := runtime.oms.manager
  gateway := runtime.gateway
  input := runtime.input
  quotes := runtime.bus.marketToStrategy.contents.filterMap Envelope.marketData?
  signals := runtime.bus.strategyToOms.contents.filterMap Envelope.signal? ++
    runtime.strategyAt.held
  orders := runtime.bus.omsToGateway.contents.filterMap Envelope.newOrder? ++
    runtime.omsAt.held
  answers := runtime.bus.gatewayToOms.contents ++ runtime.gatewayAt.held

/-- The pipeline's part in an action. -/
def moves (runtime : ThreadedRuntime capacity) : ThreadAction → List Pipeline.Action
  | .marketData =>
      if !runtime.running || runtime.input.isEmpty then []
      else if runtime.bus.marketToStrategy.Full then [.loseQuote] else [.publish]
  | .strategy now =>
      match runtime.strategyAt with
      | .pushing _ => if runtime.bus.strategyToOms.Full then [.loseSignal] else []
      | .head =>
          match runtime.running, runtime.bus.marketToStrategy.contents with
          | true, .marketData _ :: _ => [.strategy now]
          | _, _ => []
  | .oms now rejectNow _ =>
      match runtime.omsAt with
      | .pushing _ => if runtime.bus.omsToGateway.Full then [.loseOrder] else []
      | .head =>
          match runtime.running, runtime.bus.strategyToOms.contents with
          | true, .signal _ :: _ => [.order now rejectNow]
          | _, _ => []
      | .responses => if runtime.bus.gatewayToOms.contents = [] then [] else [.settle]
  | .gateway now =>
      match runtime.gatewayAt with
      | .pushing _ => if runtime.bus.gatewayToOms.Full then [.loseAnswer] else []
      | .head =>
          match runtime.running, runtime.bus.omsToGateway.contents with
          | true, .newOrder _ :: _ => [.exchange now]
          | _, _ => []
  | .shutdown => []

/-- The message of an action whose push is refused. -/
def refused (runtime : ThreadedRuntime capacity) : ThreadAction → List Envelope
  | .marketData =>
      match runtime.running, runtime.input with
      | true, update :: _ =>
          if runtime.bus.marketToStrategy.Full then [.marketData update] else []
      | _, _ => []
  | .strategy _ =>
      match runtime.strategyAt with
      | .pushing signal => if runtime.bus.strategyToOms.Full then [.signal signal] else []
      | .head => []
  | .oms .. =>
      match runtime.omsAt with
      | .pushing order => if runtime.bus.omsToGateway.Full then [.newOrder order] else []
      | _ => []
  | .gateway _ =>
      match runtime.gatewayAt with
      | .pushing response => if runtime.bus.gatewayToOms.Full then [response] else []
      | .head => []
  | .shutdown => []

/-- The sum of the queues' own counters. -/
def dropped (runtime : ThreadedRuntime capacity) : UInt64 :=
  runtime.bus.marketToStrategy.dropped + runtime.bus.strategyToOms.dropped +
    runtime.bus.omsToGateway.dropped + runtime.bus.gatewayToOms.dropped

/-- What a thread does is what some actions do to the pipeline, and the counters
count the messages that these lose. -/
structure Refines (runtime : ThreadedRuntime capacity) (actions : List Pipeline.Action)
    (result : ThreadedRuntime capacity × List Output) : Prop where
  states : after Pipeline.step runtime.view actions = result.1.view
  outputs : emitted Pipeline.step runtime.view actions = result.2
  dropped : result.1.dropped =
    runtime.dropped + UInt64.ofNat (actions.countP fun action => ¬ action.Lossless)

section Threads

variable (runtime : ThreadedRuntime capacity)

theorem Refines.idle : Refines runtime [] (runtime, []) :=
  ⟨rfl, rfl, (UInt64.add_zero runtime.dropped).symm⟩

theorem marketDataThread_refines :
    Refines runtime (runtime.moves .marketData) runtime.marketDataThread := by
  unfold moves marketDataThread
  cases running : runtime.running with
  | false => exact .idle runtime
  | true =>
      cases input : runtime.input with
      | nil => exact .idle runtime
      | cons update rest =>
          rcases runtime.bus.marketToStrategy.push_cases (.marketData update) with
            ⟨full, next, push, contents, count⟩ | ⟨room, next, push, contents, count⟩
          · refine ⟨?_, ?_, ?_⟩
            · simp [full, push, view, Pipeline.step, input, contents]
            · simp [full, Pipeline.step]
            · simp [full, push, count, dropped, Pipeline.Action.Lossless]
              ac_rfl
          · refine ⟨?_, ?_, ?_⟩
            · simp [room, push, view, Pipeline.step, input, contents, Envelope.marketData?]
            · simp [room, push, view, Pipeline.step, input]
            · simp [room, push, count, dropped, Pipeline.Action.Lossless]

theorem strategyThread_refines (now : TimestampNs) :
    Refines runtime (runtime.moves (.strategy now)) (runtime.strategyThread now) := by
  unfold moves strategyThread
  cases phase : runtime.strategyAt with
  | head =>
      cases running : runtime.running with
      | false => exact .idle runtime
      | true =>
          rcases runtime.bus.marketToStrategy.pop_cases with
            ⟨empty, pop⟩ | ⟨message, rest, next, waiting, pop, contents, count⟩
          · refine ⟨?_, ?_, ?_⟩
            · simp [empty, pop, view, phase, LoopAt.held]
            · simp [empty, pop]
            · simp [empty, pop, dropped]
          · cases message with
            | marketData update =>
                cases result : runtime.strategy.onMarketData update now with
                | mk engine maybeSignal =>
                    refine ⟨?_, ?_, ?_⟩
                    · cases maybeSignal <;>
                        simp [waiting, pop, contents, result, view, Pipeline.step, phase,
                          LoopAt.held, Envelope.marketData?, StrategyEngine.stage]
                    · cases maybeSignal <;>
                        simp [waiting, pop, result, view, Pipeline.step,
                          Envelope.marketData?, StrategyEngine.stage]
                    · cases maybeSignal <;>
                        simp [waiting, pop, count, result, dropped, Pipeline.Action.Lossless]
            | _ =>
                refine ⟨?_, ?_, ?_⟩
                · simp [waiting, pop, contents, view, phase, LoopAt.held, Envelope.marketData?,
                    List.filterMap_cons]
                · simp [waiting, pop]
                · simp [waiting, pop, count, dropped]
  | pushing signal =>
      rcases runtime.bus.strategyToOms.push_cases (.signal signal) with
        ⟨full, next, push, contents, count⟩ | ⟨room, next, push, contents, count⟩
      · refine ⟨?_, ?_, ?_⟩
        · simp [full, push, contents, view, Pipeline.step, phase, LoopAt.held]
        · simp [full, Pipeline.step]
        · simp [full, push, count, dropped, Pipeline.Action.Lossless]
          ac_rfl
      · refine ⟨?_, ?_, ?_⟩
        · simp [room, push, contents, view, phase, LoopAt.held, Envelope.signal?]
        · simp [room]
        · simp [room, push, count, dropped]

theorem omsThread_refines (now rejectNow : TimestampNs) (io : JournalIo) :
    Refines runtime (runtime.moves (.oms now rejectNow io))
      (runtime.omsThread now rejectNow io) := by
  unfold moves omsThread
  cases phase : runtime.omsAt with
  | head =>
      cases running : runtime.running with
      | false => exact .idle runtime
      | true =>
          rcases runtime.bus.strategyToOms.pop_cases with
            ⟨empty, pop⟩ | ⟨message, rest, next, waiting, pop, contents, count⟩
          · refine ⟨?_, ?_, ?_⟩
            · simp [empty, pop, view, phase, OmsAt.held]
            · simp [empty, pop]
            · simp [empty, pop, dropped]
          · cases message with
            | signal signal =>
                obtain ⟨manager, orders⟩ :=
                  runtime.oms.onSignalMessage_stage signal now rejectNow io
                cases result : runtime.oms.onSignalMessage (.signal signal) now rejectNow io with
                | mk thread maybeOrder =>
                    rw [result] at manager orders
                    refine ⟨?_, ?_, ?_⟩
                    · cases maybeOrder <;>
                        simp [waiting, pop, contents, result, view, Pipeline.step, phase,
                          OmsAt.held, Envelope.signal?, ← manager, ← orders]
                    · cases maybeOrder <;>
                        simp [waiting, pop, result, view, Pipeline.step, Envelope.signal?,
                          ← orders]
                    · cases maybeOrder <;>
                        simp [waiting, pop, count, result, dropped, Pipeline.Action.Lossless]
            | _ =>
                refine ⟨?_, ?_, ?_⟩
                · simp [waiting, pop, contents, view, phase, OmsAt.held, Envelope.signal?,
                    OmsThread.onSignalMessage, List.filterMap_cons]
                · simp [waiting, pop, OmsThread.onSignalMessage]
                · simp [waiting, pop, count, dropped, OmsThread.onSignalMessage]
  | pushing order =>
      rcases runtime.bus.omsToGateway.push_cases (.newOrder order) with
        ⟨full, next, push, contents, count⟩ | ⟨room, next, push, contents, count⟩
      · refine ⟨?_, ?_, ?_⟩
        · simp [full, push, contents, view, Pipeline.step, phase, OmsAt.held]
        · simp [full, Pipeline.step]
        · simp [full, push, count, dropped, Pipeline.Action.Lossless]
          ac_rfl
      · refine ⟨?_, ?_, ?_⟩
        · simp [room, push, contents, view, phase, OmsAt.held, Envelope.newOrder?]
        · simp [room]
        · simp [room, push, count, dropped]
  | responses =>
      rcases runtime.bus.gatewayToOms.pop_cases with
        ⟨empty, pop⟩ | ⟨message, rest, next, waiting, pop, contents, count⟩
      · refine ⟨?_, ?_, ?_⟩
        · simp [empty, pop, view, phase, OmsAt.held]
        · simp [empty, pop]
        · simp [empty, pop, dropped]
      · refine ⟨?_, ?_, ?_⟩
        · simp [waiting, pop, contents, view, Pipeline.step, phase, OmsAt.held]
        · simp [waiting, pop, view, Pipeline.step]
        · simp [waiting, pop, count, dropped, Pipeline.Action.Lossless]

theorem gatewayThread_refines (now : TimestampNs) :
    Refines runtime (runtime.moves (.gateway now)) (runtime.gatewayThread now) := by
  unfold moves gatewayThread
  cases phase : runtime.gatewayAt with
  | head =>
      cases running : runtime.running with
      | false => exact .idle runtime
      | true =>
          rcases runtime.bus.omsToGateway.pop_cases with
            ⟨empty, pop⟩ | ⟨message, rest, next, waiting, pop, contents, count⟩
          · refine ⟨?_, ?_, ?_⟩
            · simp [empty, pop, view, phase, LoopAt.held]
            · simp [empty, pop]
            · simp [empty, pop, dropped]
          · cases message with
            | newOrder order =>
                cases result : runtime.gateway.sendOrder order now with
                | mk gateway maybeResponse =>
                    refine ⟨?_, ?_, ?_⟩
                    · cases maybeResponse <;>
                        simp [waiting, pop, contents, result, view, Pipeline.step, phase,
                          LoopAt.held, Envelope.newOrder?, ExchangeGateway.stage]
                    · cases maybeResponse <;>
                        simp [waiting, pop, result, view, Pipeline.step, Envelope.newOrder?,
                          ExchangeGateway.stage]
                    · cases maybeResponse <;>
                        simp [waiting, pop, count, result, dropped, Pipeline.Action.Lossless]
            | _ =>
                refine ⟨?_, ?_, ?_⟩
                · simp [waiting, pop, contents, view, phase, LoopAt.held, Envelope.newOrder?,
                    List.filterMap_cons]
                · simp [waiting, pop]
                · simp [waiting, pop, count, dropped]
  | pushing response =>
      rcases runtime.bus.gatewayToOms.push_cases response with
        ⟨full, next, push, contents, count⟩ | ⟨room, next, push, contents, count⟩
      · refine ⟨?_, ?_, ?_⟩
        · simp [full, push, contents, view, Pipeline.step, phase, LoopAt.held]
        · simp [full, Pipeline.step]
        · simp [full, push, count, dropped, Pipeline.Action.Lossless]
          ac_rfl
      · refine ⟨?_, ?_, ?_⟩
        · simp [room, push, contents, view, phase, LoopAt.held]
        · simp [room]
        · simp [room, push, count, dropped]

end Threads

/-- Each action of a thread is an action of the pipeline, or none. -/
theorem step_refines (runtime : ThreadedRuntime capacity) (action : ThreadAction) :
    Refines runtime (runtime.moves action) (runtime.step action) := by
  cases action with
  | marketData => exact runtime.marketDataThread_refines
  | strategy now => exact runtime.strategyThread_refines now
  | oms now rejectNow io => exact runtime.omsThread_refines now rejectNow io
  | gateway now => exact runtime.gatewayThread_refines now
  | shutdown => exact ⟨rfl, rfl, (UInt64.add_zero runtime.dropped).symm⟩

/-- The pipeline loses what a queue refuses. -/
theorem moves_refused (runtime : ThreadedRuntime capacity) (action : ThreadAction) :
    (runtime.moves action).countP (fun move => ¬ move.Lossless) =
      (runtime.refused action).length := by
  cases action with
  | marketData =>
      unfold moves refused
      cases runtime.running with
      | false => rfl
      | true =>
          cases runtime.input with
          | nil => rfl
          | cons update rest => by_cases full : runtime.bus.marketToStrategy.Full <;>
              simp [full, Pipeline.Action.Lossless]
  | strategy now =>
      unfold moves refused
      cases runtime.strategyAt <;> dsimp only <;> split <;> rfl
  | oms now rejectNow io =>
      unfold moves refused
      cases runtime.omsAt <;> dsimp only <;> split <;> rfl
  | gateway now =>
      unfold moves refused
      cases runtime.gatewayAt <;> dsimp only <;> split <;> rfl
  | shutdown => rfl

/-! ### Runs -/

section Runs

variable (positive : 0 < capacity) (journal : JournalLog) (io : JournalIo)
variable (input : List MarketDataUpdate)

@[simp] theorem view_start :
    (start positive journal io input).view = {
      strategy := { nodeId := 2 }, oms := .new 3 OmsThread.limits, gateway := { nodeId := 4 }
      input := input } := by
  simp [start, view, LocalBus.empty, LoopAt.held, OmsAt.held, OmsThread.start]

/-- The state a run reaches. -/
def reached (actions : List ThreadAction) : ThreadedRuntime capacity :=
  after step (start positive journal io input) actions

/-- What has been made known by then. -/
def produced (actions : List ThreadAction) : List Output :=
  emitted step (start positive journal io input) actions

/-- The pipeline's part in a run. -/
def pipelineActions (actions : List ThreadAction) : List Pipeline.Action :=
  translated step moves (start positive journal io input) actions

theorem reached_refines (actions : List ThreadAction) :
    after Pipeline.step (start positive journal io input).view
        (pipelineActions positive journal io input actions) =
          (reached positive journal io input actions).view ∧
      emitted Pipeline.step (start positive journal io input).view
        (pipelineActions positive journal io input actions) =
          produced positive journal io input actions :=
  refinement step Pipeline.step view moves
    (fun runtime action =>
      ⟨(step_refines runtime action).states, (step_refines runtime action).outputs⟩)
    (start positive journal io input) actions

end Runs

/-! ### Dropped messages -/

/-- The messages of a run that a queue has refused. -/
def lost (positive : 0 < capacity) (journal : JournalLog) (io : JournalIo)
    (input : List MarketDataUpdate) (actions : List ThreadAction) : List Envelope :=
  translated step refused (start positive journal io input) actions

/-- The counters, which are 64-bit words, count them. -/
theorem reached_dropped (positive : 0 < capacity) (journal : JournalLog) (io : JournalIo)
    (input : List MarketDataUpdate) (actions : List ThreadAction) :
    (reached positive journal io input actions).dropped =
      UInt64.ofNat (lost positive journal io input actions).length := by
  have counted := translated_counter step refused dropped
    (fun runtime action => by
      rw [(step_refines runtime action).dropped, moves_refused])
    (start positive journal io input) actions
  exact counted.trans (UInt64.zero_add _)

/-- A run in which no push is refused is a run of the pipeline that loses nothing. -/
theorem lossless_of_lost (positive : 0 < capacity) (journal : JournalLog) (io : JournalIo)
    (input : List MarketDataUpdate) (actions : List ThreadAction)
    (complete : lost positive journal io input actions = []) :
    ∀ move ∈ pipelineActions positive journal io input actions, move.Lossless := by
  have count := countP_translated step moves refused (fun move => ¬ move.Lossless) moves_refused
    (start positive journal io input) actions
  rw [← lost, complete, List.length_nil, List.countP_eq_zero] at count
  intro move member
  simpa using count move member

/-- Two quotes wide enough to trade on. -/
def twoQuotes : List MarketDataUpdate :=
  [{ symbolId := 1, bidPx := 10000, askPx := 10005, exchangeSequence := 1 },
    { symbolId := 1, bidPx := 10001, askPx := 10006, exchangeSequence := 2 }]

end ThreadedRuntime
end TradingPlatform
