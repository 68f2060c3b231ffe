import TradingPlatform.OmsThread
import TradingPlatform.Pipeline
import TradingPlatform.SpscQueue

set_option autoImplicit false

/- The threaded runtime: four loops over four bounded queues. An action is the
work of one thread around a single queue operation, so that any interleaving of
the loops is a list of actions. -/
namespace TradingPlatform

def busCapacity : Nat := 1 <<< 14

/-- `LocalBus`, at any capacity; the source's is `busCapacity`. -/
structure LocalBus (capacity : Nat) where
  marketToStrategy : SpscQueue Envelope capacity
  strategyToOms : SpscQueue Envelope capacity
  omsToGateway : SpscQueue Envelope capacity
  gatewayToOms : SpscQueue Envelope capacity

def LocalBus.empty {capacity : Nat} (positive : 0 < capacity) : LocalBus capacity where
  marketToStrategy := .empty positive
  strategyToOms := .empty positive
  omsToGateway := .empty positive
  gatewayToOms := .empty positive

/-- Where the strategy and the gateway thread are in their loops. -/
inductive LoopAt (α : Type) where
  | head
  | pushing (item : α)
  deriving DecidableEq, Repr

/-- The message a thread has produced and not pushed yet. -/
def LoopAt.held {α : Type} : LoopAt α → List α
  | .head => []
  | .pushing item => [item]

structure ThreadedRuntime (capacity : Nat) where
  running : Bool := true
  /-- The updates the market data thread is still going to publish. -/
  input : List MarketDataUpdate
  bus : LocalBus capacity
  strategy : StrategyEngine := { nodeId := 2 }
  strategyAt : LoopAt Signal := .head
  oms : OmsThread
  omsAt : OmsAt := .head
  gateway : ExchangeGateway := { nodeId := 4 }
  gatewayAt : LoopAt Envelope := .head

/-- The thread that moves, with the clock readings and the journal calls it
makes; or the store that ends the run. -/
inductive ThreadAction where
  | marketData
  | strategy (now : TimestampNs)
  | oms (now rejectNow : TimestampNs) (io : JournalIo)
  | gateway (now : TimestampNs)
  | shutdown
  deriving DecidableEq, Repr

namespace ThreadedRuntime

open Pipeline (Output)

variable {capacity : Nat}

def start (positive : 0 < capacity) (journal : JournalLog) (io : JournalIo)
    (input : List MarketDataUpdate) : ThreadedRuntime capacity where
  input := input
  bus := .empty positive
  oms := .start journal io

def marketDataThread (runtime : ThreadedRuntime capacity) :
    ThreadedRuntime capacity × List Output :=
  if !runtime.running then (runtime, [])
  else
    match runtime.input with
    | [] => (runtime, [])
    | update :: rest =>
        let (marketToStrategy, _) := runtime.bus.marketToStrategy.push (.marketData update)
        ({ runtime with input := rest, bus := { runtime.bus with marketToStrategy } }, [])

def strategyThread (runtime : ThreadedRuntime capacity) (now : TimestampNs) :
    ThreadedRuntime capacity × List Output :=
  match runtime.strategyAt with
  | .head =>
      if !runtime.running then (runtime, [])
      else
        match runtime.bus.marketToStrategy.pop with
        | (marketToStrategy, some (.marketData update)) =>
            let bus := { runtime.bus with marketToStrategy }
            match runtime.strategy.onMarketData update now with
            | (strategy, none) => ({ runtime with bus, strategy }, [])
            | (strategy, some signal) =>
                ({ runtime with bus, strategy, strategyAt := .pushing signal }, [.signal signal])
        | (marketToStrategy, _) =>
            ({ runtime with bus := { runtime.bus with marketToStrategy } }, [])
  | .pushing signal =>
      let (strategyToOms, _) := runtime.bus.strategyToOms.push (.signal signal)
      ({ runtime with bus := { runtime.bus with strategyToOms }, strategyAt := .head }, [])

def omsThread (runtime : ThreadedRuntime capacity) (now rejectNow : TimestampNs)
    (io : JournalIo) : ThreadedRuntime capacity × List Output :=
  match runtime.omsAt with
  | .head =>
      if !runtime.running then (runtime, [])
      else
        match runtime.bus.strategyToOms.pop with
        | (strategyToOms, none) =>
            ({ runtime with bus := { runtime.bus with strategyToOms }, omsAt := .responses }, [])
        | (strategyToOms, some message) =>
            let bus := { runtime.bus with strategyToOms }
            match runtime.oms.onSignalMessage message now rejectNow io with
            | (oms, none) => ({ runtime with bus, oms, omsAt := .responses }, [])
            | (oms, some order) =>
                ({ runtime with bus, oms, omsAt := .pushing order }, [.order order])
  | .pushing order =>
      let (omsToGateway, _) := runtime.bus.omsToGateway.push (.newOrder order)
      ({ runtime with bus := { runtime.bus with omsToGateway }, omsAt := .responses }, [])
  | .responses =>
      match runtime.bus.gatewayToOms.pop with
      | (gatewayToOms, none) =>
          ({ runtime with bus := { runtime.bus with gatewayToOms }, omsAt := .head }, [])
      | (gatewayToOms, some message) =>
          ({ runtime with
              bus := { runtime.bus with gatewayToOms }
              oms := runtime.oms.onGatewayMessage message io
              omsAt := .head }, [.settled message])

def gatewayThread (runtime : ThreadedRuntime capacity) (now : TimestampNs) :
    ThreadedRuntime capacity × List Output :=
  match runtime.gatewayAt with
  | .head =>
      if !runtime.running then (runtime, [])
      else
        match runtime.bus.omsToGateway.pop with
        | (omsToGateway, some (.newOrder order)) =>
            let bus := { runtime.bus with omsToGateway }
            match runtime.gateway.sendOrder order now with
            | (gateway, none) => ({ runtime with bus, gateway }, [])
            | (gateway, some response) =>
                ({ runtime with bus, gateway, gatewayAt := .pushing response },
                  [.answer response])
        | (omsToGateway, _) =>
            ({ runtime with bus := { runtime.bus with omsToGateway } }, [])
  | .pushing response =>
      let (gatewayToOms, _) := runtime.bus.gatewayToOms.push response
      ({ runtime with bus := { runtime.bus with gatewayToOms }, gatewayAt := .head }, [])

def step (runtime : ThreadedRuntime capacity) :
    ThreadAction → ThreadedRuntime capacity × List Output
  | .marketData => runtime.marketDataThread
  | .strategy now => runtime.strategyThread now
  | .oms now rejectNow io => runtime.omsThread now rejectNow io
  | .gateway now => runtime.gatewayThread now
  | .shutdown => ({ runtime with running := false }, [])

/-! ### The order management thread on its own -/

def omsLoop (runtime : ThreadedRuntime capacity) : OmsLoop where
  thread := runtime.oms
  phase := runtime.omsAt

/-- What the thread does in the runtime is what its loop does with the message
the queue has for it. -/
theorem omsThread_loop (runtime : ThreadedRuntime capacity) (now rejectNow : TimestampNs)
    (io : JournalIo) (running : runtime.omsAt = .head → runtime.running = true) :
    ∃ received, (runtime.omsThread now rejectNow io).1.omsLoop =
      (runtime.omsLoop.step
        { received, now, rejectNow, io, room := ¬ runtime.bus.omsToGateway.Full }).1 := by
  unfold omsThread omsLoop
  cases phase : runtime.omsAt with
  | head =>
      rw [running phase]
      rcases runtime.bus.strategyToOms.pop_cases with
        ⟨-, pop⟩ | ⟨message, rest, next, -, pop, -, -⟩
      · exact ⟨none, by simp [pop, OmsLoop.step]⟩
      · refine ⟨some message, ?_⟩
        cases result : runtime.oms.onSignalMessage message now rejectNow io with
        | mk thread maybeOrder => cases maybeOrder <;> simp [pop, OmsLoop.step, result]
  | pushing order => exact ⟨none, by simp [OmsLoop.step]⟩
  | responses =>
      rcases runtime.bus.gatewayToOms.pop_cases with
        ⟨-, pop⟩ | ⟨message, rest, next, -, pop, -, -⟩
      · exact ⟨none, by simp [pop, OmsLoop.step]⟩
      · exact ⟨some message, by simp [pop, OmsLoop.step]⟩

end ThreadedRuntime
end TradingPlatform
