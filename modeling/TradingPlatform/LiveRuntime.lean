import TradingPlatform.LiveConnectors
import TradingPlatform.OrderBook
import TradingPlatform.ThreadedEquivalence

set_option autoImplicit false

/- The live runtime: the frames of a venue, normalized, through the strategy, the
order manager and the simulated gateway. -/
namespace TradingPlatform

open Transducer

structure LiveRuntime (capacity : Nat) where
  running : Bool := true
  /-- The frames that the market data thread is still going to read. -/
  frames : List Frame
  book : TopOfBook := {}
  bus : LocalBus capacity
  strategy : StrategyEngine := { nodeId := 2 }
  strategyAt : LoopAt Signal := .head
  oms : OrderManager
  omsAt : OmsAt := .head
  gateway : ExchangeGateway := { nodeId := 4 }
  gatewayAt : LoopAt Envelope := .head

/-- The thread that moves, or the signal handler. -/
inductive LiveAction where
  | marketData
  | strategy (now : TimestampNs)
  | oms (now rejectNow : TimestampNs)
  | gateway (now : TimestampNs)
  | handleSignal
  deriving DecidableEq, Repr

namespace LiveRuntime

open Pipeline (Output signalsOf ordersOf answersOf)

variable {capacity : Nat}

def limits : RiskLimits where
  maxPosition := 10
  maxOrderQty := 2
  maxNotional := 10000000

/-- A connector that does not get as far as its loop reads nothing. -/
def start (positive : 0 < capacity) (connector : LiveConnector) (client : WssClient) :
    LiveRuntime capacity where
  frames := if connector.opens client then client.frames else []
  bus := .empty positive
  oms := .new 3 limits

/-- The callback of the connector. -/
def onMarketData (runtime : LiveRuntime capacity) (md : NormalizedMarketData) :
    LiveRuntime capacity :=
  let (marketToStrategy, _) := runtime.bus.marketToStrategy.push (.marketData md.update)
  { runtime with
    book := runtime.book.apply md.update
    bus := { runtime.bus with marketToStrategy } }

/-- One turn of the connector's loop. It does not look at the flag, and clears it
when a read fails. -/
def marketDataThread (connector : LiveConnector) (runtime : LiveRuntime capacity) :
    LiveRuntime capacity × List Output :=
  match runtime.frames with
  | [] => ({ runtime with running := false }, [])
  | frame :: frames =>
      match connector.normalize 1 frame with
      | none => ({ runtime with frames }, [])
      | some md => (onMarketData { runtime with frames } md, [])

def strategyThread (runtime : LiveRuntime capacity) (now : TimestampNs) :
    LiveRuntime capacity × List Output :=
  match runtime.strategyAt with
  | .head =>
      if !runtime.running then (runtime, [])
      else
        match runtime.bus.marketToStrategy.pop with
        | (marketToStrategy, some (.marketData update)) =>
            let bus := { runtime.bus with marketToStrategy }
            match runtime.strategy.onMarketData update now with
            | (strategy, none) => ({ runtime with bus, strategy }, [])
            | (strategy, some signal) =>
                ({ runtime with bus, strategy, strategyAt := .pushing signal }, [.signal signal])
        | (marketToStrategy, _) =>
            ({ runtime with bus := { runtime.bus with marketToStrategy } }, [])
  | .pushing signal =>
      let (strategyToOms, _) := runtime.bus.strategyToOms.push (.signal signal)
      ({ runtime with bus := { runtime.bus with strategyToOms }, strategyAt := .head }, [])

/-- Nothing is journaled here. -/
def omsThread (runtime : LiveRuntime capacity) (now rejectNow : TimestampNs) :
    LiveRuntime capacity × List Output :=
  match runtime.omsAt with
  | .head =>
      if !runtime.running then (runtime, [])
      else
        match runtime.bus.strategyToOms.pop with
        -- the type of the message is not looked at: the strategy pushes signals only
        | (strategyToOms, some (.signal signal)) =>
            let bus := { runtime.bus with strategyToOms }
            match runtime.oms.onSignal signal now rejectNow with
            | (oms, some (.newOrder order)) =>
                ({ runtime with bus, oms, omsAt := .pushing order }, [.order order])
            | (oms, _) => ({ runtime with bus, oms, omsAt := .responses }, [])
        | (strategyToOms, _) =>
            ({ runtime with bus := { runtime.bus with strategyToOms }, omsAt := .responses }, [])
  | .pushing order =>
      let (omsToGateway, _) := runtime.bus.omsToGateway.push (.newOrder order)
      ({ runtime with bus := { runtime.bus with omsToGateway }, omsAt := .responses }, [])
  | .responses =>
      match runtime.bus.gatewayToOms.pop with
      | (gatewayToOms, none) =>
          ({ runtime with bus := { runtime.bus with gatewayToOms }, omsAt := .head }, [])
      | (gatewayToOms, some message) =>
          let oms :=
            match message with
            | .ack ack => (runtime.oms.onGatewayAck ack).1
            | .reject reject => (runtime.oms.onGatewayReject reject).1
            | _ => runtime.oms
          ({ runtime with bus := { runtime.bus with gatewayToOms }, oms, omsAt := .head },
            [.settled message])

def gatewayThread (runtime : LiveRuntime capacity) (now : TimestampNs) :
    LiveRuntime capacity × List Output :=
  match runtime.gatewayAt with
  | .head =>
      if !runtime.running then (runtime, [])
      else
        match runtime.bus.omsToGateway.pop with
        | (omsToGateway, some (.newOrder order)) =>
            let bus := { runtime.bus with omsToGateway }
            match runtime.gateway.sendOrder order now with
            | (gateway, none) => ({ runtime with bus, gateway }, [])
            | (gateway, some response) =>
                ({ runtime with bus, gateway, gatewayAt := .pushing response },
                  [.answer response])
        | (omsToGateway, _) =>
            ({ runtime with bus := { runtime.bus with omsToGateway } }, [])
  | .pushing response =>
      let (gatewayToOms, _) := runtime.bus.gatewayToOms.push response
      ({ runtime with bus := { runtime.bus with gatewayToOms }, gatewayAt := .head }, [])

def step (connector : LiveConnector) (runtime : LiveRuntime capacity) :
    LiveAction → LiveRuntime capacity × List Output
  | .marketData => runtime.marketDataThread connector
  | .strategy now => runtime.strategyThread now
  | .oms now rejectNow => runtime.omsThread now rejectNow
  | .gateway now => runtime.gatewayThread now
  | .handleSignal => ({ runtime with running := false }, [])

/-! ### The threads behind the market data -/

section Threads

variable (connector : LiveConnector) (runtime : LiveRuntime capacity)

/-- The updates of the frames that are still to be read. -/
def unread : List MarketDataUpdate :=
  (connector.updates 1 runtime.frames).map NormalizedMarketData.update

/-- The state as one of the threaded runtime, whose journal nobody looks at. -/
def threads : ThreadedRuntime capacity where
  running := runtime.running
  input := runtime.unread connector
  bus := runtime.bus
  strategy := runtime.strategy
  strategyAt := runtime.strategyAt
  oms := { manager := runtime.oms }
  omsAt := runtime.omsAt
  gateway := runtime.gateway
  gatewayAt := runtime.gatewayAt

theorem strategyThread_threads (now : TimestampNs) :
    (runtime.strategyThread now).1.threads connector =
        ((runtime.threads connector).strategyThread now).1 ∧
      (runtime.strategyThread now).2 = ((runtime.threads connector).strategyThread now).2 := by
  unfold strategyThread ThreadedRuntime.strategyThread
  cases phase : runtime.strategyAt with
  | head =>
      cases running : runtime.running with
      | false => simp [threads, running, phase, unread]
      | true =>
          rcases runtime.bus.marketToStrategy.pop_cases with
            ⟨empty, pop⟩ | ⟨message, rest, next, waiting, pop, contents, count⟩
          · simp [threads, running, phase, unread, pop]
          · cases message with
            | marketData update =>
                cases result : runtime.strategy.onMarketData update now with
                | mk engine maybeSignal =>
                    cases maybeSignal <;> simp [threads, running, phase, unread, pop, result]
            | _ => simp [threads, running, phase, unread, pop]
  | pushing signal => simp [threads, phase, unread]

theorem gatewayThread_threads (now : TimestampNs) :
    (runtime.gatewayThread now).1.threads connector =
        ((runtime.threads connector).gatewayThread now).1 ∧
      (runtime.gatewayThread now).2 = ((runtime.threads connector).gatewayThread now).2 := by
  unfold gatewayThread ThreadedRuntime.gatewayThread
  cases phase : runtime.gatewayAt with
  | head =>
      cases running : runtime.running with
      | false => simp [threads, running, phase, unread]
      | true =>
          rcases runtime.bus.omsToGateway.pop_cases with
            ⟨empty, pop⟩ | ⟨message, rest, next, waiting, pop, contents, count⟩
          · simp [threads, running, phase, unread, pop]
          · cases message with
            | newOrder order =>
                cases result : runtime.gateway.sendOrder order now with
                | mk gateway maybeResponse =>
                    cases maybeResponse <;> simp [threads, running, phase, unread, pop, result]
            | _ => simp [threads, running, phase, unread, pop]
  | pushing response => simp [threads, phase, unread]

/-- The order management thread does the same to the pipeline without a journal. -/
theorem omsThread_threads (now rejectNow : TimestampNs) :
    let own := runtime.omsThread now rejectNow
    let journaled := (runtime.threads connector).omsThread now rejectNow {}
    (own.1.threads connector).view = journaled.1.view ∧
      (own.1.threads connector).dropped = journaled.1.dropped ∧ own.2 = journaled.2 := by
  unfold omsThread ThreadedRuntime.omsThread
  dsimp only
  cases phase : runtime.omsAt with
  | head =>
      cases running : runtime.running with
      | false => simp [threads, running, phase, unread]
      | true =>
          rcases runtime.bus.strategyToOms.pop_cases with
            ⟨empty, pop⟩ | ⟨message, rest, next, waiting, pop, contents, count⟩
          · simp [threads, running, phase, unread, pop, ThreadedRuntime.view,
              ThreadedRuntime.dropped]
          · cases message with
            | signal signal =>
                by_cases accepted : runtime.oms.Accepts signal
                · simp [threads, running, phase, unread, pop, ThreadedRuntime.view,
                    ThreadedRuntime.dropped, OmsThread.onSignalMessage,
                    OrderManager.onSignal_accept _ _ _ _ accepted]
                · simp [threads, running, phase, unread, pop, ThreadedRuntime.view,
                    ThreadedRuntime.dropped, OmsThread.onSignalMessage,
                    OrderManager.onSignal_refuse _ _ _ _ accepted]
            | _ =>
                simp [threads, running, phase, unread, pop, ThreadedRuntime.view,
                  ThreadedRuntime.dropped, OmsThread.onSignalMessage]
  | pushing order =>
      simp [threads, phase, unread, ThreadedRuntime.view, ThreadedRuntime.dropped]
  | responses =>
      rcases runtime.bus.gatewayToOms.pop_cases with
        ⟨empty, pop⟩ | ⟨message, rest, next, waiting, pop, contents, count⟩
      · simp [threads, phase, unread, pop, ThreadedRuntime.view, ThreadedRuntime.dropped]
      · cases message <;>
          simp [threads, phase, unread, pop, ThreadedRuntime.view, ThreadedRuntime.dropped,
            OmsThread.onGatewayMessage]

/-- The pipeline's part in an action. -/
def moves : LiveAction → List Pipeline.Action
  | .marketData =>
      match runtime.frames with
      | [] => []
      | frame :: _ =>
          if connector.normalize 1 frame = none then []
          else if runtime.bus.marketToStrategy.Full then [.loseQuote] else [.publish]
  | .strategy now => (runtime.threads connector).moves (.strategy now)
  | .oms now rejectNow => (runtime.threads connector).moves (.oms now rejectNow {})
  | .gateway now => (runtime.threads connector).moves (.gateway now)
  | .handleSignal => []

/-- The message of an action whose push is refused. -/
def refused : LiveAction → List Envelope
  | .marketData =>
      match runtime.frames with
      | [] => []
      | frame :: _ =>
          match connector.normalize 1 frame with
          | none => []
          | some md =>
              if runtime.bus.marketToStrategy.Full then [.marketData md.update] else []
  | .strategy now => (runtime.threads connector).refused (.strategy now)
  | .oms now rejectNow => (runtime.threads connector).refused (.oms now rejectNow {})
  | .gateway now => (runtime.threads connector).refused (.gateway now)
  | .handleSignal => []

/-- The pipeline loses what a queue refuses. -/
theorem moves_refused (action : LiveAction) :
    (runtime.moves connector action).countP (fun move => ¬ move.Lossless) =
      (runtime.refused connector action).length := by
  cases action with
  | marketData =>
      unfold moves refused
      cases runtime.frames with
      | nil => rfl
      | cons frame frames =>
          cases normalized : connector.normalize 1 frame with
          | none => simp [normalized]
          | some md =>
              by_cases full : runtime.bus.marketToStrategy.Full <;>
                simp [normalized, full, Pipeline.Action.Lossless]
  | strategy now => exact (runtime.threads connector).moves_refused (.strategy now)
  | oms now rejectNow => exact (runtime.threads connector).moves_refused (.oms now rejectNow {})
  | gateway now => exact (runtime.threads connector).moves_refused (.gateway now)
  | handleSignal => rfl

theorem marketDataThread_refines :
    ThreadedRuntime.Refines (runtime.threads connector) (runtime.moves connector .marketData)
      ((runtime.marketDataThread connector).1.threads connector,
        (runtime.marketDataThread connector).2) := by
  unfold moves marketDataThread
  cases frames : runtime.frames with
  | nil =>
      exact ⟨by simp [threads, ThreadedRuntime.view, unread, frames], rfl,
        (UInt64.add_zero _).symm⟩
  | cons frame rest =>
      cases normalized : connector.normalize 1 frame with
      | none =>
          have input : connector.updates 1 (frame :: rest) = connector.updates 1 rest := by
            simp [LiveConnector.updates, normalized]
          refine ⟨?_, ?_, ?_⟩
          · simp [normalized, threads, ThreadedRuntime.view, unread, frames, input]
          · simp [normalized]
          · simp [normalized, threads, ThreadedRuntime.dropped]
      | some md =>
          have input : connector.updates 1 (frame :: rest) = md :: connector.updates 1 rest := by
            simp [LiveConnector.updates, normalized]
          rcases runtime.bus.marketToStrategy.push_cases (.marketData md.update) with
            ⟨full, next, push, contents, count⟩ | ⟨room, next, push, contents, count⟩
          · refine ⟨?_, ?_, ?_⟩
            · simp [normalized, full, push, onMarketData, threads, ThreadedRuntime.view,
                Pipeline.step, frames, input, contents, unread]
            · simp [normalized, full, Pipeline.step]
            · simp [normalized, full, push, onMarketData, threads, ThreadedRuntime.dropped, count,
                Pipeline.Action.Lossless]
              ac_rfl
          · refine ⟨?_, ?_, ?_⟩
            · simp [normalized, room, push, onMarketData, threads, ThreadedRuntime.view,
                Pipeline.step, frames, input, contents, unread, Envelope.marketData?]
            · simp [normalized, room, threads, ThreadedRuntime.view, Pipeline.step, frames, input,
                unread]
            · simp [normalized, room, push, onMarketData, threads, ThreadedRuntime.dropped, count,
                Pipeline.Action.Lossless]

end Threads

/-- Each action of a thread is an action of the pipeline, or none. -/
theorem step_refines (connector : LiveConnector) (runtime : LiveRuntime capacity)
    (action : LiveAction) :
    ThreadedRuntime.Refines (runtime.threads connector) (runtime.moves connector action)
      ((runtime.step connector action).1.threads connector,
        (runtime.step connector action).2) := by
  cases action with
  | marketData => exact runtime.marketDataThread_refines connector
  | strategy now =>
      obtain ⟨same, made⟩ := runtime.strategyThread_threads connector now
      change ThreadedRuntime.Refines _ _ ((runtime.strategyThread now).1.threads connector,
        (runtime.strategyThread now).2)
      rw [same, made]
      exact (runtime.threads connector).strategyThread_refines now
  | oms now rejectNow =>
      obtain ⟨view, dropped, made⟩ := runtime.omsThread_threads connector now rejectNow
      obtain ⟨states, outputs, lost⟩ :=
        (runtime.threads connector).omsThread_refines now rejectNow {}
      exact ⟨states.trans view.symm, outputs.trans made.symm, dropped.trans lost⟩
  | gateway now =>
      obtain ⟨same, made⟩ := runtime.gatewayThread_threads connector now
      change ThreadedRuntime.Refines _ _ ((runtime.gatewayThread now).1.threads connector,
        (runtime.gatewayThread now).2)
      rw [same, made]
      exact (runtime.threads connector).gatewayThread_refines now
  | handleSignal => exact ⟨rfl, rfl, (UInt64.add_zero _).symm⟩

/-! ### What the steps keep -/

/-- The strategy's queue to the order manager holds nothing but signals. -/
def SignalsOnly (runtime : LiveRuntime capacity) : Prop :=
  ∀ message ∈ runtime.bus.strategyToOms.contents, message.signal?.isSome

theorem signalsOnly_step (connector : LiveConnector) (runtime : LiveRuntime capacity)
    (action : LiveAction) (only : runtime.SignalsOnly) :
    (runtime.step connector action).1.SignalsOnly := by
  cases action with
  | marketData =>
      simp only [step, marketDataThread]
      cases runtime.frames with
      | nil => exact only
      | cons frame frames =>
          dsimp only
          split <;> exact only
  | strategy now =>
      simp only [step, strategyThread]
      cases runtime.strategyAt with
      | head =>
          dsimp only
          split
          · exact only
          · split
            · split <;> exact only
            · exact only
      | pushing signal =>
          rcases runtime.bus.strategyToOms.push_cases (.signal signal) with
            ⟨full, next, push, contents, count⟩ | ⟨room, next, push, contents, count⟩
          · simpa [SignalsOnly, push, contents] using only
          · unfold SignalsOnly at only ⊢
            simp only [push, contents, List.forall_mem_append, List.forall_mem_singleton]
            exact ⟨only, rfl⟩
  | oms now rejectNow =>
      simp only [step, omsThread]
      cases runtime.omsAt with
      | head =>
          dsimp only
          split
          · exact only
          · rcases runtime.bus.strategyToOms.pop_cases with
              ⟨empty, pop⟩ | ⟨message, rest, next, waiting, pop, contents, count⟩
            · rw [pop]
              exact only
            · have later : ∀ message ∈ next.contents, message.signal?.isSome := by
                intro other member
                apply only other
                rw [waiting]
                exact List.mem_cons_of_mem _ (contents ▸ member)
              rw [pop]
              cases message with
              | signal signal =>
                  dsimp only
                  split <;> exact later
              | _ => exact later
      | pushing order => exact only
      | responses =>
          dsimp only
          split <;> exact only
  | gateway now =>
      simp only [step, gatewayThread]
      cases runtime.gatewayAt with
      | head =>
          dsimp only
          split
          · exact only
          · split
            · split <;> exact only
            · exact only
      | pushing response => exact only
  | handleSignal => exact only

/-- The book has seen the updates of the frames that have been read. -/
def Follows (connector : LiveConnector) (updates : List MarketDataUpdate)
    (runtime : LiveRuntime capacity) : Prop :=
  ∃ read, read ++ runtime.unread connector = updates ∧ runtime.book = TopOfBook.replay read

theorem follows_step (connector : LiveConnector) (updates : List MarketDataUpdate)
    (runtime : LiveRuntime capacity) (action : LiveAction)
    (follows : runtime.Follows connector updates) :
    (runtime.step connector action).1.Follows connector updates := by
  -- only the market data thread reads frames or touches the book
  have kept : ∀ next : LiveRuntime capacity, next.frames = runtime.frames →
      next.book = runtime.book → next.Follows connector updates := by
    intro next frames book
    unfold Follows unread
    rw [frames, book]
    exact follows
  cases action with
  | marketData =>
      obtain ⟨read, whole, book⟩ := follows
      simp only [step, marketDataThread]
      cases frames : runtime.frames with
      | nil => exact ⟨read, by simpa [unread, frames] using whole, book⟩
      | cons frame rest =>
          dsimp only
          cases normalized : connector.normalize 1 frame with
          | none =>
              exact ⟨read, by simpa [unread, frames, LiveConnector.updates, normalized] using whole,
                book⟩
          | some md =>
              refine ⟨read ++ [md.update], ?_, ?_⟩
              · simpa [unread, onMarketData, frames, LiveConnector.updates, normalized] using whole
              · rw [TopOfBook.replay_concat, ← book]
                rfl
  | strategy now =>
      simp only [step, strategyThread]
      split
      · split
        · exact follows
        · split
          · split <;> exact kept _ rfl rfl
          · exact kept _ rfl rfl
      · exact kept _ rfl rfl
  | oms now rejectNow =>
      simp only [step, omsThread]
      split
      · split
        · exact follows
        · split
          · split <;> exact kept _ rfl rfl
          · exact kept _ rfl rfl
      · exact kept _ rfl rfl
      · split <;> exact kept _ rfl rfl
  | gateway now =>
      simp only [step, gatewayThread]
      split
      · split
        · exact follows
        · split
          · split <;> exact kept _ rfl rfl
          · exact kept _ rfl rfl
      · exact kept _ rfl rfl
  | handleSignal => exact kept _ rfl rfl

/-! ### Runs -/

section Runs

variable (positive : 0 < capacity) (connector : LiveConnector) (client : WssClient)

/-- The state a run reaches. -/
def reached (actions : List LiveAction) : LiveRuntime capacity :=
  after (step connector) (start positive connector client) actions

/-- What has been made known by then. -/
def produced (actions : List LiveAction) : List Output :=
  emitted (step connector) (start positive connector client) actions

/-- The messages of a run that a queue has refused. -/
def lost (actions : List LiveAction) : List Envelope :=
  translated (step connector) (fun runtime action => runtime.refused connector action)
    (start positive connector client) actions

/-- The counters of the queues, which are 64-bit words, count them. -/
theorem reached_dropped (actions : List LiveAction) :
    ((reached positive connector client actions).threads connector).dropped =
      UInt64.ofNat (lost positive connector client actions).length := by
  have counted := translated_counter (step connector)
    (fun runtime action => runtime.refused connector action)
    (fun runtime => (runtime.threads connector).dropped)
    (fun runtime action => by
      rw [(step_refines connector runtime action).dropped, moves_refused])
    (start positive connector client) actions
  exact counted.trans (UInt64.zero_add _)

/-- The updates that the connector has for its callback. -/
def feed : List MarketDataUpdate :=
  (connector.handed client 1 0).map NormalizedMarketData.update

theorem unread_start :
    (start positive connector client : LiveRuntime capacity).unread connector =
      feed connector client := by
  unfold unread feed start LiveConnector.handed
  cases connector.opens client <;> simp [LiveConnector.updates]

theorem view_start :
    ((start positive connector client).threads connector).view = {
      strategy := { nodeId := 2 }, oms := .new 3 limits, gateway := { nodeId := 4 }
      input := feed connector client } := by
  simp only [ThreadedRuntime.view, threads, unread_start]
  simp [start, LocalBus.empty, LoopAt.held, OmsAt.held]

/-- A run in which no queue overflows: what is still going to be produced, behind
what has been produced. -/
theorem outcome_reached (actions : List LiveAction)
    (complete : lost positive connector client actions = []) :
    ((start positive connector client).threads connector).view.outcome =
      ((reached positive connector client actions).threads connector).view.outcome.behind
        (produced positive connector client actions) := by
  obtain ⟨states, outputs⟩ := refinement (step connector) Pipeline.step
    (fun runtime => (runtime.threads connector).view)
    (fun runtime action => runtime.moves connector action)
    (fun runtime action => ⟨(step_refines connector runtime action).states,
      (step_refines connector runtime action).outputs⟩)
    (start positive connector client) actions
  have count := countP_translated (step connector)
    (fun runtime action => runtime.moves connector action)
    (fun runtime action => runtime.refused connector action) (fun move => ¬ move.Lossless)
    (fun runtime action => runtime.moves_refused connector action)
    (start positive connector client) actions
  rw [← lost, complete, List.length_nil, List.countP_eq_zero] at count
  have issued : ((start positive connector client).threads connector).view.Issued := by
    rw [view_start]
    exact ⟨by simp, by simp⟩
  have conserved := Pipeline.outcome_run _ _
    (fun move member => by simpa using count move member) issued
  rw [states, outputs] at conserved
  exact conserved

/-- Whatever the schedule and whatever the venue sends: the order manager finds
nothing but signals in its queue, and the book is that of the updates read so far.
As long as no queue overflows, the signals, orders and responses are, up to
timestamps, a beginning of what the three stages make one after the other of the
updates of the frames, and all of it, with the final states of the stages, once
everything is read and the queues are drained. -/
theorem live_runtime_stages (actions : List LiveAction) :
    let runtime := reached positive connector client actions
    let outputs := produced positive connector client actions
    let updates := feed connector client
    let signals := emitted StrategyEngine.untimedStage { nodeId := 2 } updates
    let orders := emitted OrderManager.untimedStage (.new 3 limits) signals
    let answers := emitted ExchangeGateway.untimedStage { nodeId := 4 } orders
    runtime.SignalsOnly ∧ runtime.Follows connector updates ∧
      (lost positive connector client actions = [] →
        (signalsOf outputs).map Signal.untimed <+: signals ∧
          (ordersOf outputs).map NewOrder.untimed <+: orders ∧
          (answersOf outputs).map Envelope.untimed <+: answers ∧
          ((runtime.threads connector).Quiet → runtime.frames = [] →
            (signalsOf outputs).map Signal.untimed = signals ∧
              (ordersOf outputs).map NewOrder.untimed = orders ∧
              (answersOf outputs).map Envelope.untimed = answers ∧
              runtime.strategy = after StrategyEngine.untimedStage { nodeId := 2 } updates ∧
              runtime.oms = answers.foldl OrderManager.settle
                (after OrderManager.untimedStage (.new 3 limits) signals) ∧
              runtime.gateway = after ExchangeGateway.untimedStage { nodeId := 4 } orders)) := by
  intro runtime outputs updates signals orders answers
  refine ⟨?_, ?_, fun complete => ?_⟩
  · apply after_invariant (signalsOnly_step connector)
    simp [SignalsOnly, start, LocalBus.empty]
  · apply after_invariant (follows_step connector updates)
    exact ⟨[], by rw [unread_start]; rfl, rfl⟩
  · have conserved := outcome_reached positive connector client actions complete
    rw [view_start, Pipeline.outcome, Pipeline.Outcome.behind] at conserved
    simp only [List.nil_append, List.map_nil] at conserved
    obtain ⟨sameSignals, sameOrders, sameAnswers, strategy, oms, gateway⟩ :=
      Pipeline.Outcome.mk.inj conserved
    refine ⟨⟨_, sameSignals.symm⟩, ⟨_, sameOrders.symm⟩, ⟨_, sameAnswers.symm⟩, ?_⟩
    intro quiet finished
    have drained : (runtime.threads connector).view.Drained := by
      have input : (runtime.threads connector).input = [] := by
        simp [threads, unread, finished, LiveConnector.updates]
      have whole := quiet.drained
      rwa [input, List.length_nil, Pipeline.withhold, List.rdrop_zero] at whole
    have final := Pipeline.outcome_drained _ drained
    change (((reached positive connector client actions).threads connector).view).outcome = _
      at final
    rw [final, List.append_nil] at sameSignals sameOrders sameAnswers
    rw [final] at strategy oms gateway
    exact ⟨sameSignals.symm, sameOrders.symm, sameAnswers.symm, strategy.symm, oms.symm,
      gateway.symm⟩

end Runs

/-- The order of the ticker is acknowledged before the read that fails. -/
def oneOrder : List LiveAction :=
  [.marketData, .marketData, .strategy 1, .strategy 1, .oms 2 2, .oms 2 2, .gateway 3,
    .gateway 3, .oms 4 4, .marketData]

theorem live_runtime_stages_oneOrder :
    let connector := binanceLiveBookTicker (Decimal.ascii "abcusdt")
    let runtime := reached (by decide : 0 < 4) connector tickerBehindNoise oneOrder
    let signals := emitted StrategyEngine.untimedStage { nodeId := 2 }
      (feed connector tickerBehindNoise)
    let orders := emitted OrderManager.untimedStage (.new 3 limits) signals
    let answers := emitted ExchangeGateway.untimedStage { nodeId := 4 } orders
    runtime.oms.liveOrders = {1} ∧
      runtime.oms = answers.foldl OrderManager.settle
        (after OrderManager.untimedStage (.new 3 limits) signals) := by
  intro connector runtime signals orders answers
  obtain ⟨-, -, stages⟩ :=
    live_runtime_stages (by decide : 0 < 4) connector tickerBehindNoise oneOrder
  have complete : lost (by decide : 0 < 4) connector tickerBehindNoise oneOrder = [] := by
    decide +kernel
  have quiet : (runtime.threads connector).Quiet := by
    constructor <;> decide +kernel
  obtain ⟨-, -, -, final⟩ := stages complete
  obtain ⟨-, -, -, -, oms, -⟩ := final quiet (by decide +kernel)
  exact ⟨by decide +kernel, oms⟩

end LiveRuntime
end TradingPlatform
