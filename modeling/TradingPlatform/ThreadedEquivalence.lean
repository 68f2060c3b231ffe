import TradingPlatform.Simulator

set_option autoImplicit false

/- However the threads are scheduled, the threaded runtime does what the
simulator does, as long as no queue overflows. -/
namespace TradingPlatform

open Transducer

namespace ThreadedRuntime

open Pipeline (Output signalsOf ordersOf answersOf)

variable {capacity : Nat}

/-- All queues are empty, and no thread holds a message. -/
structure Quiet (runtime : ThreadedRuntime capacity) : Prop where
  quotes : runtime.bus.marketToStrategy.contents = []
  signals : runtime.bus.strategyToOms.contents = []
  orders : runtime.bus.omsToGateway.contents = []
  answers : runtime.bus.gatewayToOms.contents = []
  strategy : runtime.strategyAt = .head
  oms : runtime.omsAt.held = []
  gateway : runtime.gatewayAt = .head

/-- The sequences that one run has produced are prefixes of another's, up to
timestamps. -/
structure Behind (early late : List Output) : Prop where
  signals : (signalsOf early).map Signal.untimed <+: (signalsOf late).map Signal.untimed
  orders : (ordersOf early).map NewOrder.untimed <+: (ordersOf late).map NewOrder.untimed
  answers : (answersOf early).map Envelope.untimed <+: (answersOf late).map Envelope.untimed

/-- A quiet runtime has drained everything that has been published. -/
theorem Quiet.drained {runtime : ThreadedRuntime capacity} (quiet : runtime.Quiet) :
    (runtime.view.withhold runtime.input.length).Drained := by
  refine ⟨?_, ?_, ?_, ?_, ?_⟩
  · simp [Pipeline.withhold, view, List.rdrop]
  · simp [Pipeline.withhold, view, quiet.quotes]
  · simp [Pipeline.withhold, view, quiet.signals, quiet.strategy, LoopAt.held]
  · simp [Pipeline.withhold, view, quiet.orders, quiet.oms]
  · simp [Pipeline.withhold, view, quiet.answers, quiet.gateway, LoopAt.held]

section Runs

variable (positive : 0 < capacity) (journal : JournalLog) (io : JournalIo)
variable (feed : List (MarketDataUpdate × TurnClock)) (actions : List ThreadAction)

/-- Both runtimes begin as the same pipeline. -/
theorem view_start_eq (input : List MarketDataUpdate) :
    (start positive journal io input : ThreadedRuntime capacity).view =
      Simulator.start.view input := by
  rw [view_start]
  rfl

theorem issued_start (input : List MarketDataUpdate) : (Simulator.start.view input).Issued :=
  ⟨by simp [Simulator.view], by simp [Simulator.view]⟩

/-- What has been produced is a beginning of what the simulator produces. -/
theorem behind_simulator
    (complete : lost positive journal io (feed.map Prod.fst) actions = []) :
    Behind (produced positive journal io (feed.map Prod.fst) actions)
      (emitted Simulator.turn Simulator.start feed) := by
  obtain ⟨-, outputs⟩ := reached_refines positive journal io (feed.map Prod.fst) actions
  have lossless := lossless_of_lost positive journal io (feed.map Prod.fst) actions complete
  rw [view_start_eq] at outputs
  have conserved := Pipeline.outcome_run _ _ lossless (issued_start (feed.map Prod.fst))
  rw [Simulator.outcome_view _ (by decide) Simulator.start_idle feed, outputs] at conserved
  have signals := congrArg Pipeline.Outcome.signals conserved
  have orders := congrArg Pipeline.Outcome.orders conserved
  have answers := congrArg Pipeline.Outcome.answers conserved
  simp only [Pipeline.Outcome.behind, List.append_nil] at signals orders answers
  exact ⟨⟨_, signals.symm⟩, ⟨_, orders.symm⟩, ⟨_, answers.symm⟩⟩

/-- A quiet runtime is in the states of the simulator after the published part
of the feed. -/
theorem states_of_quiet
    (complete : lost positive journal io (feed.map Prod.fst) actions = [])
    (quiet : (reached positive journal io (feed.map Prod.fst) actions).Quiet) :
    let runtime := reached positive journal io (feed.map Prod.fst) actions
    let simulator := after Simulator.turn Simulator.start (feed.rdrop runtime.input.length)
    runtime.strategy = simulator.strategy ∧ runtime.oms.manager = simulator.oms ∧
      runtime.gateway = simulator.gateway := by
  intro runtime simulator
  obtain ⟨states, -⟩ := reached_refines positive journal io (feed.map Prod.fst) actions
  have lossless := lossless_of_lost positive journal io (feed.map Prod.fst) actions complete
  rw [view_start_eq] at states
  obtain ⟨published, -⟩ := Pipeline.run_withhold (Simulator.start.view (feed.map Prod.fst))
    (pipelineActions positive journal io (feed.map Prod.fst) actions) runtime.input.length
    (by rw [states]; exact Nat.le_refl _)
  have part : (Simulator.start.view (feed.map Prod.fst)).withhold runtime.input.length =
      Simulator.start.view ((feed.rdrop runtime.input.length).map Prod.fst) := by
    simp [Pipeline.withhold, Simulator.view, List.rdrop, List.map_take]
  rw [part, states] at published
  have conserved := Pipeline.outcome_run _ _ lossless
    (issued_start ((feed.rdrop runtime.input.length).map Prod.fst))
  rw [Simulator.outcome_view _ (by decide) Simulator.start_idle, published,
    Pipeline.outcome_drained _ quiet.drained] at conserved
  refine ⟨?_, ?_, ?_⟩
  · exact (congrArg Pipeline.Outcome.strategy conserved).symm
  · exact (congrArg Pipeline.Outcome.oms conserved).symm
  · exact (congrArg Pipeline.Outcome.gateway conserved).symm

/-! ### Independence of the schedule -/

/-- Whatever the schedule, a runtime in which no push is refused is at every moment a
beginning of the simulator's run, and in its states once the queues are
drained. -/
theorem schedule_independent
    (complete : lost positive journal io (feed.map Prod.fst) actions = []) :
    let runtime := reached positive journal io (feed.map Prod.fst) actions
    Behind (produced positive journal io (feed.map Prod.fst) actions)
        (emitted Simulator.turn Simulator.start feed) ∧
      (runtime.Quiet →
        let simulator := after Simulator.turn Simulator.start (feed.rdrop runtime.input.length)
        runtime.strategy = simulator.strategy ∧ runtime.oms.manager = simulator.oms ∧
          runtime.gateway = simulator.gateway) :=
  ⟨behind_simulator positive journal io feed actions complete,
    states_of_quiet positive journal io feed actions complete⟩

end Runs

/-- The two quotes, for a simulator whose clock stands still. -/
def twoTurns : List (MarketDataUpdate × TurnClock) := twoQuotes.map fun quote => (quote, {})

/-- Every thread runs for as long as it has something to do. -/
def inBatches : List ThreadAction :=
  List.replicate 2 .marketData ++ List.replicate 4 (.strategy 7) ++
    List.replicate 6 (.oms 8 9 {}) ++ List.replicate 4 (.gateway 10) ++
    List.replicate 4 (.oms 11 12 {})

theorem schedule_independent_inBatches :
    let runtime := reached (by decide : 0 < 4) {} {} (twoTurns.map Prod.fst) inBatches
    let simulator := after Simulator.turn Simulator.start twoTurns
    Behind (produced (by decide : 0 < 4) {} {} (twoTurns.map Prod.fst) inBatches)
        (emitted Simulator.turn Simulator.start twoTurns) ∧
      runtime.strategy = simulator.strategy ∧ runtime.oms.manager = simulator.oms ∧
        runtime.gateway = simulator.gateway := by
  obtain ⟨behind, states⟩ := schedule_independent (by decide : 0 < 4) {} {} twoTurns inBatches
    (by decide +kernel)
  have quiet : (reached (by decide : 0 < 4) {} {} (twoTurns.map Prod.fst) inBatches).Quiet := by
    refine ⟨?_, ?_, ?_, ?_, ?_, ?_, ?_⟩ <;> decide +kernel
  have published : (reached (by decide : 0 < 4) {} {} (twoTurns.map Prod.fst) inBatches).input =
      [] := by
    decide +kernel
  refine ⟨behind, ?_⟩
  simpa only [published, List.length_nil, List.rdrop_zero] using states quiet

end ThreadedRuntime
end TradingPlatform
