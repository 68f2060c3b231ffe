import TradingPlatform.ThreadedEquivalence

set_option autoImplicit false

/- Schedules of the threaded runtime in which every thread gets its turn: all
messages reach the end of their way. -/
namespace TradingPlatform

open Transducer

namespace ThreadedRuntime

open Pipeline (Output signalsOf ordersOf answersOf)

variable {capacity : Nat}

/-- The queue operations that are still to be made for what is on its way, at most. -/
def work (runtime : ThreadedRuntime capacity) : Nat :=
  8 * runtime.input.length + 7 * runtime.bus.marketToStrategy.contents.length +
    6 * runtime.strategyAt.held.length + 5 * runtime.bus.strategyToOms.contents.length +
    4 * runtime.omsAt.held.length + 3 * runtime.bus.omsToGateway.contents.length +
    2 * runtime.gatewayAt.held.length + runtime.bus.gatewayToOms.contents.length

/-- The number of messages on their way. -/
def population (runtime : ThreadedRuntime capacity) : Nat :=
  runtime.input.length + runtime.bus.marketToStrategy.contents.length +
    runtime.strategyAt.held.length + runtime.bus.strategyToOms.contents.length +
    runtime.omsAt.held.length + runtime.bus.omsToGateway.contents.length +
    runtime.gatewayAt.held.length + runtime.bus.gatewayToOms.contents.length

/-- A message has moved on, or is lost. -/
structure Advances (runtime next : ThreadedRuntime capacity) : Prop where
  running : next.running = runtime.running
  work : next.work < runtime.work
  population : next.population ≤ runtime.population

/-- The order management thread has nothing to do where it is in its loop. -/
def OmsIdle (runtime : ThreadedRuntime capacity) : Prop :=
  (runtime.omsAt = .head ∧ runtime.bus.strategyToOms.contents = []) ∨
    (runtime.omsAt = .responses ∧ runtime.bus.gatewayToOms.contents = [])

/-- The other half of a turn of the order management thread. -/
def turned (runtime : ThreadedRuntime capacity) : ThreadedRuntime capacity :=
  { runtime with omsAt := if runtime.omsAt = .head then .responses else .head }

section Threads

variable (runtime : ThreadedRuntime capacity)

theorem marketDataThread_moves (running : runtime.running = true) :
    runtime.Advances runtime.marketDataThread.1 ∨
      (runtime.marketDataThread.1 = runtime ∧ runtime.input = []) := by
  unfold marketDataThread
  rw [running]
  cases input : runtime.input with
  | nil => exact Or.inr ⟨rfl, rfl⟩
  | cons update rest =>
      left
      rcases runtime.bus.marketToStrategy.push_cases (.marketData update) with
        ⟨full, next, push, contents, count⟩ | ⟨room, next, push, contents, count⟩
      · constructor <;> simp [push, running, work, population, input, contents]
      · constructor <;> simp [push, running, work, population, input, contents] <;> omega

theorem strategyThread_moves (running : runtime.running = true) (now : TimestampNs) :
    runtime.Advances (runtime.strategyThread now).1 ∨
      ((runtime.strategyThread now).1 = runtime ∧
        runtime.bus.marketToStrategy.contents = [] ∧ runtime.strategyAt = .head) := by
  unfold strategyThread
  cases phase : runtime.strategyAt with
  | head =>
      rw [if_neg (by simp [running])]
      rcases runtime.bus.marketToStrategy.pop_cases with
        ⟨empty, pop⟩ | ⟨message, rest, next, waiting, pop, contents, count⟩
      · right
        rw [pop]
        refine ⟨?_, empty, rfl⟩
        show { runtime with strategyAt := .head } = runtime
        rw [← phase]
      · left
        have length := congrArg List.length waiting
        rw [List.length_cons, SpscQueue.length_contents] at length
        have fewer := congrArg List.length contents
        rw [SpscQueue.length_contents] at fewer
        cases message with
        | marketData update =>
            cases result : runtime.strategy.onMarketData update now with
            | mk engine maybeSignal =>
                cases maybeSignal <;> constructor
                all_goals
                  simp [pop, running, result, work, population, phase, LoopAt.held, length, fewer]
                all_goals omega
        | _ =>
            constructor <;> simp [pop, running, work, population, phase, LoopAt.held, length, fewer]
  | pushing signal =>
      left
      rcases runtime.bus.strategyToOms.push_cases (.signal signal) with
        ⟨full, next, push, contents, count⟩ | ⟨room, next, push, contents, count⟩
      · have length := congrArg List.length contents
        rw [SpscQueue.length_contents, SpscQueue.length_contents] at length
        constructor <;> simp [push, running, work, population, phase, LoopAt.held, length]
      · have length := congrArg List.length contents
        rw [SpscQueue.length_contents, List.length_append, SpscQueue.length_contents] at length
        constructor <;>
          simp [push, running, work, population, phase, LoopAt.held, length] <;> omega

theorem omsThread_moves (running : runtime.running = true) (now rejectNow : TimestampNs)
    (io : JournalIo) :
    runtime.Advances (runtime.omsThread now rejectNow io).1 ∨
      ((runtime.omsThread now rejectNow io).1 = runtime.turned ∧ runtime.OmsIdle) := by
  unfold omsThread turned OmsIdle
  cases phase : runtime.omsAt with
  | head =>
      rw [if_neg (by simp [running])]
      rcases runtime.bus.strategyToOms.pop_cases with
        ⟨empty, pop⟩ | ⟨message, rest, next, waiting, pop, contents, count⟩
      · right
        rw [pop]
        exact ⟨rfl, Or.inl ⟨rfl, empty⟩⟩
      · left
        have length := congrArg List.length waiting
        rw [List.length_cons, SpscQueue.length_contents] at length
        have fewer := congrArg List.length contents
        rw [SpscQueue.length_contents] at fewer
        cases result : runtime.oms.onSignalMessage message now rejectNow io with
        | mk thread maybeOrder =>
            cases maybeOrder <;> constructor
            all_goals simp [pop, result, work, population, phase, OmsAt.held, length, fewer]
            all_goals omega
  | pushing order =>
      left
      rcases runtime.bus.omsToGateway.push_cases (.newOrder order) with
        ⟨full, next, push, contents, count⟩ | ⟨room, next, push, contents, count⟩
      · have length := congrArg List.length contents
        rw [SpscQueue.length_contents, SpscQueue.length_contents] at length
        constructor <;> simp [push, work, population, phase, OmsAt.held, length]
      · have length := congrArg List.length contents
        rw [SpscQueue.length_contents, List.length_append, SpscQueue.length_contents] at length
        constructor <;> simp [push, work, population, phase, OmsAt.held, length] <;> omega
  | responses =>
      rcases runtime.bus.gatewayToOms.pop_cases with
        ⟨empty, pop⟩ | ⟨message, rest, next, waiting, pop, contents, count⟩
      · right
        rw [pop]
        exact ⟨rfl, Or.inr ⟨rfl, empty⟩⟩
      · left
        have length := congrArg List.length waiting
        rw [List.length_cons, SpscQueue.length_contents] at length
        have fewer := congrArg List.length contents
        rw [SpscQueue.length_contents] at fewer
        constructor <;> simp [pop, work, population, phase, OmsAt.held, length, fewer]

theorem gatewayThread_moves (running : runtime.running = true) (now : TimestampNs) :
    runtime.Advances (runtime.gatewayThread now).1 ∨
      ((runtime.gatewayThread now).1 = runtime ∧
        runtime.bus.omsToGateway.contents = [] ∧ runtime.gatewayAt = .head) := by
  unfold gatewayThread
  cases phase : runtime.gatewayAt with
  | head =>
      rw [if_neg (by simp [running])]
      rcases runtime.bus.omsToGateway.pop_cases with
        ⟨empty, pop⟩ | ⟨message, rest, next, waiting, pop, contents, count⟩
      · right
        rw [pop]
        refine ⟨?_, empty, rfl⟩
        show { runtime with gatewayAt := .head } = runtime
        rw [← phase]
      · left
        have length := congrArg List.length waiting
        rw [List.length_cons, SpscQueue.length_contents] at length
        have fewer := congrArg List.length contents
        rw [SpscQueue.length_contents] at fewer
        cases message with
        | newOrder order =>
            cases result : runtime.gateway.sendOrder order now with
            | mk gateway maybeResponse =>
                cases maybeResponse <;> constructor
                all_goals simp [pop, result, work, population, phase, LoopAt.held, length, fewer]
                all_goals omega
        | _ =>
            constructor <;> simp [pop, work, population, phase, LoopAt.held, length, fewer]
  | pushing response =>
      left
      rcases runtime.bus.gatewayToOms.push_cases response with
        ⟨full, next, push, contents, count⟩ | ⟨room, next, push, contents, count⟩
      · have length := congrArg List.length contents
        rw [SpscQueue.length_contents, SpscQueue.length_contents] at length
        constructor <;> simp [push, work, population, phase, LoopAt.held, length]
      · have length := congrArg List.length contents
        rw [SpscQueue.length_contents, List.length_append, SpscQueue.length_contents] at length
        constructor <;> simp [push, work, population, phase, LoopAt.held, length] <;> omega

/-- The thread of an action finds nothing to do. -/
def Waits : ThreadAction → Prop
  | .marketData => runtime.input = []
  | .strategy _ => runtime.bus.marketToStrategy.contents = [] ∧ runtime.strategyAt = .head
  | .oms .. => runtime.OmsIdle
  | .gateway _ => runtime.bus.omsToGateway.contents = [] ∧ runtime.gatewayAt = .head
  | .shutdown => False

/-- The state behind an action that has found nothing to do. -/
def waited : ThreadAction → ThreadedRuntime capacity
  | .oms .. => runtime.turned
  | _ => runtime

/-- An action moves a message on, or finds nothing to do. -/
theorem step_moves (action : ThreadAction) (running : runtime.running = true)
    (runs : action ≠ .shutdown) :
    runtime.Advances (runtime.step action).1 ∨
      ((runtime.step action).1 = runtime.waited action ∧ runtime.Waits action) := by
  cases action with
  | marketData => exact runtime.marketDataThread_moves running
  | strategy now => exact runtime.strategyThread_moves running now
  | oms now rejectNow io => exact runtime.omsThread_moves running now rejectNow io
  | gateway now => exact runtime.gatewayThread_moves running now
  | shutdown => exact absurd rfl runs

/-- A queue can only be full where there are more messages than it has slots for. -/
theorem refused_eq_nil (few : runtime.population < capacity) (action : ThreadAction) :
    runtime.refused action = [] := by
  unfold population at few
  cases action with
  | marketData =>
      unfold refused
      cases running : runtime.running with
      | false => rfl
      | true =>
          cases input : runtime.input with
          | nil => rfl
          | cons update rest =>
              apply if_neg
              rw [SpscQueue.full_iff]
              rw [input, List.length_cons, SpscQueue.length_contents] at few
              omega
  | strategy now =>
      unfold refused
      cases phase : runtime.strategyAt with
      | head => rfl
      | pushing signal =>
          apply if_neg
          rw [SpscQueue.full_iff]
          simp only [phase, LoopAt.held, List.length_singleton, SpscQueue.length_contents] at few
          omega
  | oms now rejectNow io =>
      unfold refused
      cases phase : runtime.omsAt with
      | head => rfl
      | responses => rfl
      | pushing order =>
          apply if_neg
          rw [SpscQueue.full_iff]
          simp only [phase, OmsAt.held, List.length_singleton, SpscQueue.length_contents] at few
          omega
  | gateway now =>
      unfold refused
      cases phase : runtime.gatewayAt with
      | head => rfl
      | pushing response =>
          apply if_neg
          rw [SpscQueue.full_iff]
          simp only [phase, LoopAt.held, List.length_singleton, SpscQueue.length_contents] at few
          omega
  | shutdown => rfl

end Threads

/-! ### Rounds -/

/-- The four threads. -/
inductive Worker where
  | marketData
  | strategy
  | oms
  | gateway
  deriving DecidableEq, Repr

/-- The thread that an action belongs to. -/
def worker? : ThreadAction → Option Worker
  | .marketData => some .marketData
  | .strategy _ => some .strategy
  | .oms .. => some .oms
  | .gateway _ => some .gateway
  | .shutdown => none

/-- The queues that a loop polls in one turn. -/
def Worker.queues : Worker → Nat
  | .oms => 2
  | _ => 1

/-- The queue operations of a thread. -/
def operations (worker : Worker) (actions : List ThreadAction) : Nat :=
  actions.countP fun action => worker? action = some worker

/-- Every thread gets its turn, in any order and interleaved with whatever else
the threads do, and nobody ends the run. -/
structure Polls (round : List ThreadAction) : Prop where
  running : ∀ action ∈ round, action ≠ .shutdown
  turns : ∀ worker : Worker, worker.queues ≤ operations worker round

/-- What that many operations of a thread that found nothing to do say about the
state. -/
def Stalled (runtime : ThreadedRuntime capacity) (operations : Nat) : Worker → Prop
  | .marketData => 1 ≤ operations → runtime.input = []
  | .strategy => 1 ≤ operations →
      runtime.bus.marketToStrategy.contents = [] ∧ runtime.strategyAt = .head
  | .oms => (1 ≤ operations → runtime.OmsIdle) ∧
      (2 ≤ operations →
        runtime.bus.strategyToOms.contents = [] ∧ runtime.bus.gatewayToOms.contents = [])
  | .gateway => 1 ≤ operations →
      runtime.bus.omsToGateway.contents = [] ∧ runtime.gatewayAt = .head

theorem operations_cons (worker : Worker) (action : ThreadAction) (actions : List ThreadAction) :
    operations worker (action :: actions) =
      operations worker actions + if worker? action = some worker then 1 else 0 := by
  simp [operations, List.countP_cons]

/-- What no action undoes. -/
structure Keeps (runtime next : ThreadedRuntime capacity) : Prop where
  running : next.running = runtime.running
  work : next.work ≤ runtime.work
  population : next.population ≤ runtime.population

section Rounds

variable {runtime : ThreadedRuntime capacity}

theorem Keeps.trans {next last : ThreadedRuntime capacity} (first : runtime.Keeps next)
    (second : next.Keeps last) : runtime.Keeps last where
  running := second.running.trans first.running
  work := second.work.trans first.work
  population := second.population.trans first.population

theorem OmsIdle.held (idle : runtime.OmsIdle) : runtime.omsAt.held = [] := by
  rcases idle with ⟨phase, -⟩ | ⟨phase, -⟩ <;> rw [phase] <;> rfl

theorem OmsIdle.turned (idle : runtime.OmsIdle) :
    runtime.turned.work = runtime.work ∧ runtime.turned.population = runtime.population := by
  rcases idle with ⟨phase, -⟩ | ⟨phase, -⟩ <;>
    simp [ThreadedRuntime.turned, work, population, phase, OmsAt.held]

theorem step_keeps (action : ThreadAction) (running : runtime.running = true)
    (runs : action ≠ .shutdown) : runtime.Keeps (runtime.step action).1 := by
  rcases runtime.step_moves action running runs with advances | ⟨next, waits⟩
  · exact { advances with work := Nat.le_of_lt advances.work }
  · rw [next]
    cases action with
    | oms now rejectNow io =>
        obtain ⟨work, population⟩ := OmsIdle.turned waits
        exact ⟨rfl, work.le, population.le⟩
    | _ => exact ⟨rfl, le_rfl, le_rfl⟩

theorem run_keeps (actions : List ThreadAction) (running : runtime.running = true)
    (runs : ∀ action ∈ actions, action ≠ .shutdown) : runtime.Keeps (after step runtime actions) := by
  induction actions generalizing runtime with
  | nil => exact ⟨rfl, le_rfl, le_rfl⟩
  | cons action actions ih =>
      obtain ⟨now, later⟩ := List.forall_mem_cons.mp runs
      have keeps := step_keeps action running now
      exact keeps.trans (ih (keeps.running.trans running) later)

theorem waited_stalled (action : ThreadAction) (worker : Worker)
    (other : worker? action ≠ some worker) (operations : Nat) :
    (runtime.waited action).Stalled operations worker ↔ runtime.Stalled operations worker := by
  cases action <;> cases worker <;> first | exact Iff.rfl | exact absurd rfl other

/-- One more operation that found nothing to do, before the others. -/
theorem Waits.stalled {action : ThreadAction} {worker : Worker} {operations : Nat}
    (waits : runtime.Waits action) (own : worker? action = some worker)
    (later : (runtime.waited action).Stalled operations worker) :
    runtime.Stalled (operations + 1) worker := by
  cases action with
  | oms now rejectNow io =>
      cases own
      refine ⟨fun _ => waits, fun twice => ?_⟩
      -- the two polls have come to different queues
      rcases waits with ⟨phase, empty⟩ | ⟨phase, empty⟩ <;>
        rcases later.1 (by omega) with ⟨other, none⟩ | ⟨other, none⟩ <;>
        simp [waited, turned, phase] at other none
      · exact ⟨empty, none⟩
      · exact ⟨none, empty⟩
  | shutdown => cases own
  | _ =>
      cases own
      exact fun _ => waits

/-- Actions that get nothing done have found nothing to do. -/
theorem run_stalled (actions : List ThreadAction) (running : runtime.running = true)
    (runs : ∀ action ∈ actions, action ≠ .shutdown)
    (idle : runtime.work ≤ (after step runtime actions).work) (worker : Worker) :
    runtime.Stalled (operations worker actions) worker := by
  induction actions generalizing runtime with
  | nil => cases worker <;> simp [operations, Stalled]
  | cons action actions ih =>
      obtain ⟨now, later⟩ := List.forall_mem_cons.mp runs
      have keeps := step_keeps action running now
      have rest := run_keeps actions (keeps.running.trans running) later
      rw [after_cons] at idle
      rcases runtime.step_moves action running now with advances | ⟨next, waits⟩
      · have lower := advances.work
        have bound := rest.work
        omega
      · have stalled := ih (keeps.running.trans running) later (keeps.work.trans idle)
        rw [next] at stalled
        rw [operations_cons]
        by_cases own : worker? action = some worker
        · rw [if_pos own]
          exact waits.stalled own stalled
        · rw [if_neg own]
          exact (waited_stalled action worker own _).mp stalled

theorem Polls.work_eq_zero {round : List ThreadAction} (polls : Polls round)
    (stalled : ∀ worker, runtime.Stalled (operations worker round) worker) :
    runtime.work = 0 := by
  have input := stalled .marketData (polls.turns .marketData)
  obtain ⟨quotes, strategy⟩ := stalled .strategy (polls.turns .strategy)
  obtain ⟨signals, answers⟩ := (stalled .oms).2 (polls.turns .oms)
  obtain ⟨orders, gateway⟩ := stalled .gateway (polls.turns .gateway)
  have held := ((stalled .oms).1 (Nat.le_of_succ_le (polls.turns .oms))).held
  simp only [work, input, quotes, strategy, signals, held, orders, gateway, answers, LoopAt.held,
    List.length_nil]

/-- A round gets something done, unless nothing is left to do. -/
theorem round_work (round : List ThreadAction) (running : runtime.running = true)
    (polls : Polls round) : (after step runtime round).work ≤ runtime.work - 1 := by
  have keeps := (run_keeps round running polls.running).work
  rcases Nat.lt_or_ge (after step runtime round).work runtime.work with lower | idle
  · omega
  · have done := polls.work_eq_zero (run_stalled round running polls.running idle)
    omega

theorem quiet_of_work (done : runtime.work = 0) : runtime.input = [] ∧ runtime.Quiet := by
  have head : ∀ {α : Type} (phase : LoopAt α), phase.held.length = 0 → phase = .head := by
    intro α phase held
    cases phase with
    | head => rfl
    | pushing item => cases held
  simp only [work] at done
  refine ⟨List.length_eq_zero_iff.mp (by omega), ?_⟩
  constructor
  · exact List.length_eq_zero_iff.mp (by omega)
  · exact List.length_eq_zero_iff.mp (by omega)
  · exact List.length_eq_zero_iff.mp (by omega)
  · exact List.length_eq_zero_iff.mp (by omega)
  · exact head _ (by omega)
  · exact List.length_eq_zero_iff.mp (by omega)
  · exact head _ (by omega)

end Rounds

/-! ### Whole runs -/

section Runs

variable (positive : 0 < capacity) (journal : JournalLog) (io : JournalIo)

theorem load_start (input : List MarketDataUpdate) :
    (start positive journal io input : ThreadedRuntime capacity).work = 8 * input.length ∧
      (start positive journal io input : ThreadedRuntime capacity).population = input.length := by
  have empty : ∀ queue : SpscQueue Envelope capacity, queue = .empty positive →
      queue.contents = [] := fun queue same => same ▸ SpscQueue.contents_empty positive
  simp only [work, population, start, LocalBus.empty, empty _ rfl, LoopAt.held, OmsAt.held,
    OmsThread.start, List.length_nil]
  omega

/-- Nothing is left after eight rounds for every update. -/
theorem reached_work (input : List MarketDataUpdate) (rounds : List (List ThreadAction))
    (polls : ∀ round ∈ rounds, Polls round) (enough : 8 * input.length ≤ rounds.length) :
    (reached positive journal io input rounds.flatten : ThreadedRuntime capacity).work = 0 := by
  have lowers : ∀ (runtime : ThreadedRuntime capacity) (round : List ThreadAction),
      runtime.running = true → Polls round →
        (after step runtime round).running = true ∧
          (after step runtime round).work ≤ runtime.work - 1 := by
    intro runtime round running polls
    exact ⟨(run_keeps round running polls.running).running.trans running,
      round_work round running polls⟩
  have left := (foldl_rounds (fun runtime action => (step runtime action).1) lowers rounds polls
    (start positive journal io input) rfl).2
  rw [(load_start positive journal io input).1] at left
  rw [reached, after]
  omega

/-- A queue with a slot more than there are updates never overflows. -/
theorem reached_lost (input : List MarketDataUpdate) (actions : List ThreadAction)
    (runs : ∀ action ∈ actions, action ≠ .shutdown) (short : input.length < capacity) :
    lost positive journal io input actions = [] := by
  apply List.eq_nil_iff_forall_not_mem.mpr
  intro message gone
  obtain ⟨before, action, early, member⟩ := (mem_translated step refused _ _ _).mp gone
  have earlier : ∀ action ∈ before, action ≠ .shutdown := by
    intro action listed
    exact runs action (early.subset (List.mem_append_left _ listed))
  have keeps : (start positive journal io input).Keeps
      (after step (start positive journal io input) before) := run_keeps before rfl earlier
  have load := keeps.population
  rw [(load_start positive journal io input).2] at load
  rw [refused_eq_nil _ (load.trans_lt short)] at member
  exact List.not_mem_nil member

/-- When every thread gets its turn, again and again, in whatever order and at
whatever pace: after eight rounds for every update all queues are empty and no
thread holds a message. If the queues have more slots than there are updates,
then no push has been refused, and the messages produced, up to timestamps, and
the states are those of the simulator after the whole feed. -/
theorem fair_schedule_completes (feed : List (MarketDataUpdate × TurnClock))
    (rounds : List (List ThreadAction)) (polls : ∀ round ∈ rounds, Polls round)
    (enough : 8 * feed.length ≤ rounds.length) :
    let runtime : ThreadedRuntime capacity :=
      reached positive journal io (feed.map Prod.fst) rounds.flatten
    let outputs : List Output := produced positive journal io (feed.map Prod.fst) rounds.flatten
    let simulator := after Simulator.turn Simulator.start feed
    let turns := emitted Simulator.turn Simulator.start feed
    runtime.input = [] ∧ runtime.Quiet ∧
      (feed.length < capacity →
        lost positive journal io (feed.map Prod.fst) rounds.flatten = [] ∧
          (signalsOf outputs).map Signal.untimed = (signalsOf turns).map Signal.untimed ∧
          (ordersOf outputs).map NewOrder.untimed = (ordersOf turns).map NewOrder.untimed ∧
          (answersOf outputs).map Envelope.untimed = (answersOf turns).map Envelope.untimed ∧
          runtime.strategy = simulator.strategy ∧ runtime.oms.manager = simulator.oms ∧
            runtime.gateway = simulator.gateway) := by
  intro runtime outputs simulator turns
  have done : runtime.work = 0 :=
    reached_work positive journal io _ rounds polls (by rwa [List.length_map])
  obtain ⟨published, quiet⟩ := quiet_of_work done
  refine ⟨published, quiet, fun short => ?_⟩
  have runs : ∀ action ∈ rounds.flatten, action ≠ .shutdown := by
    intro action member
    obtain ⟨round, listed, inside⟩ := List.mem_flatten.mp member
    exact (polls round listed).running action inside
  have complete : lost positive journal io (feed.map Prod.fst) rounds.flatten = [] :=
    reached_lost positive journal io _ rounds.flatten runs (by rwa [List.length_map])
  have lossless :=
    lossless_of_lost positive journal io (feed.map Prod.fst) rounds.flatten complete
  obtain ⟨view, made⟩ := reached_refines positive journal io (feed.map Prod.fst) rounds.flatten
  have drained : runtime.view.Drained := by
    have whole := quiet.drained
    rwa [published, List.length_nil, Pipeline.withhold, List.rdrop_zero] at whole
  rw [view_start_eq] at view made
  have conserved := Pipeline.outcome_run _ _ lossless (issued_start (feed.map Prod.fst))
  rw [Simulator.outcome_view _ (by decide) Simulator.start_idle feed, view, made,
    Pipeline.outcome_drained _ drained] at conserved
  have signals := congrArg Pipeline.Outcome.signals conserved
  have orders := congrArg Pipeline.Outcome.orders conserved
  have answers := congrArg Pipeline.Outcome.answers conserved
  simp only [Pipeline.Outcome.behind, List.append_nil] at signals orders answers
  refine ⟨complete, signals.symm, orders.symm, answers.symm, ?_, ?_, ?_⟩
  · exact (congrArg Pipeline.Outcome.strategy conserved).symm
  · exact (congrArg Pipeline.Outcome.oms conserved).symm
  · exact (congrArg Pipeline.Outcome.gateway conserved).symm

end Runs

/-- One turn of every loop. -/
def oneTurn : List ThreadAction :=
  [.gateway 10, .oms 8 9 {}, .oms 11 12 {}, .strategy 7, .marketData]

theorem oneTurn_polls : Polls oneTurn := by
  constructor
  · simp [oneTurn]
  · intro worker
    cases worker <;> decide

theorem fair_schedule_completes_oneTurn :
    let runtime : ThreadedRuntime 4 := reached (by decide) {} {} (twoTurns.map Prod.fst)
      (List.replicate 16 oneTurn).flatten
    let simulator := after Simulator.turn Simulator.start twoTurns
    runtime.oms.manager.liveOrders = {1, 2} ∧ runtime.Quiet ∧
      lost (by decide : 0 < 4) {} {} (twoTurns.map Prod.fst)
        (List.replicate 16 oneTurn).flatten = [] ∧
      runtime.strategy = simulator.strategy ∧ runtime.oms.manager = simulator.oms ∧
        runtime.gateway = simulator.gateway := by
  obtain ⟨-, quiet, complete⟩ := fair_schedule_completes (by decide : 0 < 4) {} {} twoTurns
    (List.replicate 16 oneTurn) (by
      intro round member
      rw [List.eq_of_mem_replicate member]
      exact oneTurn_polls) (by decide)
  obtain ⟨kept, -, -, -, states⟩ := complete (by decide)
  exact ⟨by decide +kernel, quiet, kept, states⟩

end ThreadedRuntime
end TradingPlatform
