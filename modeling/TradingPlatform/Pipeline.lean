import Mathlib.Data.List.DropRight
import TradingPlatform.ExchangeGateway
import TradingPlatform.Oms
import TradingPlatform.Strategy

set_option autoImplicit false

/- The trading pipeline as a network: strategy, order manager and gateway joined
by unbounded channels, each taking a message whenever it likes. The runtimes of
the source are particular ways to run it. -/
namespace TradingPlatform

open Transducer

structure Pipeline where
  strategy : StrategyEngine
  oms : OrderManager
  gateway : ExchangeGateway
  /-- Market data nobody has published yet. -/
  input : List MarketDataUpdate := []
  quotes : List MarketDataUpdate := []
  signals : List Signal := []
  orders : List NewOrder := []
  answers : List Envelope := []

/-- The clock readings made for one update on its way through all components. -/
structure TurnClock where
  strategy : TimestampNs := 0
  order : TimestampNs := 0
  reject : TimestampNs := 0
  gateway : TimestampNs := 0
  deriving DecidableEq, Repr

namespace Pipeline

inductive Action where
  | publish
  | strategy (now : TimestampNs)
  | order (now rejectNow : TimestampNs)
  | exchange (now : TimestampNs)
  | settle
  | loseQuote
  | loseSignal
  | loseOrder
  | loseAnswer
  deriving DecidableEq, Repr

/-- What a step makes known: a message produced, or a response handled. -/
inductive Output where
  | signal (signal : Signal)
  | order (order : NewOrder)
  | answer (answer : Envelope)
  | settled (answer : Envelope)
  deriving DecidableEq, Repr

/-- A component without input leaves everything as it is; a lost message is the
last one put into its channel. -/
def step (pipeline : Pipeline) : Action → Pipeline × List Output
  | .publish =>
      match pipeline.input with
      | [] => (pipeline, [])
      | update :: rest =>
          ({ pipeline with input := rest, quotes := pipeline.quotes ++ [update] }, [])
  | .strategy now =>
      match pipeline.quotes with
      | [] => (pipeline, [])
      | update :: rest =>
          let result := pipeline.strategy.stage (update, now)
          ({ pipeline with
              strategy := result.1
              quotes := rest
              signals := pipeline.signals ++ result.2 }, result.2.map .signal)
  | .order now rejectNow =>
      match pipeline.signals with
      | [] => (pipeline, [])
      | signal :: rest =>
          let result := pipeline.oms.stage (signal, now, rejectNow)
          ({ pipeline with
              oms := result.1
              signals := rest
              orders := pipeline.orders ++ result.2 }, result.2.map .order)
  | .exchange now =>
      match pipeline.orders with
      | [] => (pipeline, [])
      | order :: rest =>
          let result := pipeline.gateway.stage (order, now)
          ({ pipeline with
              gateway := result.1
              orders := rest
              answers := pipeline.answers ++ result.2 }, result.2.map .answer)
  | .settle =>
      match pipeline.answers with
      | [] => (pipeline, [])
      | answer :: rest =>
          ({ pipeline with oms := pipeline.oms.settle answer, answers := rest },
            [.settled answer])
  | .loseQuote => ({ pipeline with input := pipeline.input.tail }, [])
  | .loseSignal => ({ pipeline with signals := pipeline.signals.dropLast }, [])
  | .loseOrder => ({ pipeline with orders := pipeline.orders.dropLast }, [])
  | .loseAnswer => ({ pipeline with answers := pipeline.answers.dropLast }, [])

/-! ### What was produced -/

def signalsOf (outputs : List Output) : List Signal :=
  outputs.filterMap fun output => match output with | .signal signal => some signal | _ => none

def ordersOf (outputs : List Output) : List NewOrder :=
  outputs.filterMap fun output => match output with | .order order => some order | _ => none

def answersOf (outputs : List Output) : List Envelope :=
  outputs.filterMap fun output => match output with | .answer answer => some answer | _ => none

/-- The orders whose acknowledgement the order manager has handled. -/
def ackedOf (outputs : List Output) : List ClientOrderId :=
  outputs.filterMap fun output =>
    match output with | .settled (.ack ack) => some ack.clientOrderId | _ => none

/-! ### The outcome -/

/-- Everything a pipeline is still going to produce when it runs to its end, up
to timestamps, and the states it ends in. -/
structure Outcome where
  signals : List Signal
  orders : List NewOrder
  answers : List Envelope
  strategy : StrategyEngine
  oms : OrderManager
  gateway : ExchangeGateway

/-- Stage after stage on whole streams. -/
def outcome (pipeline : Pipeline) : Outcome :=
  let quotes := pipeline.quotes ++ pipeline.input
  let signals := emitted StrategyEngine.untimedStage pipeline.strategy quotes
  let allSignals := pipeline.signals.map Signal.untimed ++ signals
  let orders := emitted OrderManager.untimedStage pipeline.oms allSignals
  let allOrders := pipeline.orders.map NewOrder.untimed ++ orders
  let answers := emitted ExchangeGateway.untimedStage pipeline.gateway allOrders
  { signals, orders, answers
    strategy := after StrategyEngine.untimedStage pipeline.strategy quotes
    oms := (pipeline.answers.map Envelope.untimed ++ answers).foldl OrderManager.settle
      (after OrderManager.untimedStage pipeline.oms allSignals)
    gateway := after ExchangeGateway.untimedStage pipeline.gateway allOrders }

/-- The outcome with what has been produced already in front. -/
def Outcome.behind (outcome : Outcome) (outputs : List Output) : Outcome :=
  { outcome with
    signals := (signalsOf outputs).map Signal.untimed ++ outcome.signals
    orders := (ordersOf outputs).map NewOrder.untimed ++ outcome.orders
    answers := (answersOf outputs).map Envelope.untimed ++ outcome.answers }

section Produced

variable (signals : List Signal) (orders : List NewOrder) (answers : List Envelope)

@[simp] theorem signalsOf_signals : signalsOf (signals.map .signal) = signals := by
  simp [signalsOf, List.filterMap_map]

@[simp] theorem signalsOf_orders : signalsOf (orders.map .order) = [] := by
  simp [signalsOf, List.filterMap_map]

@[simp] theorem signalsOf_answers : signalsOf (answers.map .answer) = [] := by
  simp [signalsOf, List.filterMap_map]

@[simp] theorem ordersOf_signals : ordersOf (signals.map .signal) = [] := by
  simp [ordersOf, List.filterMap_map]

@[simp] theorem ordersOf_orders : ordersOf (orders.map .order) = orders := by
  simp [ordersOf, List.filterMap_map]

@[simp] theorem ordersOf_answers : ordersOf (answers.map .answer) = [] := by
  simp [ordersOf, List.filterMap_map]

@[simp] theorem answersOf_signals : answersOf (signals.map .signal) = [] := by
  simp [answersOf, List.filterMap_map]

@[simp] theorem answersOf_orders : answersOf (orders.map .order) = [] := by
  simp [answersOf, List.filterMap_map]

@[simp] theorem answersOf_answers : answersOf (answers.map .answer) = answers := by
  simp [answersOf, List.filterMap_map]

end Produced

theorem signalsOf_append (early late : List Output) :
    signalsOf (early ++ late) = signalsOf early ++ signalsOf late :=
  List.filterMap_append

theorem ordersOf_append (early late : List Output) :
    ordersOf (early ++ late) = ordersOf early ++ ordersOf late :=
  List.filterMap_append

theorem answersOf_append (early late : List Output) :
    answersOf (early ++ late) = answersOf early ++ answersOf late :=
  List.filterMap_append

theorem Outcome.behind_append (outcome : Outcome) (early late : List Output) :
    outcome.behind (early ++ late) = (outcome.behind late).behind early := by
  simp [Outcome.behind, signalsOf_append, ordersOf_append, answersOf_append]

/-! ### The outcome is conserved -/

/-- Nothing in the channels is about an order that has not been issued yet. -/
structure Issued (pipeline : Pipeline) : Prop where
  orders : ∀ order ∈ pipeline.orders, order.clientOrderId < pipeline.oms.nextClientOrderId
  answers : ∀ answer ∈ pipeline.answers, ∀ id ∈ answer.answeredId,
    id < pipeline.oms.nextClientOrderId

theorem issued_step (pipeline : Pipeline) (action : Action) (issued : pipeline.Issued) :
    (pipeline.step action).1.Issued := by
  cases action with
  | publish =>
      unfold step
      cases pipeline.input with
      | nil => exact issued
      | cons update rest => exact ⟨issued.orders, issued.answers⟩
  | strategy now =>
      unfold step
      cases pipeline.quotes with
      | nil => exact issued
      | cons update rest => exact ⟨issued.orders, issued.answers⟩
  | order now rejectNow =>
      unfold step
      cases pipeline.signals with
      | nil => exact issued
      | cons signal rest =>
          refine ⟨?_, ?_⟩
          · intro order member
            dsimp only at member ⊢
            rw [OrderManager.stage_nextClientOrderId]
            rcases List.mem_append.mp member with old | new
            · exact Nat.lt_succ_of_lt (issued.orders order old)
            · rw [pipeline.oms.stage_order_id _ order new]
              exact Nat.lt_succ_self _
          · intro answer member id about
            dsimp only at member ⊢
            rw [OrderManager.stage_nextClientOrderId]
            exact Nat.lt_succ_of_lt (issued.answers answer member id about)
  | exchange now =>
      unfold step
      cases waiting : pipeline.orders with
      | nil => exact issued
      | cons order rest =>
          obtain ⟨answer, answered, about⟩ := pipeline.gateway.stage_answer (order, now)
          refine ⟨fun other member => issued.orders other ?_, ?_⟩
          · rw [waiting]
            exact List.mem_cons_of_mem _ member
          · intro other member id mentioned
            dsimp only at member
            rw [answered] at member
            rcases List.mem_append.mp member with old | new
            · exact issued.answers other old id mentioned
            · rw [List.mem_singleton.mp new, about] at mentioned
              cases mentioned
              exact issued.orders order (by rw [waiting]; exact List.mem_cons_self)
  | settle =>
      unfold step
      cases waiting : pipeline.answers with
      | nil => exact issued
      | cons answer rest =>
          refine ⟨?_, ?_⟩
          · simpa only [OrderManager.settle_nextClientOrderId] using issued.orders
          · intro other member id about
            dsimp only at member ⊢
            rw [OrderManager.settle_nextClientOrderId]
            exact issued.answers other (by rw [waiting]; exact List.mem_cons_of_mem _ member) id
              about
  | loseQuote => exact ⟨issued.orders, issued.answers⟩
  | loseSignal => exact ⟨issued.orders, issued.answers⟩
  | loseOrder =>
      exact ⟨fun order member => issued.orders order (List.mem_of_mem_dropLast member),
        issued.answers⟩
  | loseAnswer =>
      exact ⟨issued.orders,
        fun answer member => issued.answers answer (List.mem_of_mem_dropLast member)⟩

/-- The actions that lose no message. -/
def Action.Lossless : Action → Prop
  | .loseQuote | .loseSignal | .loseOrder | .loseAnswer => False
  | _ => True

instance (action : Action) : Decidable action.Lossless := by
  cases action <;> unfold Action.Lossless <;> infer_instance

/-- A step only moves messages from what is still to come to what has been
produced. -/
theorem outcome_step (pipeline : Pipeline) (action : Action) (lossless : action.Lossless)
    (issued : pipeline.Issued) :
    pipeline.outcome =
      (pipeline.step action).1.outcome.behind (pipeline.step action).2 := by
  cases action with
  | publish =>
      unfold step
      cases waiting : pipeline.input with
      | nil => rfl
      | cons update rest =>
          simp only [outcome, waiting, List.append_assoc, List.cons_append, List.nil_append]
          rfl
  | strategy now =>
      unfold step
      cases waiting : pipeline.quotes with
      | nil => rfl
      | cons update rest =>
          obtain ⟨same, signals⟩ := pipeline.strategy.stage_untimed update now
          simp only [outcome, waiting, List.cons_append, emitted_cons, after_cons, ← same,
            ← signals, List.map_append, List.append_assoc, Outcome.behind, signalsOf_signals,
            ordersOf_signals, answersOf_signals, List.map_nil, List.nil_append]
  | order now rejectNow =>
      unfold step
      cases waiting : pipeline.signals with
      | nil => rfl
      | cons signal rest =>
          obtain ⟨same, orders⟩ := pipeline.oms.stage_untimed signal now rejectNow
          simp only [outcome, waiting, List.map_cons, List.cons_append, emitted_cons, after_cons,
            ← same, ← orders, List.map_append, List.append_assoc, Outcome.behind,
            signalsOf_orders, ordersOf_orders, answersOf_orders, List.map_nil, List.nil_append]
  | exchange now =>
      unfold step
      cases waiting : pipeline.orders with
      | nil => rfl
      | cons order rest =>
          obtain ⟨same, answers⟩ := pipeline.gateway.stage_untimed order now
          simp only [outcome, waiting, List.map_cons, List.cons_append, emitted_cons, after_cons,
            ← same, ← answers, List.map_append, List.append_assoc, Outcome.behind,
            signalsOf_answers, ordersOf_answers, answersOf_answers, List.map_nil,
            List.nil_append]
  | settle =>
      unfold step
      cases waiting : pipeline.answers with
      | nil => rfl
      | cons answer rest =>
          -- the response is handled before the signals that are still to come
          obtain ⟨final, orders⟩ := pipeline.oms.after_settle answer
            (pipeline.signals.map Signal.untimed ++
              emitted StrategyEngine.untimedStage pipeline.strategy
                (pipeline.quotes ++ pipeline.input))
            (issued.answers answer (by rw [waiting]; exact List.mem_cons_self))
          simp only [outcome, waiting, List.map_cons, List.cons_append, List.foldl_cons,
            OrderManager.settle_untimed, final, orders]
          rfl
  | loseQuote => exact lossless.elim
  | loseSignal => exact lossless.elim
  | loseOrder => exact lossless.elim
  | loseAnswer => exact lossless.elim

/-- So does a whole run in which nothing is lost. -/
theorem outcome_run (pipeline : Pipeline) (actions : List Action)
    (lossless : ∀ action ∈ actions, action.Lossless) (issued : pipeline.Issued) :
    pipeline.outcome =
      (after step pipeline actions).outcome.behind (emitted step pipeline actions) := by
  induction actions generalizing pipeline with
  | nil => rfl
  | cons action actions ih =>
      rw [outcome_step pipeline action (lossless action List.mem_cons_self) issued,
        ih _ (fun other member => lossless other (List.mem_cons_of_mem _ member))
          (issued_step pipeline action issued),
        emitted_cons, Outcome.behind_append, after_cons]

/-- Nothing is on its way any more. -/
structure Drained (pipeline : Pipeline) : Prop where
  input : pipeline.input = []
  quotes : pipeline.quotes = []
  signals : pipeline.signals = []
  orders : pipeline.orders = []
  answers : pipeline.answers = []

theorem outcome_drained (pipeline : Pipeline) (drained : pipeline.Drained) :
    pipeline.outcome = {
      signals := [], orders := [], answers := []
      strategy := pipeline.strategy, oms := pipeline.oms, gateway := pipeline.gateway } := by
  obtain ⟨input, quotes, signals, orders, answers⟩ := drained
  simp only [outcome, input, quotes, signals, orders, answers, List.append_nil, List.map_nil,
    emitted_nil, after_nil, List.foldl_nil]

/-! ### Input that has not been published -/

/-- The pipeline without the last `count` updates of its input. -/
def withhold (pipeline : Pipeline) (count : Nat) : Pipeline :=
  { pipeline with input := pipeline.input.rdrop count }

theorem rdrop_cons (update : MarketDataUpdate) (rest : List MarketDataUpdate) (count : Nat)
    (enough : count ≤ rest.length) : (update :: rest).rdrop count = update :: rest.rdrop count := by
  rw [List.rdrop, List.rdrop, List.length_cons, Nat.succ_sub enough, List.take_succ_cons]

/-- A step that leaves the last updates alone does not need them. -/
theorem step_withhold (pipeline : Pipeline) (action : Action) (count : Nat)
    (enough : count ≤ (pipeline.step action).1.input.length) :
    (pipeline.withhold count).step action =
      ((pipeline.step action).1.withhold count, (pipeline.step action).2) := by
  cases action with
  | publish =>
      cases waiting : pipeline.input with
      | nil => simp [step, withhold, waiting]
      | cons update rest =>
          simp only [step, waiting] at enough
          simp only [step, withhold, waiting, rdrop_cons update rest count enough]
  | loseQuote =>
      cases waiting : pipeline.input with
      | nil => simp [step, withhold, waiting]
      | cons update rest =>
          simp only [step, waiting, List.tail_cons] at enough
          simp only [step, withhold, waiting, rdrop_cons update rest count enough, List.tail_cons]
  | strategy now => cases waiting : pipeline.quotes <;> simp only [step, withhold, waiting]
  | order now rejectNow => cases waiting : pipeline.signals <;> simp only [step, withhold, waiting]
  | exchange now => cases waiting : pipeline.orders <;> simp only [step, withhold, waiting]
  | settle => cases waiting : pipeline.answers <;> simp only [step, withhold, waiting]
  | loseSignal => rfl
  | loseOrder => rfl
  | loseAnswer => rfl

theorem step_input_length (pipeline : Pipeline) (action : Action) :
    (pipeline.step action).1.input.length ≤ pipeline.input.length := by
  cases action with
  | publish => cases waiting : pipeline.input <;> simp [step, waiting]
  | strategy now => cases waiting : pipeline.quotes <;> simp [step, waiting]
  | order now rejectNow => cases waiting : pipeline.signals <;> simp [step, waiting]
  | exchange now => cases waiting : pipeline.orders <;> simp [step, waiting]
  | settle => cases waiting : pipeline.answers <;> simp [step, waiting]
  | loseQuote => simp [step]
  | loseSignal => exact Nat.le_refl _
  | loseOrder => exact Nat.le_refl _
  | loseAnswer => exact Nat.le_refl _

theorem run_input_length (pipeline : Pipeline) (actions : List Action) :
    (after step pipeline actions).input.length ≤ pipeline.input.length :=
  after_invariant
    (fun state action shorter => (step_input_length state action).trans shorter)
    actions pipeline (Nat.le_refl _)

theorem run_withhold (pipeline : Pipeline) (actions : List Action) (count : Nat)
    (enough : count ≤ (after step pipeline actions).input.length) :
    after step (pipeline.withhold count) actions =
        (after step pipeline actions).withhold count ∧
      emitted step (pipeline.withhold count) actions = emitted step pipeline actions := by
  induction actions generalizing pipeline with
  | nil => exact ⟨rfl, rfl⟩
  | cons action actions ih =>
      have now := enough.trans (run_input_length (pipeline.step action).1 actions)
      obtain ⟨final, outputs⟩ := ih (pipeline.step action).1 enough
      rw [after_cons, emitted_cons, step_withhold pipeline action count now]
      exact ⟨final, congrArg ((pipeline.step action).2 ++ ·) outputs⟩

end Pipeline
end TradingPlatform
