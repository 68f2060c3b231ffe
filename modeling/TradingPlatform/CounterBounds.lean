import TradingPlatform.DistributedNodes
import TradingPlatform.RouterLog
import TradingPlatform.ThreadedRefinement

set_option autoImplicit false

/- The sequences and identifiers that the components give out are 64-bit words in
the source. How far they get in a run, and that none of them wraps in a run that is
short enough. -/
namespace TradingPlatform

/-! ### The stages -/

/-- The numbers that a component has given out, all together. -/
def StrategyEngine.given (engine : StrategyEngine) : Nat := engine.signalSequence

def OrderManager.given (manager : OrderManager) : Nat :=
  manager.nextClientOrderId + manager.sequence

def ExchangeGateway.given (gateway : ExchangeGateway) : Nat :=
  gateway.nextExchangeOrderId + gateway.sequence

theorem StrategyEngine.onMarketData_given (engine : StrategyEngine) (update : MarketDataUpdate)
    (now : TimestampNs) : (engine.onMarketData update now).1.given ≤ engine.given + 1 := by
  unfold onMarketData given
  dsimp only
  split
  · exact Nat.le_succ _
  · split
    · exact Nat.le_succ _
    · split
      · exact Nat.le_refl _
      · exact Nat.le_succ _

theorem OrderManager.onSignal_given (manager : OrderManager) (signal : Signal)
    (now rejectNow : TimestampNs) :
    (manager.onSignal signal now rejectNow).1.given ≤ manager.given + 3 := by
  by_cases accepted : manager.Accepts signal
  · rw [onSignal_accept _ _ _ _ accepted]
    dsimp only [given]
    omega
  · rw [onSignal_refuse _ _ _ _ accepted]
    dsimp only [given]
    omega

theorem ExchangeGateway.sendOrder_given (gateway : ExchangeGateway) (order : NewOrder)
    (now : TimestampNs) : (gateway.sendOrder order now).1.given ≤ gateway.given + 2 := by
  unfold sendOrder given
  split
  · dsimp only
    omega
  · dsimp only
    omega

/-! ### The threaded runtime -/

def OmsThread.given (thread : OmsThread) : Nat := thread.manager.given + thread.journalSequence

theorem OmsThread.onSignalMessage_given (thread : OmsThread) (message : Envelope)
    (now rejectNow : TimestampNs) (io : JournalIo) :
    (thread.onSignalMessage message now rejectNow io).1.given ≤ thread.given + 4 := by
  cases message with
  | signal signal =>
      have raised := thread.manager.onSignal_given signal now rejectNow
      cases result : thread.manager.onSignal signal now rejectNow with
      | mk manager maybeOrder =>
          rw [result] at raised
          simp only [onSignalMessage, result]
          split
          · simp only [given] at raised ⊢
            omega
          · simp only [given] at raised ⊢
            omega
  | _ => exact Nat.le_add_right _ _

theorem OmsThread.onGatewayMessage_given (thread : OmsThread) (message : Envelope)
    (io : JournalIo) : (thread.onGatewayMessage message io).given ≤ thread.given + 1 := by
  cases message with
  | ack ack => exact Nat.le_refl _
  | reject reject => exact Nat.le_refl _
  | _ => exact Nat.le_add_right _ _

namespace ThreadedRuntime

variable {capacity : Nat}

def given (runtime : ThreadedRuntime capacity) : Nat :=
  runtime.strategy.given + runtime.oms.given + runtime.gateway.given

section Threads

variable (runtime : ThreadedRuntime capacity)

theorem marketDataThread_given : runtime.marketDataThread.1.given = runtime.given := by
  unfold marketDataThread
  split
  · rfl
  · split <;> rfl

theorem strategyThread_given (now : TimestampNs) :
    (runtime.strategyThread now).1.given ≤ runtime.given + 1 := by
  unfold strategyThread
  split
  · split
    · exact Nat.le_succ _
    · split
      · rename_i update _
        have raised := runtime.strategy.onMarketData_given update now
        split
        · rename_i same
          rw [same] at raised
          dsimp only [given] at raised ⊢
          omega
        · rename_i same
          rw [same] at raised
          dsimp only [given] at raised ⊢
          omega
      · exact Nat.le_succ _
  · exact Nat.le_succ _

theorem omsThread_given (now rejectNow : TimestampNs) (io : JournalIo) :
    (runtime.omsThread now rejectNow io).1.given ≤ runtime.given + 4 := by
  unfold omsThread
  split
  · split
    · exact Nat.le_add_right _ _
    · split
      · exact Nat.le_add_right _ _
      · rename_i message _
        have raised := runtime.oms.onSignalMessage_given message now rejectNow io
        split
        · rename_i same
          rw [same] at raised
          dsimp only [given] at raised ⊢
          omega
        · rename_i same
          rw [same] at raised
          dsimp only [given] at raised ⊢
          omega
  · exact Nat.le_add_right _ _
  · split
    · exact Nat.le_add_right _ _
    · rename_i message _
      have raised := runtime.oms.onGatewayMessage_given message io
      dsimp only [given] at raised ⊢
      omega

theorem gatewayThread_given (now : TimestampNs) :
    (runtime.gatewayThread now).1.given ≤ runtime.given + 2 := by
  unfold gatewayThread
  split
  · split
    · exact Nat.le_add_right _ _
    · split
      · rename_i order _
        have raised := runtime.gateway.sendOrder_given order now
        split
        · rename_i same
          rw [same] at raised
          dsimp only [given] at raised ⊢
          omega
        · rename_i same
          rw [same] at raised
          dsimp only [given] at raised ⊢
          omega
      · exact Nat.le_add_right _ _
  · exact Nat.le_add_right _ _

end Threads

theorem step_given (runtime : ThreadedRuntime capacity) (action : ThreadAction) :
    (runtime.step action).1.given ≤ runtime.given + 4 := by
  cases action with
  | marketData => exact Nat.le_add_right_of_le runtime.marketDataThread_given.le
  | strategy now => exact (runtime.strategyThread_given now).trans (by omega)
  | oms now rejectNow io => exact runtime.omsThread_given now rejectNow io
  | gateway now => exact (runtime.gatewayThread_given now).trans (by omega)
  | shutdown => exact Nat.le_add_right _ _

/-- In a run of fewer than 2^60 actions no number that a thread gives out wraps. -/
theorem reached_given (positive : 0 < capacity) (journal : JournalLog) (io : JournalIo)
    (input : List MarketDataUpdate) (actions : List ThreadAction) (few : actions.length < 2 ^ 60) :
    (reached positive journal io input actions).given < 2 ^ 64 := by
  have bound := Transducer.foldl_counter_le
    (fun (runtime : ThreadedRuntime capacity) action => (step runtime action).1) given 4 step_given
    (start positive journal io input) actions
  have first : (start positive journal io input).given = 1001 := rfl
  rw [first] at bound
  exact Nat.lt_of_le_of_lt bound (by omega)

end ThreadedRuntime

/-! ### The nodes -/

def MarketDataNode.given (node : MarketDataNode) : Nat := node.outboundSeq

def StrategyNode.given (node : StrategyNode) : Nat := node.strategy.given + node.signalSeq

def OmsNode.given (node : OmsNode) : Nat :=
  node.manager.given + node.journalSeq + node.gatewaySeq + node.replaySeq

def GatewayNode.given (node : GatewayNode) : Nat :=
  node.simulatedGateway.given + node.responseSeq + node.syntheticExchangeId

theorem MarketDataNode.step_given (node : MarketDataNode) (input : NodeInput) :
    (node.step input).1.given ≤ node.given + 1 := by
  unfold step
  split
  · split <;> exact Nat.le_succ _
  · exact Nat.le_refl _
  · exact Nat.le_succ _

theorem StrategyNode.step_given (node : StrategyNode) (input : NodeInput) :
    (node.step input).1.given ≤ node.given + 1 := by
  unfold step
  split
  · split
    · exact Nat.le_succ _
    · rename_i md _
      have raised := node.strategy.onMarketData_given md input.now
      dsimp only
      split
      · rename_i same
        rw [same] at raised
        dsimp only [given] at raised ⊢
        omega
      · rename_i same
        rw [same] at raised
        dsimp only [given] at raised ⊢
        omega
    · exact Nat.le_succ _
  · exact Nat.le_refl _
  · split <;> exact Nat.le_succ _
  · exact Nat.le_succ _

theorem OmsNode.process_given (node : OmsNode) (response : Envelope) (io : JournalIo) :
    (node.process response io).given ≤ node.given + 1 := by
  have manager : ∀ reject, (node.manager.onGatewayReject reject).1.given = node.manager.given :=
    fun _ => rfl
  cases response with
  | ack ack =>
      dsimp only [process, given, OrderManager.onGatewayAck]
      omega
  | reject reject =>
      dsimp only [process, given]
      rw [manager]
      omega
  | _ => exact Nat.le_succ _

theorem OmsNode.step_given (node : OmsNode) (input : NodeInput) :
    (node.step input).1.given ≤ node.given + 3 := by
  unfold step
  split
  · split
    · exact Nat.le_add_right _ _
    · rename_i signal _
      have raised := node.manager.onSignal_given signal input.now input.laterNow
      split
      all_goals
        rename_i same
        rw [same] at raised
        dsimp only [given] at raised ⊢
        omega
    · exact Nat.le_add_right _ _
  · dsimp only [given]
    omega
  · dsimp only [given]
    omega
  · dsimp only
    split
    all_goals
      dsimp only [given]
      omega
  · split <;> exact Nat.le_add_right _ _
  · dsimp only [given]
    omega
  · rename_i response _
    have raised := node.process_given response input.journal
    dsimp only [given] at raised ⊢
    omega
  · exact Nat.le_add_right _ _

theorem GatewayNode.respond_given (node : GatewayNode) (order : NewOrder) (input : NodeInput) :
    (node.respond order input).1.given ≤ node.given + 2 := by
  unfold respond
  split
  · split
    · dsimp only [given]
      omega
    · exact Nat.le_add_right _ _
  · have raised := node.simulatedGateway.sendOrder_given order input.now
    split
    all_goals
      rename_i same
      rw [same] at raised
      dsimp only [given] at raised ⊢
      omega

theorem GatewayNode.step_given (node : GatewayNode) (input : NodeInput) :
    (node.step input).1.given ≤ node.given + 3 := by
  unfold step
  split
  · split
    · exact Nat.le_add_right _ _
    · rename_i order _
      dsimp only
      have raised := GatewayNode.respond_given
        { node with metrics := node.metrics.increment .ordersSent } order input
      dsimp only [given] at raised ⊢
      omega
    · exact Nat.le_add_right _ _
  · exact Nat.le_add_right _ _
  · split <;> exact Nat.le_add_right _ _
  · exact Nat.le_add_right _ _

namespace DistributedNodes

def given (nodes : DistributedNodes) : Nat :=
  nodes.marketData.given + nodes.strategy.given + nodes.oms.given + nodes.gateway.given

theorem step_given (nodes : DistributedNodes) (action : NodeAction) :
    (nodes.step action).given ≤ nodes.given + 3 := by
  have marketData := nodes.marketData.step_given
  have strategy := nodes.strategy.step_given
  have oms := nodes.oms.step_given
  have gateway := nodes.gateway.step_given
  unfold step
  split
  · have raised := marketData
      { action.input with sends := nodes.marketDataToStrategy.delivers action.input }
    dsimp only [stepMarketData, given] at raised ⊢
    omega
  · unfold stepStrategy
    split
    · split
      · exact Nat.le_add_right _ _
      · rename_i received _
        have raised := strategy { action.input with received }
        dsimp only [given] at raised ⊢
        omega
    · have raised := strategy
        { action.input with sends := nodes.strategyToOms.delivers action.input }
      dsimp only [given] at raised ⊢
      omega
  · unfold stepOms
    split
    · split
      · exact Nat.le_add_right _ _
      · rename_i received _
        have raised := oms { action.input with received }
        dsimp only [given] at raised ⊢
        omega
    · split
      · split
        · exact Nat.le_add_right _ _
        · rename_i received _
          have raised := oms { action.input with received }
          dsimp only [given] at raised ⊢
          omega
      · have raised := oms
          { action.input with sends := nodes.omsToGateway.delivers action.input }
        dsimp only [given] at raised ⊢
        omega
  · unfold stepGateway
    split
    · split
      · exact Nat.le_add_right _ _
      · rename_i received _
        have raised := gateway { action.input with received }
        dsimp only [given] at raised ⊢
        omega
    · have raised := gateway
        { action.input with sends := nodes.gatewayToOms.delivers action.input }
      dsimp only [given] at raised ⊢
      omega

/-- In a run of fewer than 2^60 steps no number that a node gives out wraps. -/
theorem reached_given (journal : JournalLog) (io : JournalIo) (mode : GatewayMode)
    (actions : List NodeAction) (few : actions.length < 2 ^ 60) :
    (reached journal io mode actions).given < 2 ^ 64 := by
  have bound := Transducer.foldl_counter_le step given 3 step_given (start journal io mode) actions
  have first : (start journal io mode).given =
      0 + (0 + 0) + (1 + 0 + 0 + 0 + 0) + (1000 + 0 + 0 + 50000) := rfl
  rw [first] at bound
  exact Nat.lt_of_le_of_lt bound (by omega)

end DistributedNodes

/-! ### The router -/

namespace LiveRouter

def SharedState.given (state : SharedState) : Nat :=
  state.replaySeq + state.journalSeq + state.signalSeq

theorem route_given (state : SharedState) (io : RouteIo) (decision : Router.RouteDecision) :
    (state.route io decision).1.given ≤ state.given + 3 := by
  unfold SharedState.route
  split
  · exact Nat.le_add_right _ _
  · dsimp only [SharedState.write, SharedState.given]
    omega

theorem processUpdate_given (state : SharedState) (call : Call) :
    (processUpdate state call).1.given ≤ state.given + 8 := by
  by_cases taken : Taken state call
  · have marked : (marked state call).given = state.given + 2 := by
      dsimp only [marked, SharedState.write, SharedState.given]
      omega
    have bought := route_given (LiveRouter.marked state call) call.buy
      ((LiveRouter.marked state call).router.routeSignal call.order (probe call.md.update .buy))
    rw [processUpdate_taken state call taken]
    dsimp only
    have sold := route_given
      ((LiveRouter.marked state call).route call.buy
        ((LiveRouter.marked state call).router.routeSignal call.order
          (probe call.md.update .buy))).1
      call.sell
      ((LiveRouter.marked state call).router.routeSignal call.order (probe call.md.update .sell))
    omega
  · obtain ⟨-, -, -, -, -, -, replaySeq, -, journalSeq, signalSeq⟩ :=
      processUpdate_silent state call taken
    rw [SharedState.given, replaySeq, journalSeq, signalSeq]
    exact Nat.le_add_right _ _

/-- In a run of fewer than 2^60 calls no sequence that the router gives out wraps. -/
theorem after_given (limits : KillSwitchLimits) (before : List JournalEntry) (calls : List Call)
    (few : calls.length < 2 ^ 60) :
    (Transducer.after processUpdate (started limits before) calls).given < 2 ^ 64 := by
  have bound := Transducer.foldl_counter_le (fun state call => (processUpdate state call).1)
    SharedState.given 8 processUpdate_given (started limits before) calls
  have first : (started limits before).given = 0 := rfl
  rw [first] at bound
  exact Nat.lt_of_le_of_lt bound (by omega)

end LiveRouter
end TradingPlatform
