import TradingPlatform.JournalLog
import TradingPlatform.KillSwitch
import TradingPlatform.Library.Transducer
import TradingPlatform.MarketDataAdapter
import TradingPlatform.ReplayLog

set_option autoImplicit false

/- The router fed by the live connectors. Every call of `process_update` runs
under the mutex, so a run is a list of calls. -/
namespace TradingPlatform
namespace LiveRouter

open Router (RouteDecision IterationOrder MultiVenueRouter)

def makeMarketDataEnv (update : MarketDataUpdate) : Envelope := .marketData update

def makeRouteSignalEnv (decision : RouteDecision) (seq : Sequence) (sendTsNs : TimestampNs) :
    Envelope :=
  .signal {
    header := {
      type := .signal
      sourceNode := 2
      destinationNode := 3
      sequence := seq
      sendTsNs := sendTsNs }
    symbolId := decision.symbolId
    side := decision.side
    limitPx := decision.limitPx
    qty := decision.qty
    confidenceBps := 9000 }

/-- `latencies` are the samples handed to the metrics. -/
structure SharedState where
  router : MultiVenueRouter := {}
  replayWriter : ReplayLog := { nodeRole := .simulator }
  journal : JournalLog := {}
  killSwitch : KillSwitch := {}
  replaySeq : Sequence := 0
  journalSeq : Sequence := 0
  signalSeq : Sequence := 0
  updatesSeen : UInt64 := 0
  routesSeen : UInt64 := 0
  metrics : MetricsRegistry := {}
  latencies : List TimestampNs := []

/-- What the surroundings contribute to one pair of appends. -/
structure WriteIo where
  replay : ReplayIo := {}
  journal : JournalIo := {}
  deriving DecidableEq, Repr

/-- What they contribute to one route: the clock for a trigger of the kill
switch and for the signal, and the appends. -/
structure RouteIo where
  triggered : TimestampNs := 0
  sent : TimestampNs := 0
  write : WriteIo := {}
  deriving DecidableEq, Repr

/-- One call: its update, the clock at its start, the halt file, the clock for a
trigger, the traversal of the books and the writes. -/
structure Call where
  md : NormalizedMarketData
  now : TimestampNs := 0
  haltFile : Bool := false
  halted : TimestampNs := 0
  order : IterationOrder
  write : WriteIo := {}
  buy : RouteIo := {}
  sell : RouteIo := {}

/-- The two appends of an envelope, each with the next sequence of its file. -/
def SharedState.write (state : SharedState) (io : WriteIo) (env : Envelope) : SharedState :=
  let replaySeq := state.replaySeq + 1
  let (replayWriter, metrics) :=
    state.replayWriter.record state.metrics io.replay env replaySeq
  let journalSeq := state.journalSeq + 1
  let (journal, metrics) := state.journal.record metrics io.journal .runtimeMarker env journalSeq
  { state with
    replaySeq := replaySeq
    replayWriter := replayWriter
    journalSeq := journalSeq
    journal := journal
    metrics := metrics }

/-- The branch of `process_update` for one decision, the same for both sides. -/
def SharedState.route (state : SharedState) (io : RouteIo) (decision : RouteDecision) :
    SharedState × List Envelope :=
  if !decision.routeable then (state, [])
  else
    let signalSeq := state.signalSeq + 1
    let routeEnv := makeRouteSignalEnv decision signalSeq io.sent
    let state := { state with
      killSwitch := state.killSwitch.onRoute io.triggered
      metrics := state.metrics.increment .signalsGenerated
      signalSeq := signalSeq }
    let state := state.write io.write routeEnv
    ({ state with routesSeen := state.routesSeen + 1 }, [routeEnv])

/-- The signal of one unit that is routed after an update. -/
def probe (update : MarketDataUpdate) (side : Side) : Signal where
  symbolId := update.symbolId
  side := side
  qty := 1

/-- The outputs are the envelopes handed to both files. -/
def processUpdate (state : SharedState) (call : Call) : SharedState × List Envelope :=
  let (killSwitch, enabled) := state.killSwitch.tradingEnabled call.haltFile call.halted
  let state := { state with killSwitch := killSwitch }
  if !enabled then (state, [])
  else
    let update := call.md.update
    let latencies :=
      if update.header.recvTsNs > 0 ∧ call.now ≥ update.header.recvTsNs then
        state.latencies ++ [call.now - update.header.recvTsNs]
      else state.latencies
    let (router, accepted) := state.router.update call.md
    let state := { state with
      metrics := state.metrics.increment .marketDataReceived
      latencies := latencies
      router := router }
    if !accepted then
      ({ state with metrics := state.metrics.increment .queueDrops }, [])
    else
      let mdEnv := makeMarketDataEnv update
      let state := state.write call.write mdEnv
      let state := { state with updatesSeen := state.updatesSeen + 1 }
      let buyRoute := state.router.routeSignal call.order (probe update .buy)
      let sellRoute := state.router.routeSignal call.order (probe update .sell)
      let (state, bought) := state.route call.buy buyRoute
      let (state, sold) := state.route call.sell sellRoute
      (state, mdEnv :: bought ++ sold)

/-! ### What a call does -/

/-- The kill switch as a call leaves it after its poll. -/
def polled (state : SharedState) (call : Call) : KillSwitch :=
  (state.killSwitch.tradingEnabled call.haltFile call.halted).1

/-- The call passes the kill switch and the router takes its update. -/
def Taken (state : SharedState) (call : Call) : Prop :=
  (polled state call).state.tradingEnabled = true ∧ MultiVenueRouter.Accepted call.md

theorem processUpdate_silent (state : SharedState) (call : Call) (silent : ¬ Taken state call) :
    (processUpdate state call).2 = [] ∧
      (processUpdate state call).1.router = state.router ∧
      (processUpdate state call).1.killSwitch = polled state call ∧
      (processUpdate state call).1.routesSeen = state.routesSeen ∧
      (processUpdate state call).1.updatesSeen = state.updatesSeen ∧
      (processUpdate state call).1.replayWriter = state.replayWriter ∧
      (processUpdate state call).1.replaySeq = state.replaySeq ∧
      (processUpdate state call).1.journal = state.journal ∧
      (processUpdate state call).1.journalSeq = state.journalSeq ∧
      (processUpdate state call).1.signalSeq = state.signalSeq := by
  unfold processUpdate
  cases enabled : (state.killSwitch.tradingEnabled call.haltFile call.halted).2 with
  | false => simp [enabled, polled]
  | true =>
      have rejected : ¬ MultiVenueRouter.Accepted call.md := fun accepted => silent ⟨enabled, accepted⟩
      have ignored := MultiVenueRouter.update_rejected state.router call.md rejected
      simp [enabled, ignored, polled]

/-- The state in which a taken call makes its two routes. -/
def marked (state : SharedState) (call : Call) : SharedState :=
  let update := call.md.update
  let state := { state with
    killSwitch := polled state call
    metrics := state.metrics.increment .marketDataReceived
    latencies :=
      if update.header.recvTsNs > 0 ∧ call.now ≥ update.header.recvTsNs then
        state.latencies ++ [call.now - update.header.recvTsNs]
      else state.latencies
    router := (state.router.update call.md).1 }
  let state := state.write call.write (makeMarketDataEnv update)
  { state with updatesSeen := state.updatesSeen + 1 }

theorem processUpdate_taken (state : SharedState) (call : Call) (taken : Taken state call) :
    processUpdate state call =
      let routed := marked state call
      let bought := routed.route call.buy
        (routed.router.routeSignal call.order (probe call.md.update .buy))
      let sold := bought.1.route call.sell
        (routed.router.routeSignal call.order (probe call.md.update .sell))
      (sold.1, makeMarketDataEnv call.md.update :: bought.2 ++ sold.2) := by
  have enabled : (state.killSwitch.tradingEnabled call.haltFile call.halted).2 = true := taken.1
  have accepted := MultiVenueRouter.update_accepted state.router call.md taken.2
  unfold processUpdate marked polled
  simp [enabled, accepted]

/-- A routeable decision is emitted. -/
theorem route_routeable (state : SharedState) (io : RouteIo) (decision : RouteDecision)
    (routeable : decision.routeable = true) :
    (state.route io decision).2 = [makeRouteSignalEnv decision (state.signalSeq + 1) io.sent] ∧
      (state.route io decision).1.router = state.router ∧
      (state.route io decision).1.killSwitch = state.killSwitch.onRoute io.triggered ∧
      (state.route io decision).1.routesSeen = state.routesSeen + 1 := by
  simp [SharedState.route, routeable, SharedState.write]

/-- A taken call emits its update and, after it, a route for each side. -/
theorem processUpdate_routes (state : SharedState) (call : Call)
    (history : List NormalizedMarketData) (follows : state.router = MultiVenueRouter.replay history)
    (taken : Taken state call) :
    (processUpdate state call).1.router = MultiVenueRouter.replay (history ++ [call.md]) ∧
      (processUpdate state call).1.killSwitch =
        ((polled state call).onRoute call.buy.triggered).onRoute call.sell.triggered ∧
      (processUpdate state call).1.routesSeen = state.routesSeen + 1 + 1 ∧
      ∃ buy sell : Signal,
        (processUpdate state call).2 =
          [.marketData call.md.update, .signal buy, .signal sell] ∧
        buy.side = .buy ∧ buy.symbolId = call.md.update.symbolId ∧
        IsLeast (MultiVenueRouter.asks (history ++ [call.md]) call.md.update.symbolId)
          buy.limitPx.toInt ∧
        sell.side = .sell ∧ sell.symbolId = call.md.update.symbolId ∧
        IsGreatest (MultiVenueRouter.bids (history ++ [call.md]) call.md.update.symbolId)
          sell.limitPx.toInt := by
  have router : (marked state call).router = MultiVenueRouter.replay (history ++ [call.md]) := by
    rw [MultiVenueRouter.replay_concat, ← follows]
    rfl
  have live : ∃ md ∈ history ++ [call.md], MultiVenueRouter.Accepted md ∧
      md.update.symbolId = call.md.update.symbolId :=
    ⟨call.md, by simp, taken.2, rfl⟩
  have buyRoute := MultiVenueRouter.routeSignal_buy call.order (history ++ [call.md])
    (probe call.md.update .buy) rfl live
  have sellRoute := MultiVenueRouter.routeSignal_sell call.order (history ++ [call.md])
    (probe call.md.update .sell) rfl live
  rw [← router] at buyRoute sellRoute
  have bought := route_routeable (marked state call) call.buy _ buyRoute.1
  have sold := route_routeable
    ((marked state call).route call.buy ((marked state call).router.routeSignal call.order
      (probe call.md.update .buy))).1 call.sell _ sellRoute.1
  rw [processUpdate_taken state call taken]
  dsimp only
  refine ⟨?_, ?_, ?_, ?_⟩
  · rw [sold.2.1, bought.2.1, router]
  · rw [sold.2.2.1, bought.2.2.1]
    rfl
  · rw [sold.2.2.2, bought.2.2.2]
    rfl
  · rw [sold.1, bought.1]
    exact ⟨_, _, rfl, buyRoute.2.2.1, buyRoute.2.1, buyRoute.2.2.2, sellRoute.2.2.1,
      sellRoute.2.1, sellRoute.2.2.2⟩

theorem route_updatesSeen (state : SharedState) (io : RouteIo) (decision : RouteDecision) :
    (state.route io decision).1.updatesSeen = state.updatesSeen := by
  unfold SharedState.route
  split <;> rfl

/-- The calls that are taken are counted. -/
theorem processUpdate_updatesSeen (state : SharedState) (call : Call) (taken : Taken state call) :
    (processUpdate state call).1.updatesSeen = state.updatesSeen + 1 := by
  rw [processUpdate_taken state call taken]
  dsimp only
  rw [route_updatesSeen, route_updatesSeen]
  rfl

end LiveRouter
end TradingPlatform
