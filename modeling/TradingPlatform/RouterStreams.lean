import TradingPlatform.LiveConnectors
import TradingPlatform.RouteLimit
import TradingPlatform.RouteTies
import TradingPlatform.RouterLog
import TradingPlatform.Library.Streams

set_option autoImplicit false

/- The threads of the live router, one for each venue and symbol. They share
nothing but the state behind the mutex, in whatever order they take it. -/
namespace TradingPlatform
namespace LiveRouter

open Decimal
open Router (VenueBookKey RouteDecision IterationOrder MultiVenueRouter)

/-- What a thread runs: its connector, and the symbol it reports. -/
structure StreamTask where
  connector : LiveConnector
  symbolId : SymbolId
  deriving DecidableEq, Repr

def runBinanceStream (symbol : List UInt8) (symbolId : SymbolId) : StreamTask where
  connector := binanceLiveBookTicker symbol
  symbolId := symbolId

def runCoinbaseStream (product : List UInt8) (symbolId : SymbolId) : StreamTask where
  connector := coinbaseLiveTicker product
  symbolId := symbolId

def runHyperliquidStream (coin : List UInt8) (symbolId : SymbolId) : StreamTask where
  connector := hyperliquidLiveL2Book coin
  symbolId := symbolId

abbrev Stream : Type := Fin 9

/-- The threads in the order in which they are started. -/
def task : Stream → StreamTask
  | 0 => runBinanceStream (ascii "btcusdt") 1
  | 1 => runBinanceStream (ascii "ethusdt") 2
  | 2 => runBinanceStream (ascii "solusdt") 3
  | 3 => runCoinbaseStream (ascii "BTC-USD") 1
  | 4 => runCoinbaseStream (ascii "ETH-USD") 2
  | 5 => runCoinbaseStream (ascii "SOL-USD") 3
  | 6 => runHyperliquidStream (ascii "BTC") 1
  | 7 => runHyperliquidStream (ascii "ETH") 2
  | 8 => runHyperliquidStream (ascii "SOL") 3

def routerLimits : KillSwitchLimits where
  maxRoutesPerRun := 1000000
  maxRejectsPerRun := 100
  maxGatewayDisconnects := 5

/-- A thread in its loop: the frames it has not read, and how many updates it has
received. -/
structure Thread where
  frames : List Frame
  received : Nat := 0
  deriving DecidableEq, Repr

namespace Thread

/-- A thread whose connection fails has nothing to read. -/
def opened (task : StreamTask) (client : WssClient) : Thread where
  frames := if task.connector.opens client then client.frames else []

/-- The loop has ended. -/
def Ended (maxUpdates : Nat) (thread : Thread) : Prop :=
  thread.frames = [] ∨ ¬ (maxUpdates = 0 ∨ thread.received < maxUpdates)

instance (maxUpdates : Nat) (thread : Thread) : Decidable (thread.Ended maxUpdates) :=
  inferInstanceAs (Decidable (_ ∨ _))

/-- One round of the loop, and the update that goes to the callback. -/
def round (maxUpdates : Nat) (task : StreamTask) (thread : Thread) :
    Thread × Option NormalizedMarketData :=
  match thread.frames with
  | [] => (thread, none)
  | frame :: frames =>
      if maxUpdates = 0 ∨ thread.received < maxUpdates then
        match task.connector.normalize task.symbolId frame with
        | none => ({ thread with frames := frames }, none)
        | some md => ({ frames := frames, received := thread.received + 1 }, some md)
      else (thread, none)

/-- The updates that the rest of the loop makes. -/
def waiting (maxUpdates : Nat) (task : StreamTask) (thread : Thread) :
    List NormalizedMarketData :=
  let updates := task.connector.updates task.symbolId thread.frames
  if maxUpdates = 0 then updates else updates.take (maxUpdates - thread.received)

theorem waiting_opened (maxUpdates : Nat) (task : StreamTask) (client : WssClient) :
    (opened task client).waiting maxUpdates task =
      task.connector.handed client task.symbolId maxUpdates := by
  unfold waiting opened LiveConnector.handed
  cases task.connector.opens client <;> simp [LiveConnector.updates]

theorem waiting_ended (maxUpdates : Nat) (task : StreamTask) (thread : Thread)
    (ended : thread.Ended maxUpdates) : thread.waiting maxUpdates task = [] := by
  rcases ended with empty | enough
  · simp [waiting, empty, LiveConnector.updates]
  · have none : maxUpdates - thread.received = 0 := by omega
    have bounded : maxUpdates ≠ 0 := by omega
    simp [waiting, bounded, none]

/-- A round hands out the first update that is waiting, or none and none is lost. -/
theorem round_waiting (maxUpdates : Nat) (task : StreamTask) (thread : Thread) :
    thread.waiting maxUpdates task =
      (thread.round maxUpdates task).2.toList ++
        (thread.round maxUpdates task).1.waiting maxUpdates task := by
  unfold round
  cases unread : thread.frames with
  | nil => rfl
  | cons frame frames =>
      dsimp only
      by_cases more : maxUpdates = 0 ∨ thread.received < maxUpdates
      · rw [if_pos more]
        cases normalized : task.connector.normalize task.symbolId frame with
        | none => simp [waiting, unread, LiveConnector.updates, normalized]
        | some md =>
            by_cases unbounded : maxUpdates = 0
            · simp [waiting, unread, LiveConnector.updates, normalized, unbounded]
            · have split : maxUpdates - thread.received =
                  maxUpdates - (thread.received + 1) + 1 := by omega
              simp [waiting, unread, LiveConnector.updates, normalized, unbounded, split]
      · rw [if_neg more]
        rfl

end Thread

/-- A thread gets its turn, with what surrounds the call that it may make. The
update of the call is the thread's. -/
structure Turn where
  stream : Stream
  call : Call

/-- One round of one thread. The outputs are the calls of `process_update`. -/
def advance (maxUpdates : Nat) (threads : Stream → Thread) (turn : Turn) :
    (Stream → Thread) × List Call :=
  let (thread, handed) := (threads turn.stream).round maxUpdates (task turn.stream)
  (Function.update threads turn.stream thread,
    handed.toList.map fun md => { turn.call with md := md })

def opened (clients : Stream → WssClient) (stream : Stream) : Thread :=
  Thread.opened (task stream) (clients stream)

/-- The calls of a run, in the order in which the mutex is taken. -/
def callsOf (maxUpdates : Nat) (clients : Stream → WssClient) (turns : List Turn) : List Call :=
  Transducer.emitted (advance maxUpdates) (opened clients) turns

/-- What is left of the threads after a run. -/
def threadsAfter (maxUpdates : Nat) (clients : Stream → WssClient) (turns : List Turn) :
    Stream → Thread :=
  Transducer.after (advance maxUpdates) (opened clients) turns

/-- The shared state after a run. -/
def sharedAfter (maxUpdates : Nat) (before : List JournalEntry) (clients : Stream → WssClient)
    (turns : List Turn) : SharedState :=
  Transducer.after processUpdate (started routerLimits before) (callsOf maxUpdates clients turns)

/-- One thread alone, on a router. -/
def runStream (maxUpdates : Nat) (clients : Stream → WssClient) (router : MultiVenueRouter)
    (stream : Stream) : MultiVenueRouter :=
  ((task stream).connector.run (clients stream) (task stream).symbolId maxUpdates
    (fun router md => (router.update md).1) router).1

/-- The updates that a thread hands out in its life. -/
def handedBy (maxUpdates : Nat) (clients : Stream → WssClient) (stream : Stream) :
    List NormalizedMarketData :=
  (task stream).connector.handed (clients stream) (task stream).symbolId maxUpdates

/-! ### The order of the calls -/

/-- The book that a stream writes. -/
def bookKey (stream : Stream) : VenueBookKey where
  venue := match (task stream).connector.normalizer with
    | .binanceBookTicker => .binance
    | .coinbaseTicker => .coinbase
    | .polygonQuote => .polygon
    | .hyperliquidL2Book => .hyperliquid
  symbolId := (task stream).symbolId

/-- No two threads write the same book. -/
theorem bookKey_injective : Function.Injective bookKey := by decide

theorem normalize_key {venue : MarketDataVenue} {symbolId : SymbolId}
    {sendTsNs recvTsNs : TimestampNs} {found : Option QuoteFields} {md : NormalizedMarketData}
    (built : found.bind (QuoteFields.normalize venue symbolId sendTsNs recvTsNs) = some md) :
    MultiVenueRouter.keyOf md = ⟨venue, symbolId⟩ := by
  have ⟨texts, _, built⟩ := Option.bind_eq_some_iff.mp built
  have ⟨sequence, _, same⟩ := Option.map_eq_some_iff.mp built
  rw [← same]
  rfl

theorem handed_key (maxUpdates : Nat) (clients : Stream → WssClient) (stream : Stream)
    (md : NormalizedMarketData) (member : md ∈ handedBy maxUpdates clients stream) :
    MultiVenueRouter.keyOf md = bookKey stream := by
  have listed : md ∈ (task stream).connector.updates (task stream).symbolId
      (clients stream).frames := by
    unfold handedBy LiveConnector.handed at member
    split at member
    · cases member
    · dsimp only at member
      split at member
      · exact member
      · exact List.mem_of_mem_take member
  have ⟨frame, _, normalized⟩ := List.mem_filterMap.mp listed
  unfold LiveConnector.normalize JsonNormalizer.run at normalized
  unfold bookKey
  generalize (task stream).connector.normalizer = normalizer at normalized ⊢
  cases normalizer with
  | binanceBookTicker => exact normalize_key normalized
  | coinbaseTicker => exact normalize_key normalized
  | polygonQuote => exact normalize_key normalized
  | hyperliquidL2Book => exact normalize_key normalized

/-- The threads take the updates that are waiting for them in some order. -/
theorem emitted_taken (maxUpdates : Nat) (turns : List Turn) (threads : Stream → Thread) :
    ∃ picks : List Stream,
      (Transducer.emitted (advance maxUpdates) threads turns).map Call.md =
          Streams.taken (fun stream => (threads stream).waiting maxUpdates (task stream)) picks ∧
        (fun stream => (Transducer.after (advance maxUpdates) threads turns stream).waiting
            maxUpdates (task stream)) =
          Streams.left (fun stream => (threads stream).waiting maxUpdates (task stream)) picks := by
  induction turns generalizing threads with
  | nil => exact ⟨[], rfl, rfl⟩
  | cons turn turns ih =>
      have ⟨picks, order, rest⟩ := ih (advance maxUpdates threads turn).1
      have round := (threads turn.stream).round_waiting maxUpdates (task turn.stream)
      have next : (fun stream => ((advance maxUpdates threads turn).1 stream).waiting maxUpdates
            (task stream)) =
          Function.update (fun stream => (threads stream).waiting maxUpdates (task stream))
            turn.stream
            (((threads turn.stream).round maxUpdates (task turn.stream)).1.waiting maxUpdates
              (task turn.stream)) := by
        funext stream
        by_cases own : stream = turn.stream
        · subst own
          simp [advance]
        · simp [advance, own]
      rw [Transducer.emitted_cons, Transducer.after_cons, List.map_append, order, rest, next]
      cases handed : ((threads turn.stream).round maxUpdates (task turn.stream)).2 with
      | none =>
          refine ⟨picks, ?_⟩
          rw [handed, Option.toList_none, List.nil_append] at round
          have same : Function.update
              (fun stream => (threads stream).waiting maxUpdates (task stream)) turn.stream
                (((threads turn.stream).round maxUpdates (task turn.stream)).1.waiting maxUpdates
                  (task turn.stream)) =
              fun stream => (threads stream).waiting maxUpdates (task stream) := by
            rw [← round]
            exact Function.update_eq_self _ _
          rw [same]
          simp [advance, handed]
      | some md =>
          refine ⟨turn.stream :: picks, ?_⟩
          rw [handed, Option.toList_some, List.singleton_append] at round
          rw [Streams.taken, Streams.left, round]
          simp [advance, handed]

theorem mem_emitted {maxUpdates : Nat} {turns : List Turn} {threads : Stream → Thread}
    {call : Call} (member : call ∈ Transducer.emitted (advance maxUpdates) threads turns) :
    ∃ turn ∈ turns, ∃ md, call = { turn.call with md := md } := by
  induction turns generalizing threads with
  | nil => cases member
  | cons turn turns ih =>
      rw [Transducer.emitted_cons, List.mem_append] at member
      rcases member with here | later
      · have ⟨md, _, same⟩ := List.mem_map.mp here
        exact ⟨turn, List.mem_cons_self, md, same.symm⟩
      · have ⟨other, listed, same⟩ := ih later
        exact ⟨other, List.mem_cons_of_mem _ listed, same⟩

/-! ### The state behind the mutex -/

/-- The router has heard a history, its valid updates are counted, both counters of
routes count two for each of them, and trading goes on. -/
structure Steady (limits : KillSwitchLimits) (state : SharedState)
    (history : List NormalizedMarketData) : Prop where
  counts : Counts limits state (2 * history.countP MultiVenueRouter.Accepted)
  updatesSeen : state.updatesSeen = UInt64.ofNat (history.countP MultiVenueRouter.Accepted)
  router : state.router = MultiVenueRouter.replay history
  enabled : state.killSwitch.state.tradingEnabled = true

theorem processUpdate_steady (limits : KillSwitchLimits) (state : SharedState) (call : Call)
    (history : List NormalizedMarketData) (steady : Steady limits state history)
    (running : call.haltFile = false)
    (within : 2 * (history ++ [call.md]).countP MultiVenueRouter.Accepted ≤
      limits.maxRoutesPerRun.toNat) :
    Steady limits (processUpdate state call).1 (history ++ [call.md]) := by
  have counts := processUpdate_counts limits state call _ steady.counts
  have poll : (polled state call).state.tradingEnabled = true := by
    rw [polled, (state.killSwitch.tradingEnabled_eq call.haltFile call.halted).2, steady.enabled,
      running]
    rfl
  rw [List.countP_append] at within
  by_cases accepted : MultiVenueRouter.Accepted call.md
  · have taken : Taken state call := ⟨poll, accepted⟩
    have one : [call.md].countP MultiVenueRouter.Accepted = 1 := by simp [accepted]
    rw [one] at within
    obtain ⟨heard, killSwitch, -, buy, sell, outputs, -⟩ :=
      processUpdate_routes state call history steady.router taken
    have polledLimits : (polled state call).limits = limits :=
      (KillSwitch.tradingEnabled_limits _ _ _).trans steady.counts.limits
    have polledCounter := (KillSwitch.tradingEnabled_routesSeen state.killSwitch call.haltFile
      call.halted).trans steady.counts.counter
    have first := counter_le (2 * history.countP MultiVenueRouter.Accepted + 1)
      limits.maxRoutesPerRun (by omega)
    have second := counter_le (2 * history.countP MultiVenueRouter.Accepted + 1 + 1)
      limits.maxRoutesPerRun (by omega)
    refine ⟨?_, ?_, heard, ?_⟩
    · rw [outputs] at counts
      rw [List.countP_append, one, Nat.mul_add]
      exact counts
    · rw [processUpdate_updatesSeen state call taken, steady.updatesSeen, counter_succ,
        List.countP_append, one]
    · rw [killSwitch, KillSwitch.onRoute_enabled, KillSwitch.onRoute_enabled,
        KillSwitch.onRoute_routesSeen, KillSwitch.onRoute_limits, polledLimits, poll]
      have counter : (polled state call).state.routesSeen =
        UInt64.ofNat (2 * history.countP MultiVenueRouter.Accepted) := polledCounter
      rw [counter, counter_succ, counter_succ, decide_eq_true first, decide_eq_true second]
      rfl
  · obtain ⟨outputs, heard, killSwitch, -, updatesSeen, -⟩ :=
      processUpdate_silent state call fun taken => accepted taken.2
    have none : [call.md].countP MultiVenueRouter.Accepted = 0 := by simp [accepted]
    refine ⟨?_, ?_, ?_, killSwitch ▸ poll⟩
    · rw [outputs] at counts
      rw [List.countP_append, none]
      exact counts
    · rw [updatesSeen, steady.updatesSeen, List.countP_append, none, Nat.add_zero]
    · rw [heard, steady.router, MultiVenueRouter.replay_concat,
        MultiVenueRouter.update_rejected _ _ accepted]

theorem after_steady (limits : KillSwitchLimits) (before : List JournalEntry)
    (calls : List Call) (running : ∀ call ∈ calls, call.haltFile = false)
    (within : 2 * (calls.map Call.md).countP MultiVenueRouter.Accepted ≤
      limits.maxRoutesPerRun.toNat) :
    Steady limits (Transducer.after processUpdate (started limits before) calls)
      (calls.map Call.md) := by
  induction calls using List.reverseRecOn with
  | nil => exact ⟨⟨⟨[], rfl⟩, rfl, rfl, rfl⟩, rfl, rfl, rfl⟩
  | append_singleton calls call ih =>
      rw [List.map_append, List.map_singleton] at within ⊢
      have fewer : (calls.map Call.md).countP MultiVenueRouter.Accepted ≤
          (calls.map Call.md ++ [call.md]).countP MultiVenueRouter.Accepted := by
        rw [List.countP_append]
        omega
      have steady := ih (fun earlier member => running earlier (by simp [member])) (by omega)
      rw [Transducer.after_concat]
      exact processUpdate_steady limits _ call _ steady (running call (by simp)) within

/-! ### One after the other -/

theorem replay_append (history more : List NormalizedMarketData) :
    more.foldl (fun router md => (router.update md).1) (MultiVenueRouter.replay history) =
      MultiVenueRouter.replay (history ++ more) := by
  rw [MultiVenueRouter.replay, MultiVenueRouter.replay, List.foldl_append]

theorem foldl_runStream (maxUpdates : Nat) (clients : Stream → WssClient) (all : List Stream)
    (history : List NormalizedMarketData) :
    all.foldl (runStream maxUpdates clients) (MultiVenueRouter.replay history) =
      MultiVenueRouter.replay (history ++ all.flatMap (handedBy maxUpdates clients)) := by
  induction all generalizing history with
  | nil => rw [List.flatMap_nil, List.append_nil, List.foldl_nil]
  | cons stream all ih =>
      rw [List.foldl_cons, runStream, LiveConnector.run_handed, replay_append, ih,
        List.flatMap_cons, ← List.append_assoc]
      rfl

/-- The quotes depend on the order of the updates of each book only. -/
theorem quote_books (history history' : List NormalizedMarketData)
    (books : ∀ key, history.filter (fun md => MultiVenueRouter.keyOf md = key) =
      history'.filter fun md => MultiVenueRouter.keyOf md = key) (key : VenueBookKey) :
    MultiVenueRouter.quote history key = MultiVenueRouter.quote history' key := by
  have split : ∀ updates : List NormalizedMarketData, MultiVenueRouter.latest updates key =
      ((updates.filter fun md => MultiVenueRouter.keyOf md = key).filter fun md =>
        MultiVenueRouter.Accepted md).getLast? := by
    intro updates
    rw [MultiVenueRouter.latest, List.filter_filter]
    congr 2
    funext md
    cases key
    simp [MultiVenueRouter.keyOf]
  rw [MultiVenueRouter.quote, MultiVenueRouter.quote, split, split, books]

/-- Whatever the schedule of the nine threads, once they have all ended the shared
router routes as one on which they have run one after the other, in any order,
up to the choice among venues with the best price. As long as two routes for each
valid update stay within the limit of the run, trading goes on and all of them
are counted. -/
theorem streams_route_serially (maxUpdates : Nat) (before : List JournalEntry)
    (clients : Stream → WssClient) (turns : List Turn) (all : List Stream)
    (once : all.Nodup) (complete : ∀ stream, stream ∈ all)
    (running : ∀ turn ∈ turns, turn.call.haltFile = false)
    (ended : ∀ stream, (threadsAfter maxUpdates clients turns stream).Ended maxUpdates)
    (within : 2 * (all.flatMap (handedBy maxUpdates clients)).countP MultiVenueRouter.Accepted ≤
      routerLimits.maxRoutesPerRun.toNat) :
    let final := sharedAfter maxUpdates before clients turns
    let updates := all.flatMap (handedBy maxUpdates clients)
    MultiVenueRouter.Alike (all.foldl (runStream maxUpdates clients) {}) final.router updates ∧
      final.killSwitch.state.tradingEnabled = true ∧
      final.updatesSeen.toNat = updates.countP MultiVenueRouter.Accepted ∧
      final.routesSeen.toNat = 2 * updates.countP MultiVenueRouter.Accepted := by
  intro final updates
  have handed : (fun stream => (opened clients stream).waiting maxUpdates (task stream)) =
      handedBy maxUpdates clients := by
    funext stream
    exact Thread.waiting_opened maxUpdates (task stream) (clients stream)
  have ⟨picks, order, rest⟩ := emitted_taken maxUpdates turns (opened clients)
  rw [handed] at order rest
  have finished : ∀ stream, Streams.left (handedBy maxUpdates clients) picks stream = [] := by
    intro stream
    rw [← rest]
    exact Thread.waiting_ended maxUpdates (task stream) _ (ended stream)
  have perm : ((callsOf maxUpdates clients turns).map Call.md).Perm updates := by
    have kept := Streams.taken_perm all once complete picks (handedBy maxUpdates clients)
    rw [List.flatMap_eq_nil_iff.mpr fun stream _ => finished stream, List.append_nil] at kept
    rw [callsOf, order]
    exact kept
  have count := perm.countP_eq fun md => decide (MultiVenueRouter.Accepted md)
  have steady : Steady routerLimits final ((callsOf maxUpdates clients turns).map Call.md) := by
    apply after_steady
    · intro call member
      have ⟨turn, listed, md, same⟩ := mem_emitted member
      rw [same]
      exact running turn listed
    · rw [count]
      exact within
  have quotes : ∀ key, MultiVenueRouter.quote updates key =
      MultiVenueRouter.quote ((callsOf maxUpdates clients turns).map Call.md) key := by
    intro key
    apply quote_books
    intro key
    rw [callsOf, order]
    exact (Streams.filter_finished MultiVenueRouter.keyOf bookKey bookKey_injective all once
      complete picks _ (handed_key maxUpdates clients) finished key).symm
  have serial : all.foldl (runStream maxUpdates clients) {} = MultiVenueRouter.replay updates :=
    foldl_runStream maxUpdates clients all []
  have bounded : 2 * updates.countP MultiVenueRouter.Accepted < 2 ^ 64 :=
    Nat.lt_of_le_of_lt within routerLimits.maxRoutesPerRun.toNat_lt
  refine ⟨?_, steady.enabled, ?_, ?_⟩
  · rw [serial, steady.router]
    exact MultiVenueRouter.replay_alike _ _ quotes
  · rw [steady.updatesSeen, count]
    apply UInt64.toNat_ofNat_of_lt'
    show updates.countP MultiVenueRouter.Accepted < 2 ^ 64
    omega
  · rw [steady.counts.routesSeen, count]
    exact UInt64.toNat_ofNat_of_lt' bounded

/-- A ticker of another venue, with a better ask. -/
def coinbaseClient : WssClient where
  frames :=
    [{ raw := ascii "\x7b\"sequence\":12,\"product_id\":\"BTC-USD\"," ++
        ascii "\"best_bid\":\"99.90\",\"best_bid_size\":\"1\"," ++
        ascii "\"best_ask\":\"100.03\",\"best_ask_size\":\"2\"\x7d" }]

/-- Two venues for the first symbol; the other threads do not connect. -/
def twoClients (stream : Stream) : WssClient :=
  if stream = 0 then twoTickers
  else if stream = 3 then coinbaseClient
  else { connects := false, frames := [] }

def twoTurns : List Turn :=
  [0, 3, 1, 0, 3, 0].map fun stream => { stream := stream, call := onlyCall }

/-- Three updates, six routes, and in the end each side has one best venue. -/
theorem streams_route_serially_twoClients :
    let final := sharedAfter 0 [] twoClients twoTurns
    let updates := (List.finRange 9).flatMap (handedBy 0 twoClients)
    MultiVenueRouter.Alike ((List.finRange 9).foldl (runStream 0 twoClients) {}) final.router
        updates ∧
      final.killSwitch.state.tradingEnabled = true ∧
      final.updatesSeen.toNat = 3 ∧ final.routesSeen.toNat = 6 ∧
      (MultiVenueRouter.routeSignal .stored final.router { symbolId := 1, side := .buy }).venue =
        .coinbase ∧
      (MultiVenueRouter.routeSignal .stored final.router { symbolId := 1, side := .sell }).venue =
        .binance := by
  have ran := streams_route_serially 0 [] twoClients twoTurns (List.finRange 9)
    (List.nodup_finRange 9) List.mem_finRange (by decide) (by decide +kernel) (by decide +kernel)
  have three : ((List.finRange 9).flatMap (handedBy 0 twoClients)).countP
      MultiVenueRouter.Accepted = 3 := by decide +kernel
  obtain ⟨alike, enabled, updatesSeen, routesSeen⟩ := ran
  rw [three] at updatesSeen routesSeen
  exact ⟨alike, enabled, updatesSeen, routesSeen, by decide +kernel, by decide +kernel⟩

end LiveRouter
end TradingPlatform
