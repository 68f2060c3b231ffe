import TradingPlatform.LiveMultiVenueRouter

set_option autoImplicit false

/- The log of the live router: its replay file and its journal hold the same
envelopes, and every route in them follows from the quotes before it. -/
namespace TradingPlatform
namespace LiveRouter

open Router (MultiVenueRouter)

/-! ### Routes recomputed from a log -/

/-- The last `MarketData` event of a source node for a symbol. -/
def lastQuote (log : List Envelope) (sourceNode : NodeId) (symbolId : SymbolId) :
    Option MarketDataUpdate :=
  ((log.filterMap Envelope.marketData?).filter fun update =>
    update.header.sourceNode = sourceNode ∧ update.symbolId = symbolId).getLast?

/-- The asks of the last events of all source nodes for a symbol. -/
def loggedAsks (log : List Envelope) (symbolId : SymbolId) : Set Int :=
  { price | ∃ node update, lastQuote log node symbolId = some update ∧
    update.askPx.toInt = price }

/-- The bids of the last events of all source nodes for a symbol. -/
def loggedBids (log : List Envelope) (symbolId : SymbolId) : Set Int :=
  { price | ∃ node update, lastQuote log node symbolId = some update ∧
    update.bidPx.toInt = price }

/-- Logs made of updates, each with a buy and a sell signal for its symbol right
behind it, at the least ask and the greatest bid among the last events before. -/
inductive Explained : List Envelope → Prop
  | nil : Explained []
  | round (log : List Envelope) (update : MarketDataUpdate) (buy sell : Signal)
      (before : Explained log)
      (buySide : buy.side = .buy) (buySymbol : buy.symbolId = update.symbolId)
      (buyLimit : IsLeast (loggedAsks (log ++ [.marketData update]) buy.symbolId)
        buy.limitPx.toInt)
      (sellSide : sell.side = .sell) (sellSymbol : sell.symbolId = update.symbolId)
      (sellLimit : IsGreatest (loggedBids (log ++ [.marketData update, .signal buy])
        sell.symbolId) sell.limitPx.toInt) :
      Explained (log ++ [.marketData update, .signal buy, .signal sell])

/-! ### The two files -/

/-- Both files hold a log with sequences from 1 on, the journal behind the
entries that were there before. -/
structure Recorded (before : List JournalEntry) (replayWriter : ReplayLog) (replaySeq : Sequence)
    (journal : JournalLog) (journalSeq : Sequence) (log : List Envelope) : Prop where
  replayOpened : replayWriter.opened = true
  envelopes : replayWriter.envelopes = log
  sequences : replayWriter.events.map (fun event => event.header.sequence) =
    (List.range' 1 log.length).map UInt64.ofNat
  replaySeq : replaySeq = log.length
  journalOpened : journal.opened = true
  entries : ∃ added, journal.entries = before ++ added ∧
    added.map JournalEntry.envelope = log ∧
    added.map JournalEntry.sequence = List.range' 1 log.length
  journalSeq : journalSeq = log.length

def SharedState.Records (state : SharedState) (before : List JournalEntry)
    (log : List Envelope) : Prop :=
  Recorded before state.replayWriter state.replaySeq state.journal state.journalSeq log

/-- Both appends of a pair succeed. -/
def WriteIo.Succeeds (io : WriteIo) : Prop := io.replay.writes = true ∧ io.journal.writes = true

/-- All the appends of a call succeed. -/
def Call.Writes (call : Call) : Prop :=
  call.write.Succeeds ∧ call.buy.write.Succeeds ∧ call.sell.write.Succeeds

theorem write_records (state : SharedState) (before : List JournalEntry) (log : List Envelope)
    (io : WriteIo) (env : Envelope) (records : state.Records before log) (succeeds : io.Succeeds)
    (supported : Wire.payloadSizeForType env.type.code ≠ 0) :
    (state.write io env).Records before (log ++ [env]) := by
  obtain ⟨added, entries, envelopes, sequences⟩ := records.entries
  have works : state.journal.Writes io.journal := ⟨Or.inl records.journalOpened, succeeds.2⟩
  have journal : (state.write io env).journal.entries =
      state.journal.entries ++ [⟨.runtimeMarker, env, log.length + 1, io.journal.now⟩] := by
    have appended := (JournalLog.append_entries state.journal io.journal .runtimeMarker env
      (state.journalSeq + 1) supported).1
    rw [if_pos works, records.journalSeq] at appended
    have written : (state.write io env).journal.entries =
        (state.journal.append io.journal .runtimeMarker env (log.length + 1)).1.entries := by
      rw [← records.journalSeq]
      rfl
    exact written.trans appended
  have replay : (state.write io env).replayWriter.events =
      state.replayWriter.events ++
        [state.replayWriter.eventFor env (log.length + 1) io.replay.now] := by
    have appended := congrArg (fun result => result.1.events)
      (ReplayLog.append_writes state.replayWriter io.replay env (state.replaySeq + 1)
        records.replayOpened succeeds.1)
    rw [records.replaySeq] at appended
    have written : (state.write io env).replayWriter.events =
        (state.replayWriter.append io.replay env (log.length + 1)).1.events := by
      rw [← records.replaySeq]
      rfl
    exact written.trans appended
  have longer : (log ++ [env]).length = log.length + 1 := by simp
  constructor
  · exact (state.replayWriter.record_opened state.metrics io.replay env (state.replaySeq + 1)).trans
      records.replayOpened
  · rw [ReplayLog.envelopes, replay, List.map_append]
    exact congrArg (· ++ [env]) records.envelopes
  · rw [replay, List.map_append, records.sequences, longer, sequences_succ, List.map_append]
    rfl
  · rw [longer, ← records.replaySeq]
    rfl
  · exact JournalLog.append_opened state.journal io.journal .runtimeMarker env
      (state.journalSeq + 1) records.journalOpened
  · refine ⟨added ++ [⟨.runtimeMarker, env, log.length + 1, io.journal.now⟩], ?_, ?_, ?_⟩
    · rw [journal, entries, List.append_assoc]
    · rw [List.map_append, envelopes]
      rfl
    · rw [List.map_append, sequences, longer, sequences_succ]
      rfl
  · rw [longer, ← records.journalSeq]
    rfl

theorem route_records (state : SharedState) (before : List JournalEntry) (log : List Envelope)
    (io : RouteIo) (decision : Router.RouteDecision) (records : state.Records before log)
    (succeeds : io.write.Succeeds) :
    (state.route io decision).1.Records before (log ++ (state.route io decision).2) := by
  unfold SharedState.route
  cases decision.routeable with
  | false => simpa using records
  | true =>
      have supported : Wire.payloadSizeForType MsgType.signal.code ≠ 0 := by decide
      exact write_records
        { state with
          killSwitch := state.killSwitch.onRoute io.triggered
          metrics := state.metrics.increment .signalsGenerated
          signalSeq := state.signalSeq + 1 }
        before log io.write (makeRouteSignalEnv decision (state.signalSeq + 1) io.sent)
        records succeeds supported

/-- Whatever a call emits is what it adds to both files. -/
theorem processUpdate_records (state : SharedState) (before : List JournalEntry)
    (log : List Envelope) (call : Call) (records : state.Records before log)
    (writes : call.Writes) :
    (processUpdate state call).1.Records before (log ++ (processUpdate state call).2) := by
  by_cases taken : Taken state call
  · have supported : Wire.payloadSizeForType MsgType.marketData.code ≠ 0 := by decide
    rw [processUpdate_taken state call taken]
    have update := write_records
      { state with
        killSwitch := polled state call
        metrics := state.metrics.increment .marketDataReceived
        latencies :=
          if call.md.update.header.recvTsNs > 0 ∧ call.now ≥ call.md.update.header.recvTsNs then
            state.latencies ++ [call.now - call.md.update.header.recvTsNs]
          else state.latencies
        router := (state.router.update call.md).1 }
      before log call.write (makeMarketDataEnv call.md.update) records writes.1
      supported
    have bought := route_records (marked state call) before _ call.buy
      ((marked state call).router.routeSignal call.order (probe call.md.update .buy))
      update writes.2.1
    have sold := route_records _ before _ call.sell
      ((marked state call).router.routeSignal call.order (probe call.md.update .sell))
      bought writes.2.2
    simpa using sold
  · obtain ⟨outputs, -, -, -, -, replayWriter, replaySeq, journal, journalSeq, -⟩ :=
      processUpdate_silent state call taken
    rw [outputs, List.append_nil, SharedState.Records, replayWriter, replaySeq, journal,
      journalSeq]
    exact records

/-! ### The router and its log -/

/-- A log tells of the updates a router has heard: each was valid and carries its
venue as the source node. -/
structure Hears (log : List Envelope) (history : List NormalizedMarketData) : Prop where
  updates : log.filterMap Envelope.marketData? = history.map NormalizedMarketData.update
  accepted : ∀ md ∈ history, MultiVenueRouter.Accepted md
  sourceNode : ∀ md ∈ history, md.update.header.sourceNode = md.venue.code

theorem Hears.lastQuote_eq {log : List Envelope} {history : List NormalizedMarketData}
    (hears : Hears log history) (venue : MarketDataVenue) (symbolId : SymbolId) :
    lastQuote log venue.code symbolId =
      (MultiVenueRouter.latest history ⟨venue, symbolId⟩).map NormalizedMarketData.update := by
  rw [lastQuote, hears.updates, List.filter_map, List.getLast?_map, MultiVenueRouter.latest]
  congr 2
  apply List.filter_congr
  intro md member
  have accepted := hears.accepted md member
  have same : md.venue.code = venue.code ↔ md.venue = venue :=
    MarketDataVenue.code_injective.eq_iff
  simp [hears.sourceNode md member, accepted, same]

/-- The last events per source node are the quotes of the venues. -/
theorem Hears.lastQuotes {log : List Envelope} {history : List NormalizedMarketData}
    (hears : Hears log history) (symbolId : SymbolId) (shows : MarketDataUpdate → Prop) :
    (∃ node update, lastQuote log node symbolId = some update ∧ shows update) ↔
      ∃ venue md, MultiVenueRouter.latest history ⟨venue, symbolId⟩ = some md ∧
        shows md.update := by
  constructor
  · rintro ⟨node, update, last, holds⟩
    have member := List.mem_filter.mp (List.mem_of_getLast? last)
    rw [hears.updates] at member
    obtain ⟨md, heard, rfl⟩ := List.mem_map.mp member.1
    have source : md.venue.code = node := by
      have selected := of_decide_eq_true member.2
      rw [← hears.sourceNode md heard]
      exact selected.1
    rw [← source, hears.lastQuote_eq] at last
    obtain ⟨latest, shown, same⟩ := Option.map_eq_some_iff.mp last
    exact ⟨md.venue, latest, shown, same ▸ holds⟩
  · rintro ⟨venue, md, latest, holds⟩
    refine ⟨venue.code, md.update, ?_, holds⟩
    rw [hears.lastQuote_eq, latest]
    rfl

theorem Hears.asks {log : List Envelope} {history : List NormalizedMarketData}
    (hears : Hears log history) (symbolId : SymbolId) :
    loggedAsks log symbolId = MultiVenueRouter.asks history symbolId := by
  apply Set.ext
  intro price
  exact hears.lastQuotes symbolId fun update => update.askPx.toInt = price

theorem Hears.bids {log : List Envelope} {history : List NormalizedMarketData}
    (hears : Hears log history) (symbolId : SymbolId) :
    loggedBids log symbolId = MultiVenueRouter.bids history symbolId := by
  apply Set.ext
  intro price
  exact hears.lastQuotes symbolId fun update => update.bidPx.toInt = price

/-- The log grows by a round of `md` or by signals. -/
theorem Hears.grow {log : List Envelope} {history : List NormalizedMarketData}
    (hears : Hears log history) (md : NormalizedMarketData)
    (accepted : MultiVenueRouter.Accepted md) (built : Normalized md) (signals : List Signal) :
    Hears (log ++ .marketData md.update :: signals.map .signal) (history ++ [md]) := by
  have silent : (signals.map Envelope.signal).filterMap Envelope.marketData? = [] := by
    rw [List.filterMap_map]
    exact List.filterMap_eq_nil_iff.mpr fun _ _ => rfl
  constructor
  · have round : (.marketData md.update :: signals.map Envelope.signal).filterMap
        Envelope.marketData? = [md.update] := congrArg (List.cons md.update) silent
    rw [List.filterMap_append, round, hears.updates, List.map_append]
    rfl
  · rw [List.forall_mem_append, List.forall_mem_singleton]
    exact ⟨hears.accepted, accepted⟩
  · rw [List.forall_mem_append, List.forall_mem_singleton]
    exact ⟨hears.sourceNode, built.sourceNode⟩

/-- The router stands where its log has brought it. -/
structure Follows (router : MultiVenueRouter) (log : List Envelope) : Prop where
  router : ∃ history, router = MultiVenueRouter.replay history ∧ Hears log history
  explained : Explained log

theorem processUpdate_follows (state : SharedState) (log : List Envelope) (call : Call)
    (follows : Follows state.router log) (built : Normalized call.md) :
    Follows (processUpdate state call).1.router (log ++ (processUpdate state call).2) := by
  obtain ⟨history, router, hears⟩ := follows.router
  by_cases taken : Taken state call
  · obtain ⟨next, -, -, buy, sell, outputs, buySide, buySymbol, buyLimit, sellSide, sellSymbol,
      sellLimit⟩ := processUpdate_routes state call history router taken
    rw [outputs]
    refine ⟨⟨_, next, hears.grow call.md taken.2 built [buy, sell]⟩, ?_⟩
    have asked : Hears (log ++ [.marketData call.md.update]) (history ++ [call.md]) :=
      hears.grow call.md taken.2 built []
    have bid : Hears (log ++ [.marketData call.md.update, .signal buy]) (history ++ [call.md]) :=
      hears.grow call.md taken.2 built [buy]
    apply Explained.round log call.md.update buy sell follows.explained buySide buySymbol
    · rw [asked.asks, buySymbol]
      exact buyLimit
    · exact sellSide
    · exact sellSymbol
    · rw [bid.bids, sellSymbol]
      exact sellLimit
  · obtain ⟨outputs, same, -⟩ := processUpdate_silent state call taken
    rw [outputs, List.append_nil, same]
    exact follows

/-! ### Updates taken -/

/-- The update of a call that passes the kill switch and the router. -/
def heard (state : SharedState) (call : Call) : List MarketDataUpdate :=
  let (_, enabled) := state.killSwitch.tradingEnabled call.haltFile call.halted
  let (_, accepted) := state.router.update call.md
  if enabled && accepted then [call.md.update] else []

theorem heard_taken (state : SharedState) (call : Call) (taken : Taken state call) :
    heard state call = [call.md.update] := by
  have enabled : (state.killSwitch.tradingEnabled call.haltFile call.halted).2 = true := taken.1
  have accepted := MultiVenueRouter.update_accepted state.router call.md taken.2
  simp [heard, enabled, accepted]

theorem heard_silent (state : SharedState) (call : Call) (silent : ¬ Taken state call) :
    heard state call = [] := by
  unfold heard
  cases enabled : (state.killSwitch.tradingEnabled call.haltFile call.halted).2 with
  | false => simp [enabled]
  | true =>
      have rejected : ¬ MultiVenueRouter.Accepted call.md :=
        fun accepted => silent ⟨enabled, accepted⟩
      simp [enabled, MultiVenueRouter.update_rejected state.router call.md rejected]

/-- The updates in what a run emits are the ones its calls take. -/
theorem emitted_heard (state : SharedState) (history : List NormalizedMarketData)
    (follows : state.router = MultiVenueRouter.replay history) (calls : List Call) :
    (Transducer.emitted processUpdate state calls).filterMap Envelope.marketData? =
      Transducer.translated processUpdate heard state calls := by
  induction calls generalizing state history with
  | nil => rfl
  | cons call calls ih =>
      rw [Transducer.emitted_cons, Transducer.translated, List.filterMap_append]
      by_cases taken : Taken state call
      · obtain ⟨next, -, -, buy, sell, outputs, -⟩ :=
          processUpdate_routes state call history follows taken
        rw [ih _ _ next, outputs, heard_taken state call taken]
        rfl
      · obtain ⟨outputs, same, -⟩ := processUpdate_silent state call taken
        rw [ih _ history (same.trans follows), outputs, heard_silent state call taken]
        rfl

/-! ### Runs -/

/-- Both writers open, the replay file empty, the journal behind earlier entries. -/
def started (limits : KillSwitchLimits) (before : List JournalEntry) : SharedState where
  replayWriter := { nodeRole := .simulator, opened := true }
  journal := { opened := true, entries := before }
  killSwitch := { limits := limits }

/-- In every run with normalized updates and successful writes the replay file and
the journal gain the same envelopes, numbered from 1. They are all that the calls
emit, their updates are the ones the calls take, and the log explains every route
in it. -/
theorem processUpdate_log (limits : KillSwitchLimits) (before : List JournalEntry)
    (calls : List Call) (built : ∀ call ∈ calls, Normalized call.md)
    (writes : ∀ call ∈ calls, call.Writes) :
    let final := Transducer.after processUpdate (started limits before) calls
    ∃ added, final.journal.entries = before ++ added ∧
      added.map JournalEntry.envelope = final.replayWriter.envelopes ∧
      added.map JournalEntry.sequence = List.range' 1 added.length ∧
      final.replayWriter.events.map (fun event => event.header.sequence) =
        (List.range' 1 added.length).map UInt64.ofNat ∧
      final.replayWriter.envelopes =
        Transducer.emitted processUpdate (started limits before) calls ∧
      final.replayWriter.envelopes.filterMap Envelope.marketData? =
        Transducer.translated processUpdate heard (started limits before) calls ∧
      Explained final.replayWriter.envelopes := by
  intro final
  have run : final.Records before (Transducer.emitted processUpdate (started limits before) calls) ∧
      Follows final.router (Transducer.emitted processUpdate (started limits before) calls) := by
    induction calls using List.reverseRecOn with
    | nil =>
        constructor
        · exact ⟨rfl, rfl, rfl, rfl, rfl, ⟨[], by simp [final, started]⟩, rfl⟩
        · exact ⟨⟨[], rfl, rfl, by simp, by simp⟩, .nil⟩
    | append_singleton calls call ih =>
        obtain ⟨records, follows⟩ := ih (fun other member => built other (by simp [member]))
          (fun other member => writes other (by simp [member]))
        have last : call ∈ calls ++ [call] := by simp
        rw [Transducer.emitted_concat]
        constructor
        · have next := processUpdate_records _ before _ call records (writes call last)
          rw [← Transducer.after_concat] at next
          exact next
        · have next := processUpdate_follows _ _ call follows (built call last)
          rw [← Transducer.after_concat] at next
          exact next
  obtain ⟨records, follows⟩ := run
  obtain ⟨added, entries, envelopes, sequences⟩ := records.entries
  have length : added.length =
      (Transducer.emitted processUpdate (started limits before) calls).length := by
    rw [← envelopes, List.length_map]
  rw [← length] at sequences
  rw [records.envelopes, records.sequences, ← length]
  exact ⟨added, entries, envelopes, sequences, rfl, rfl,
    emitted_heard (started limits before) [] rfl calls, follows.explained⟩

/-- A call with a quote of Coinbase, one with a better ask of Binance and one that
the kill switch stops. All writes succeed. -/
def quotedCalls : List Call :=
  [{ md := { venue := .coinbase,
             update := makeUpdate .coinbase 1 [66, 84, 67] 100 1 105 1 7 10 11 }
     order := .stored },
   { md := { venue := .binance,
             update := makeUpdate .binance 1 [66, 84, 67] 99 1 103 1 8 12 13 }
     order := .stored },
   { md := { venue := .binance,
             update := makeUpdate .binance 1 [66, 84, 67] 98 1 102 1 9 14 15 }
     haltFile := true
     order := .stored }]

/-- Side and limit of a signal. -/
def quotedRoute : Envelope → Option (Side × Int)
  | .signal signal => some (signal.side, signal.limitPx.toInt)
  | _ => none

theorem processUpdate_log_quotedCalls :
    let final := Transducer.after processUpdate (started {} []) quotedCalls
    final.replayWriter.envelopes.map Envelope.type =
        [.marketData, .signal, .signal, .marketData, .signal, .signal] ∧
      final.replayWriter.envelopes.filterMap quotedRoute =
        [(.buy, 105), (.sell, 100), (.buy, 103), (.sell, 100)] ∧
      ∃ added, final.journal.entries = [] ++ added ∧
        added.map JournalEntry.envelope = final.replayWriter.envelopes ∧
        added.map JournalEntry.sequence = List.range' 1 added.length ∧
        final.replayWriter.events.map (fun event => event.header.sequence) =
          (List.range' 1 added.length).map UInt64.ofNat ∧
        final.replayWriter.envelopes =
          Transducer.emitted processUpdate (started {} []) quotedCalls ∧
        final.replayWriter.envelopes.filterMap Envelope.marketData? =
          Transducer.translated processUpdate heard (started {} []) quotedCalls ∧
        Explained final.replayWriter.envelopes := by
  refine ⟨by decide +kernel, by decide +kernel, ?_⟩
  apply processUpdate_log {} [] quotedCalls
  · intro call member
    simp only [quotedCalls, List.mem_cons, List.not_mem_nil, or_false] at member
    rcases member with rfl | rfl | rfl
    · exact ⟨1, [66, 84, 67], 100, 1, 105, 1, 7, 10, 11, rfl⟩
    · exact ⟨1, [66, 84, 67], 99, 1, 103, 1, 8, 12, 13, rfl⟩
    · exact ⟨1, [66, 84, 67], 98, 1, 102, 1, 9, 14, 15, rfl⟩
  · intro call member
    simp only [quotedCalls, List.mem_cons, List.not_mem_nil, or_false] at member
    rcases member with rfl | rfl | rfl <;> exact ⟨⟨rfl, rfl⟩, ⟨rfl, rfl⟩, rfl, rfl⟩

end LiveRouter
end TradingPlatform
