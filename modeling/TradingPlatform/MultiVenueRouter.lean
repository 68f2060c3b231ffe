import Mathlib
import TradingPlatform.Library.KeyedLatest
import TradingPlatform.Types

set_option autoImplicit false

/- Routing over several venues: the router keeps the latest valid quote of each
venue and symbol, and a signal goes to the venue with the best price. -/
namespace TradingPlatform

inductive MarketDataVenue where
  | binance
  | coinbase
  | polygon
  | hyperliquid
  | simulatedItch
  deriving DecidableEq, Repr, Inhabited

structure NormalizedMarketData where
  venue : MarketDataVenue := .binance
  update : MarketDataUpdate := {}
  deriving DecidableEq, Repr

namespace Router

structure VenueBookKey where
  venue : MarketDataVenue := .coinbase
  symbolId : SymbolId := 0
  deriving DecidableEq, Repr

structure VenueTopOfBook where
  venue : MarketDataVenue := .coinbase
  symbolId : SymbolId := 0
  symbol : Symbol := {}
  bidPx : Price := 0
  bidQty : Quantity := 0
  askPx : Price := 0
  askQty : Quantity := 0
  exchangeSequence : Sequence := 0
  recvTsNs : TimestampNs := 0
  deriving DecidableEq, Repr

structure RouteDecision where
  routeable : Bool := false
  venue : MarketDataVenue := .coinbase
  symbolId : SymbolId := 0
  symbol : Symbol := {}
  side : Side := .buy
  limitPx : Price := 0
  qty : Quantity := 0
  reason : String := ""
  deriving DecidableEq, Repr

/-- The hash map from keys to books. -/
abbrev Books := AList (fun _ : VenueBookKey => VenueTopOfBook)

/-- The order in which the hash map is traversed: each entry once, and nothing
else is promised. -/
structure IterationOrder where
  entries : Books → List (Sigma fun _ : VenueBookKey => VenueTopOfBook)
  perm : ∀ books, (entries books).Perm books.entries

/-- The traversal in the order of the entries themselves. -/
def IterationOrder.stored : IterationOrder where
  entries books := books.entries
  perm books := .refl books.entries

structure MultiVenueRouter where
  books : Books := ∅

namespace MultiVenueRouter

/-- The book entry made from an update. -/
def bookOf (md : NormalizedMarketData) : VenueTopOfBook where
  venue := md.venue
  symbolId := md.update.symbolId
  symbol := md.update.symbol
  bidPx := md.update.bidPx
  bidQty := md.update.bidQty
  askPx := md.update.askPx
  askQty := md.update.askQty
  exchangeSequence := md.update.exchangeSequence
  recvTsNs := md.update.header.recvTsNs

def update (router : MultiVenueRouter) (md : NormalizedMarketData) : MultiVenueRouter × Bool :=
  if md.update.symbolId = 0 then (router, false)
  else if md.update.bidPx ≤ 0 ∨ md.update.askPx ≤ 0 ∨ md.update.bidPx > md.update.askPx then
    (router, false)
  else
    let key : VenueBookKey := { venue := md.venue, symbolId := md.update.symbolId }
    ({ router with books := router.books.insert key (bookOf md) }, true)

/-- The loop of `best_ask` and `best_bid`: the first book whose price no other
book of the symbol beats. -/
def best (order : IterationOrder) (router : MultiVenueRouter) (price : VenueTopOfBook → Price)
    (beats : Price → Price → Bool) (symbolId : SymbolId) : Option VenueTopOfBook :=
  (order.entries router.books).foldl
    (fun best entry =>
      if entry.2.symbolId ≠ symbolId then best
      else
        match best with
        | none => some entry.2
        | some current => if beats (price entry.2) (price current) then some entry.2 else best)
    none

def bestAsk (order : IterationOrder) (router : MultiVenueRouter) (symbolId : SymbolId) :
    Option VenueTopOfBook :=
  best order router VenueTopOfBook.askPx (fun new current => new < current) symbolId

def bestBid (order : IterationOrder) (router : MultiVenueRouter) (symbolId : SymbolId) :
    Option VenueTopOfBook :=
  best order router VenueTopOfBook.bidPx (fun new current => new > current) symbolId

def routeSignal (order : IterationOrder) (router : MultiVenueRouter) (signal : Signal) :
    RouteDecision :=
  match signal.side with
  | .buy =>
      match bestAsk order router signal.symbolId with
      | none =>
          { routeable := false
            symbolId := signal.symbolId
            side := signal.side
            qty := signal.qty
            reason := "no ask venue available" }
      | some venue =>
          { routeable := true
            venue := venue.venue
            symbolId := signal.symbolId
            symbol := venue.symbol
            side := signal.side
            limitPx := venue.askPx
            qty := signal.qty
            reason := "routed to lowest live ask" }
  | .sell =>
      match bestBid order router signal.symbolId with
      | none =>
          { routeable := false
            symbolId := signal.symbolId
            side := signal.side
            qty := signal.qty
            reason := "no bid venue available" }
      | some venue =>
          { routeable := true
            venue := venue.venue
            symbolId := signal.symbolId
            symbol := venue.symbol
            side := signal.side
            limitPx := venue.bidPx
            qty := signal.qty
            reason := "routed to highest live bid" }

/-! ### The books of a history -/

/-- The quotes the router takes. -/
def Accepted (md : NormalizedMarketData) : Prop :=
  md.update.symbolId ≠ 0 ∧ 0 < md.update.bidPx ∧ 0 < md.update.askPx ∧
    md.update.bidPx ≤ md.update.askPx

instance (md : NormalizedMarketData) : Decidable (Accepted md) := by
  unfold Accepted; infer_instance

theorem update_accepted (router : MultiVenueRouter) (md : NormalizedMarketData)
    (accepted : Accepted md) :
    router.update md =
      ({ books := router.books.insert ⟨md.venue, md.update.symbolId⟩ (bookOf md) }, true) := by
  obtain ⟨symbol, bid, ask, crossed⟩ := accepted
  simp [update, symbol, Int64.not_le.mpr bid, Int64.not_le.mpr ask, Int64.not_lt.mpr crossed]

theorem update_rejected (router : MultiVenueRouter) (md : NormalizedMarketData)
    (rejected : ¬ Accepted md) : router.update md = (router, false) := by
  unfold update
  split
  · rfl
  · rename_i symbol
    rw [if_pos]
    by_contra quote
    simp only [not_or, gt_iff_lt, Int64.not_le, Int64.not_lt] at quote
    exact rejected ⟨symbol, quote.1, quote.2.1, quote.2.2⟩

/-- A fresh router fed a whole history. -/
def replay (history : List NormalizedMarketData) : MultiVenueRouter :=
  history.foldl (fun router md => (router.update md).1) {}

theorem replay_concat (history : List NormalizedMarketData) (md : NormalizedMarketData) :
    replay (history ++ [md]) = ((replay history).update md).1 := by
  simp only [replay, List.foldl_append, List.foldl_cons, List.foldl_nil]

/-- Rejected updates leave no trace. -/
theorem replay_filter (history : List NormalizedMarketData) :
    replay (history.filter Accepted) = replay history := by
  induction history using List.reverseRecOn with
  | nil => rfl
  | append_singleton history md ih =>
      rw [List.filter_append, replay_concat, ← ih]
      by_cases accepted : Accepted md
      · simp only [List.filter_cons, accepted, decide_true, ↓reduceIte, List.filter_nil,
          replay_concat]
      · simp only [List.filter_cons, accepted, decide_false, Bool.false_eq_true, ↓reduceIte,
          List.filter_nil, List.append_nil, update_rejected _ md accepted]

def keyOf (md : NormalizedMarketData) : VenueBookKey :=
  { venue := md.venue, symbolId := md.update.symbolId }

/-- The latest accepted update of a venue for a symbol. -/
def latest (history : List NormalizedMarketData) (key : VenueBookKey) :
    Option NormalizedMarketData :=
  (history.filter (fun md =>
    Accepted md ∧ md.venue = key.venue ∧ md.update.symbolId = key.symbolId)).getLast?

theorem latest_mem (history : List NormalizedMarketData) (key : VenueBookKey)
    (md : NormalizedMarketData) (shown : latest history key = some md) :
    md ∈ history ∧ Accepted md ∧ md.venue = key.venue ∧ md.update.symbolId = key.symbolId := by
  have member := List.mem_filter.mp (List.mem_of_getLast? shown)
  exact ⟨member.1, of_decide_eq_true member.2⟩

theorem update_books (router : MultiVenueRouter) (md : NormalizedMarketData) :
    (router.update md).1.books =
      KeyedLatest.write Accepted keyOf bookOf router.books md := by
  by_cases accepted : Accepted md
  · rw [update_accepted router md accepted, KeyedLatest.write, if_pos accepted, keyOf]
  · rw [update_rejected router md accepted, KeyedLatest.write, if_neg accepted]

theorem written_eq (history : List NormalizedMarketData) (key : VenueBookKey) :
    KeyedLatest.written Accepted keyOf history key =
      history.filter (fun md =>
        Accepted md ∧ md.venue = key.venue ∧ md.update.symbolId = key.symbolId) := by
  apply List.filter_congr
  intro md _
  cases key
  simp [keyOf]

/-- The map holds the latest accepted update under every key. -/
theorem replay_lookup (history : List NormalizedMarketData) (key : VenueBookKey) :
    (replay history).books.lookup key = (latest history key).map bookOf := by
  have books : (replay history).books =
      history.foldl (KeyedLatest.write Accepted keyOf bookOf) ∅ := by
    induction history using List.reverseRecOn with
    | nil => rfl
    | append_singleton history md ih =>
        rw [List.foldl_append, ← ih, replay_concat]
        exact update_books _ md
  rw [books, KeyedLatest.lookup_foldl, written_eq, latest]

/-! ### The scan -/

/-- The books of a symbol, in the order of the traversal. -/
def listed (order : IterationOrder) (router : MultiVenueRouter) (symbolId : SymbolId) :
    List VenueTopOfBook :=
  ((order.entries router.books).map Sigma.snd).filter (fun book => book.symbolId = symbolId)

theorem best_eq (order : IterationOrder) (router : MultiVenueRouter)
    (price : VenueTopOfBook → Price) (beats : Price → Price → Bool) (symbolId : SymbolId)
    (better : VenueTopOfBook → VenueTopOfBook → Prop) [DecidableRel better]
    (agrees : ∀ new current, beats (price new) (price current) = true ↔ better new current) :
    best order router price beats symbolId =
      (listed order router symbolId).foldl (List.argAux better) none := by
  unfold best listed
  rw [List.foldl_filter, List.foldl_map]
  congr 1
  funext best entry
  by_cases other : entry.2.symbolId = symbolId
  · cases best <;> simp [other, List.argAux, agrees]
  · simp [other]

theorem bestAsk_eq (order : IterationOrder) (router : MultiVenueRouter) (symbolId : SymbolId) :
    bestAsk order router symbolId =
      (listed order router symbolId).argmin (fun book => book.askPx.toInt) :=
  best_eq order router _ _ symbolId _
    (fun _ _ => decide_eq_true_iff.trans Int64.lt_iff_toInt_lt)

theorem bestBid_eq (order : IterationOrder) (router : MultiVenueRouter) (symbolId : SymbolId) :
    bestBid order router symbolId =
      (listed order router symbolId).argmax (fun book => book.bidPx.toInt) :=
  best_eq order router _ _ symbolId _
    (fun _ _ => decide_eq_true_iff.trans Int64.lt_iff_toInt_lt)

/-- The scan sees exactly the latest accepted quotes of the symbol. -/
theorem mem_listed (order : IterationOrder) (history : List NormalizedMarketData)
    (symbolId : SymbolId) (book : VenueTopOfBook) :
    book ∈ listed order (replay history) symbolId ↔
      ∃ venue md, latest history ⟨venue, symbolId⟩ = some md ∧ book = bookOf md := by
  have entry : ∀ key value, (⟨key, value⟩ : Sigma fun _ : VenueBookKey => VenueTopOfBook) ∈
      order.entries (replay history).books ↔
        ∃ md, latest history key = some md ∧ value = bookOf md := by
    intro key value
    rw [(order.perm _).mem_iff, ← AList.mem_lookup_iff, replay_lookup]
    simp only [Option.mem_def, Option.map_eq_some_iff]
    exact ⟨fun ⟨md, shown, same⟩ => ⟨md, shown, same.symm⟩,
      fun ⟨md, shown, same⟩ => ⟨md, shown, same.symm⟩⟩
  simp only [listed, List.mem_filter, List.mem_map, decide_eq_true_eq]
  refine ⟨?_, ?_⟩
  · rintro ⟨⟨⟨key, value⟩, listed, rfl⟩, symbol⟩
    obtain ⟨md, shown, rfl⟩ := (entry key value).mp listed
    have same : key.symbolId = symbolId := by
      rw [← (latest_mem history key md shown).2.2.2]
      exact symbol
    exact ⟨key.venue, md, by rw [← same]; exact shown, rfl⟩
  · rintro ⟨venue, md, shown, rfl⟩
    exact ⟨⟨⟨⟨venue, symbolId⟩, bookOf md⟩, (entry _ _).mpr ⟨md, shown, rfl⟩, rfl⟩,
      (latest_mem history _ md shown).2.2.2⟩

theorem listed_eq_nil_iff (order : IterationOrder) (history : List NormalizedMarketData)
    (symbolId : SymbolId) :
    listed order (replay history) symbolId = [] ↔
      ¬ ∃ md ∈ history, Accepted md ∧ md.update.symbolId = symbolId := by
  refine ⟨?_, ?_⟩
  · rintro empty ⟨md, member, accepted, symbol⟩
    have kept : md ∈ history.filter (fun other => Accepted other ∧
        other.venue = md.venue ∧ other.update.symbolId = symbolId) :=
      List.mem_filter.mpr ⟨member, decide_eq_true ⟨accepted, rfl, symbol⟩⟩
    obtain ⟨last, shown⟩ := Option.isSome_iff_exists.mp
      (List.getLast?_isSome.mpr (List.ne_nil_of_mem kept))
    have present := (mem_listed order history symbolId (bookOf last)).mpr
      ⟨md.venue, last, shown, rfl⟩
    rw [empty] at present
    exact List.not_mem_nil present
  · intro nothing
    apply List.eq_nil_iff_forall_not_mem.mpr
    intro book present
    obtain ⟨venue, md, shown, -⟩ := (mem_listed order history symbolId book).mp present
    obtain ⟨member, accepted, -, symbol⟩ := latest_mem history _ md shown
    exact nothing ⟨md, member, accepted, symbol⟩

/-! ### Routing -/

/-- The asks of the venues' latest accepted updates for a symbol. -/
def asks (history : List NormalizedMarketData) (symbolId : SymbolId) : Set Int :=
  { price | ∃ venue md, latest history ⟨venue, symbolId⟩ = some md ∧
    md.update.askPx.toInt = price }

/-- The bids of the venues' latest accepted updates for a symbol. -/
def bids (history : List NormalizedMarketData) (symbolId : SymbolId) : Set Int :=
  { price | ∃ venue md, latest history ⟨venue, symbolId⟩ = some md ∧
    md.update.bidPx.toInt = price }

theorem bestAsk_some (order : IterationOrder) (history : List NormalizedMarketData)
    (symbolId : SymbolId) (book : VenueTopOfBook)
    (found : bestAsk order (replay history) symbolId = some book) :
    IsLeast (asks history symbolId) book.askPx.toInt ∧
      ∃ md, latest history ⟨book.venue, symbolId⟩ = some md ∧ md.update.askPx = book.askPx := by
  rw [bestAsk_eq] at found
  obtain ⟨venue, md, shown, rfl⟩ :=
    (mem_listed order history symbolId book).mp (List.argmin_mem found)
  have own : md.venue = venue := (latest_mem history _ md shown).2.2.1
  refine ⟨⟨⟨venue, md, shown, rfl⟩, ?_⟩, md, ?_, rfl⟩
  · rintro price ⟨other, quote, listed, rfl⟩
    have member :=
      (mem_listed order history symbolId (bookOf quote)).mpr ⟨other, quote, listed, rfl⟩
    have bound := List.le_of_mem_argmin member found
    exact bound
  · change latest history ⟨md.venue, symbolId⟩ = some md
    rw [own, shown]

theorem bestBid_some (order : IterationOrder) (history : List NormalizedMarketData)
    (symbolId : SymbolId) (book : VenueTopOfBook)
    (found : bestBid order (replay history) symbolId = some book) :
    IsGreatest (bids history symbolId) book.bidPx.toInt ∧
      ∃ md, latest history ⟨book.venue, symbolId⟩ = some md ∧ md.update.bidPx = book.bidPx := by
  rw [bestBid_eq] at found
  obtain ⟨venue, md, shown, rfl⟩ :=
    (mem_listed order history symbolId book).mp (List.argmax_mem found)
  have own : md.venue = venue := (latest_mem history _ md shown).2.2.1
  refine ⟨⟨⟨venue, md, shown, rfl⟩, ?_⟩, md, ?_, rfl⟩
  · rintro price ⟨other, quote, listed, rfl⟩
    have member :=
      (mem_listed order history symbolId (bookOf quote)).mpr ⟨other, quote, listed, rfl⟩
    have bound := List.le_of_mem_argmax member found
    exact bound
  · change latest history ⟨md.venue, symbolId⟩ = some md
    rw [own, shown]

/-- A buy for a symbol with an accepted update gets the least ask. -/
theorem routeSignal_buy (order : IterationOrder) (history : List NormalizedMarketData)
    (signal : Signal) (buy : signal.side = .buy)
    (live : ∃ md ∈ history, Accepted md ∧ md.update.symbolId = signal.symbolId) :
    (routeSignal order (replay history) signal).routeable = true ∧
      (routeSignal order (replay history) signal).symbolId = signal.symbolId ∧
      (routeSignal order (replay history) signal).side = .buy ∧
      IsLeast (asks history signal.symbolId)
        (routeSignal order (replay history) signal).limitPx.toInt := by
  cases asked : bestAsk order (replay history) signal.symbolId with
  | none =>
      rw [bestAsk_eq, List.argmin_eq_none] at asked
      exact absurd live ((listed_eq_nil_iff order history signal.symbolId).mp asked)
  | some book =>
      have least := (bestAsk_some order history signal.symbolId book asked).1
      simp [routeSignal, buy, asked, least]

/-- A sell for a symbol with an accepted update gets the greatest bid. -/
theorem routeSignal_sell (order : IterationOrder) (history : List NormalizedMarketData)
    (signal : Signal) (sell : signal.side = .sell)
    (live : ∃ md ∈ history, Accepted md ∧ md.update.symbolId = signal.symbolId) :
    (routeSignal order (replay history) signal).routeable = true ∧
      (routeSignal order (replay history) signal).symbolId = signal.symbolId ∧
      (routeSignal order (replay history) signal).side = .sell ∧
      IsGreatest (bids history signal.symbolId)
        (routeSignal order (replay history) signal).limitPx.toInt := by
  cases bid : bestBid order (replay history) signal.symbolId with
  | none =>
      rw [bestBid_eq, List.argmax_eq_none] at bid
      exact absurd live ((listed_eq_nil_iff order history signal.symbolId).mp bid)
  | some book =>
      have greatest := (bestBid_some order history signal.symbolId book bid).1
      simp [routeSignal, sell, bid, greatest]

/-- A signal is routeable when some update for its symbol was accepted. A buy
goes to a venue with the least ask among the venues' latest quotes, a sell to
one with the greatest bid, in whatever order the map is traversed; an update is
taken or leaves no trace. -/
theorem routeSignal_correct (order : IterationOrder) (history : List NormalizedMarketData)
    (signal : Signal) :
    ((routeSignal order (replay history) signal).routeable = true ↔
      ∃ md ∈ history, Accepted md ∧ md.update.symbolId = signal.symbolId) ∧
    ((routeSignal order (replay history) signal).routeable = true →
      (signal.side = .buy →
        IsLeast (asks history signal.symbolId)
            (routeSignal order (replay history) signal).limitPx.toInt ∧
          ∃ md, latest history ⟨(routeSignal order (replay history) signal).venue,
              signal.symbolId⟩ = some md ∧
            md.update.askPx = (routeSignal order (replay history) signal).limitPx) ∧
      (signal.side = .sell →
        IsGreatest (bids history signal.symbolId)
            (routeSignal order (replay history) signal).limitPx.toInt ∧
          ∃ md, latest history ⟨(routeSignal order (replay history) signal).venue,
              signal.symbolId⟩ = some md ∧
            md.update.bidPx = (routeSignal order (replay history) signal).limitPx)) ∧
    (∀ router md, (update router md).2 = true ↔ Accepted md) ∧
    replay (history.filter Accepted) = replay history := by
  refine ⟨?_, ?_, ?_, replay_filter history⟩
  · have live : (∃ md ∈ history, Accepted md ∧ md.update.symbolId = signal.symbolId) ↔
        listed order (replay history) signal.symbolId ≠ [] := by
      rw [Ne, listed_eq_nil_iff, not_not]
    rw [live]
    cases side : signal.side with
    | buy =>
        have found := bestAsk_eq order (replay history) signal.symbolId
        cases asked : bestAsk order (replay history) signal.symbolId with
        | none => simp [routeSignal, side, asked, List.argmin_eq_none.mp (asked ▸ found).symm]
        | some book =>
            have present := List.ne_nil_of_mem (List.argmin_mem (asked ▸ found).symm)
            simp [routeSignal, side, asked, present]
    | sell =>
        have found := bestBid_eq order (replay history) signal.symbolId
        cases bid : bestBid order (replay history) signal.symbolId with
        | none => simp [routeSignal, side, bid, List.argmax_eq_none.mp (bid ▸ found).symm]
        | some book =>
            have present := List.ne_nil_of_mem (List.argmax_mem (bid ▸ found).symm)
            simp [routeSignal, side, bid, present]
  · intro routeable
    refine ⟨?_, ?_⟩
    · intro side
      cases asked : bestAsk order (replay history) signal.symbolId with
      | none => simp [routeSignal, side, asked] at routeable
      | some book =>
          have least := bestAsk_some order history signal.symbolId book asked
          simpa only [routeSignal, side, asked] using least
    · intro side
      cases bid : bestBid order (replay history) signal.symbolId with
      | none => simp [routeSignal, side, bid] at routeable
      | some book =>
          have greatest := bestBid_some order history signal.symbolId book bid
          simpa only [routeSignal, side, bid] using greatest
  · intro router md
    by_cases accepted : Accepted md
    · simp [update_accepted router md accepted, accepted]
    · simp [update_rejected router md accepted, accepted]

end MultiVenueRouter
end Router
end TradingPlatform
