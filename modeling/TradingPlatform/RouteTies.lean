import TradingPlatform.MultiVenueRouter

set_option autoImplicit false

/- Two routers that hold the same quotes route alike, up to the choice between
venues that share the best price: that choice is the traversal's. -/
namespace TradingPlatform.Router

/-- The decision without the venue it goes to and that venue's name of the symbol. -/
def RouteDecision.unplaced (decision : RouteDecision) : RouteDecision :=
  { decision with venue := .coinbase, symbol := {} }

/-- The traversal of one map, for another with the same entries. -/
def IterationOrder.carried (order : IterationOrder) (books books' : Books)
    (same : books.entries.Perm books'.entries) : IterationOrder where
  entries := fun listed =>
    if listed = books' then order.entries books else listed.entries
  perm := by
    intro listed
    split
    · rename_i other
      rw [other]
      exact (order.perm books).trans same
    · exact List.Perm.refl _

namespace MultiVenueRouter

/-! ### The best of two listings of the same books -/

section Listings

variable {α β : Type*} [LinearOrder β] {first second : List α}
variable (same : ∀ item, item ∈ first ↔ item ∈ second) (price : α → β)
include same

theorem argmax_price : (first.argmax price).map price = (second.argmax price).map price := by
  cases found : first.argmax price with
  | none =>
      rw [List.argmax_eq_none] at found
      have empty : second = [] := by
        apply List.eq_nil_iff_forall_not_mem.mpr
        intro item member
        have listed := (same item).mpr member
        rw [found] at listed
        exact List.not_mem_nil listed
      rw [empty]
      rfl
  | some item =>
      cases other : second.argmax price with
      | none =>
          rw [List.argmax_eq_none] at other
          have listed := (same item).mp (List.argmax_mem found)
          rw [other] at listed
          exact absurd listed List.not_mem_nil
      | some found' =>
          have most := List.le_of_mem_argmax ((same item).mp (List.argmax_mem found)) other
          have least := List.le_of_mem_argmax ((same found').mpr (List.argmax_mem other)) found
          exact congrArg some (le_antisymm most least)

/-- Without a tie it is the same book. -/
theorem argmax_unique
    (unique : ∀ item ∈ first, ∀ other ∈ first, (∀ listed ∈ first, price listed ≤ price item) →
      (∀ listed ∈ first, price listed ≤ price other) → item = other) :
    first.argmax price = second.argmax price := by
  have prices := argmax_price same price
  cases found : first.argmax price with
  | none =>
      rw [found, Option.map_none, eq_comm, Option.map_eq_none_iff] at prices
      exact prices.symm
  | some item =>
      rw [found, Option.map_some, eq_comm, Option.map_eq_some_iff] at prices
      obtain ⟨other, chosen, -⟩ := prices
      rw [chosen, unique item (List.argmax_mem found) other
        ((same other).mpr (List.argmax_mem chosen))
        (fun listed member => List.le_of_mem_argmax member found)
        (fun listed member => List.le_of_mem_argmax ((same listed).mp member) chosen)]

theorem argmin_price : (first.argmin price).map price = (second.argmin price).map price :=
  argmax_price (β := βᵒᵈ) same price

theorem argmin_unique
    (unique : ∀ item ∈ first, ∀ other ∈ first, (∀ listed ∈ first, price item ≤ price listed) →
      (∀ listed ∈ first, price other ≤ price listed) → item = other) :
    first.argmin price = second.argmin price :=
  argmax_unique (β := βᵒᵈ) same price unique

omit same in
theorem argmax_first (item : α) (rest : List α) (price : α → β)
    (best : ∀ other ∈ rest, price other ≤ price item) :
    (item :: rest).argmax price = some item := by
  rw [List.argmax_cons]
  cases found : rest.argmax price with
  | none => rfl
  | some other =>
      have bound := best other (List.argmax_mem found)
      exact if_neg (not_lt.mpr bound)

omit same in
theorem argmin_first (item : α) (rest : List α) (price : α → β)
    (best : ∀ other ∈ rest, price item ≤ price other) :
    (item :: rest).argmin price = some item :=
  argmax_first (β := βᵒᵈ) item rest price best

end Listings

/-! ### The same quotes -/

/-- The latest accepted quote of a venue for a symbol, as the router stores it. -/
def quote (history : List NormalizedMarketData) (key : VenueBookKey) : Option VenueTopOfBook :=
  (latest history key).map bookOf

theorem quote_venue (history : List NormalizedMarketData) (key : VenueBookKey)
    (book : VenueTopOfBook) (shown : quote history key = some book) :
    book.venue = key.venue := by
  obtain ⟨md, latest, rfl⟩ := Option.map_eq_some_iff.mp shown
  exact (latest_mem history key md latest).2.2.1

theorem mem_listed_quote (order : IterationOrder) (history : List NormalizedMarketData)
    (symbolId : SymbolId) (book : VenueTopOfBook) :
    book ∈ listed order (replay history) symbolId ↔
      quote history ⟨book.venue, symbolId⟩ = some book := by
  rw [mem_listed]
  refine ⟨?_, ?_⟩
  · rintro ⟨venue, md, shown, rfl⟩
    have own : md.venue = venue := (latest_mem history _ md shown).2.2.1
    change (latest history ⟨md.venue, symbolId⟩).map bookOf = _
    rw [own, shown, Option.map_some]
  · intro shown
    obtain ⟨md, latest, rfl⟩ := Option.map_eq_some_iff.mp shown
    exact ⟨_, md, latest, rfl⟩

/-- The venue has the best price for the signal. -/
def Offers (history : List NormalizedMarketData) (signal : Signal) (venue : MarketDataVenue) :
    Prop :=
  ∃ book, quote history ⟨venue, signal.symbolId⟩ = some book ∧
    ∀ other shown, quote history ⟨other, signal.symbolId⟩ = some shown →
      match signal.side with
      | .buy => book.askPx.toInt ≤ shown.askPx.toInt
      | .sell => shown.bidPx.toInt ≤ book.bidPx.toInt

/-- Histories that interleave the same streams leave the same quotes. -/
theorem quote_streams (history history' : List NormalizedMarketData)
    (streams : ∀ venue, history.filter (fun md => md.venue = venue) =
      history'.filter fun md => md.venue = venue) (key : VenueBookKey) :
    quote history key = quote history' key := by
  have split : ∀ updates : List NormalizedMarketData, latest updates key =
      ((updates.filter fun md => md.venue = key.venue).filter fun md =>
        Accepted md ∧ md.update.symbolId = key.symbolId).getLast? := by
    intro updates
    rw [latest, List.filter_filter]
    congr 2
    funext md
    by_cases own : md.venue = key.venue <;> simp [own]
  rw [quote, quote, split, split, streams]

section SameQuotes

variable (order order' : IterationOrder) (history history' : List NormalizedMarketData)
variable (same : ∀ key, quote history key = quote history' key)
include same

theorem listed_same (symbolId : SymbolId) (book : VenueTopOfBook) :
    book ∈ listed order (replay history) symbolId ↔
      book ∈ listed order' (replay history') symbolId := by
  rw [mem_listed_quote, mem_listed_quote, same]

/-- The prices agree, so all that does not name the venue agrees. -/
theorem routeSignal_unplaced (signal : Signal) :
    (routeSignal order (replay history) signal).unplaced =
      (routeSignal order' (replay history') signal).unplaced := by
  have listing := listed_same order order' history history' same signal.symbolId
  cases side : signal.side with
  | buy =>
      have prices := argmin_price listing fun book => book.askPx.toInt
      rw [← bestAsk_eq, ← bestAsk_eq] at prices
      cases found : bestAsk order (replay history) signal.symbolId with
      | none =>
          rw [found, Option.map_none, eq_comm, Option.map_eq_none_iff] at prices
          simp [routeSignal, side, found, prices]
      | some book =>
          rw [found, Option.map_some, eq_comm, Option.map_eq_some_iff] at prices
          obtain ⟨other, chosen, price⟩ := prices
          simp [routeSignal, side, found, chosen, RouteDecision.unplaced,
            Int64.toInt_inj.mp price]
  | sell =>
      have prices := argmax_price listing fun book => book.bidPx.toInt
      rw [← bestBid_eq, ← bestBid_eq] at prices
      cases found : bestBid order (replay history) signal.symbolId with
      | none =>
          rw [found, Option.map_none, eq_comm, Option.map_eq_none_iff] at prices
          simp [routeSignal, side, found, prices]
      | some book =>
          rw [found, Option.map_some, eq_comm, Option.map_eq_some_iff] at prices
          obtain ⟨other, chosen, price⟩ := prices
          simp [routeSignal, side, found, chosen, RouteDecision.unplaced,
            Int64.toInt_inj.mp price]

/-- With a single best venue there is nothing to choose. -/
theorem routeSignal_unique (signal : Signal)
    (unique : ∀ venue other, Offers history signal venue → Offers history signal other →
      venue = other) :
    routeSignal order (replay history) signal = routeSignal order' (replay history') signal := by
  have listing := listed_same order order' history history' same signal.symbolId
  -- books of one venue are one book
  have single : ∀ item ∈ listed order (replay history) signal.symbolId,
      ∀ other ∈ listed order (replay history) signal.symbolId,
      Offers history signal item.venue → Offers history signal other.venue → item = other := by
    intro item member other member' offers offers'
    have venue := unique _ _ offers offers'
    have shown := (mem_listed_quote order history signal.symbolId item).mp member
    have shown' := (mem_listed_quote order history signal.symbolId other).mp member'
    rw [← venue, shown] at shown'
    exact Option.some.inj shown'
  have offers : ∀ item ∈ listed order (replay history) signal.symbolId,
      (∀ book ∈ listed order (replay history) signal.symbolId, match signal.side with
        | .buy => item.askPx.toInt ≤ book.askPx.toInt
        | .sell => book.bidPx.toInt ≤ item.bidPx.toInt) →
      Offers history signal item.venue := by
    intro item member best
    refine ⟨item, (mem_listed_quote order history signal.symbolId item).mp member, ?_⟩
    intro other book shown
    have own := quote_venue history _ book shown
    subst own
    exact best book ((mem_listed_quote order history signal.symbolId book).mpr shown)
  cases side : signal.side with
  | buy =>
      rw [side] at offers
      have chosen := argmin_unique listing (fun book => book.askPx.toInt)
        fun item member other member' best best' =>
          single item member other member' (offers item member best) (offers other member' best')
      rw [← bestAsk_eq, ← bestAsk_eq] at chosen
      simp [routeSignal, side, chosen]
  | sell =>
      rw [side] at offers
      have chosen := argmax_unique listing (fun book => book.bidPx.toInt)
        fun item member other member' best best' =>
          single item member other member' (offers item member best) (offers other member' best')
      rw [← bestBid_eq, ← bestBid_eq] at chosen
      simp [routeSignal, side, chosen]

end SameQuotes

/-! ### A traversal for every choice -/

/-- A traversal that meets an entry first, if the map has it. -/
def firstOrder (entry : Sigma fun _ : VenueBookKey => VenueTopOfBook) : IterationOrder where
  entries := fun books =>
    if entry ∈ books.entries then entry :: books.entries.erase entry else books.entries
  perm := by
    intro books
    split
    · rename_i member
      exact (List.perm_cons_erase member).symm
    · exact List.Perm.refl _

/-- Every venue with the best price is the choice of some traversal. -/
theorem routeSignal_offers (history : List NormalizedMarketData) (signal : Signal)
    (venue : MarketDataVenue) (offers : Offers history signal venue) :
    ∃ order, (routeSignal order (replay history) signal).venue = venue := by
  obtain ⟨book, shown, best⟩ := offers
  have own : book.venue = venue := quote_venue history _ book shown
  subst own
  have entered : (⟨⟨book.venue, signal.symbolId⟩, book⟩ :
      Sigma fun _ : VenueBookKey => VenueTopOfBook) ∈ (replay history).books.entries := by
    rw [← AList.mem_lookup_iff, replay_lookup]
    exact shown
  refine ⟨firstOrder ⟨⟨book.venue, signal.symbolId⟩, book⟩, ?_⟩
  generalize chosen : firstOrder ⟨⟨book.venue, signal.symbolId⟩, book⟩ = order
  obtain ⟨rest, listing⟩ : ∃ rest,
      listed order (replay history) signal.symbolId = book :: rest := by
    have symbol : book.symbolId = signal.symbolId := by
      obtain ⟨md, latest, rfl⟩ := Option.map_eq_some_iff.mp shown
      exact (latest_mem history _ md latest).2.2.2
    subst chosen
    simp [listed, firstOrder, entered, symbol]
  have rivals : ∀ other ∈ rest, quote history ⟨other.venue, signal.symbolId⟩ = some other := by
    intro other member
    apply (mem_listed_quote order history signal.symbolId other).mp
    rw [listing]
    exact List.mem_cons_of_mem _ member
  cases side : signal.side with
  | buy =>
      rw [side] at best
      have found : bestAsk order (replay history) signal.symbolId = some book := by
        rw [bestAsk_eq, listing]
        exact argmin_first book rest _ fun other member => best _ other (rivals other member)
      simp [routeSignal, side, found]
  | sell =>
      rw [side] at best
      have found : bestBid order (replay history) signal.symbolId = some book := by
        rw [bestBid_eq, listing]
        exact argmax_first book rest _ fun other member => best _ other (rivals other member)
      simp [routeSignal, side, found]

/-- Maps with the same quotes have the same entries. -/
theorem entries_perm (history history' : List NormalizedMarketData)
    (same : ∀ key, quote history key = quote history' key) :
    (replay history).books.entries.Perm (replay history').books.entries := by
  apply List.lookup_ext (replay history).books.nodupKeys (replay history').books.nodupKeys
  intro key book
  have lookup := same key
  rw [quote, quote, ← replay_lookup, ← replay_lookup] at lookup
  rw [AList.lookup, AList.lookup] at lookup
  rw [lookup]

/-- What one router decides under some traversal, the other decides under some
traversal, the venue included. -/
theorem routeSignal_carried (history history' : List NormalizedMarketData)
    (same : ∀ key, quote history key = quote history' key) (order : IterationOrder) :
    ∃ order', ∀ signal, routeSignal order (replay history) signal =
      routeSignal order' (replay history') signal := by
  refine ⟨order.carried _ _ (entries_perm history history' same), fun signal => ?_⟩
  have traversed : (order.carried _ _ (entries_perm history history' same)).entries
      (replay history').books = order.entries (replay history).books := if_pos rfl
  unfold routeSignal bestAsk bestBid best
  rw [traversed]

/-- Routers with the same quotes agree on everything but the choice among the
venues with the best price; they agree on that too, in whatever order their maps
are traversed, exactly if there is only one such venue. -/
theorem routeSignal_agrees (history history' : List NormalizedMarketData)
    (same : ∀ key, quote history key = quote history' key) (signal : Signal) :
    (∀ order order', (routeSignal order (replay history) signal).unplaced =
        (routeSignal order' (replay history') signal).unplaced) ∧
      ((∀ order order', routeSignal order (replay history) signal =
          routeSignal order' (replay history') signal) ↔
        ∀ venue other, Offers history signal venue → Offers history signal other →
          venue = other) := by
  refine ⟨fun order order' => routeSignal_unplaced order order' history history' same signal,
    ?_, fun unique order order' =>
      routeSignal_unique order order' history history' same signal unique⟩
  intro determined venue other offers offers'
  obtain ⟨order, chosen⟩ := routeSignal_offers history signal venue offers
  obtain ⟨order', chosen'⟩ := routeSignal_offers history signal other offers'
  rw [← chosen, ← chosen', determined order order, determined order' order]

/-- Two routers decide alike. What one decides the other decides too, with the same
venue, under some traversal of its map. Under all of them they agree on the rest of
the decision, and on the venue exactly if one venue alone has the best price that
the updates leave. -/
structure Alike (router router' : MultiVenueRouter) (updates : List NormalizedMarketData) :
    Prop where
  forward : ∀ order, ∃ order', ∀ signal,
    routeSignal order router signal = routeSignal order' router' signal
  backward : ∀ order', ∃ order, ∀ signal,
    routeSignal order' router' signal = routeSignal order router signal
  unplaced : ∀ order order' signal,
    (routeSignal order router signal).unplaced = (routeSignal order' router' signal).unplaced
  placed : ∀ signal,
    (∀ order order', routeSignal order router signal = routeSignal order' router' signal) ↔
      ∀ venue other, Offers updates signal venue → Offers updates signal other → venue = other

theorem replay_alike (history history' : List NormalizedMarketData)
    (same : ∀ key, quote history key = quote history' key) :
    Alike (replay history) (replay history') history where
  forward := routeSignal_carried history history' same
  backward := routeSignal_carried history' history fun key => (same key).symm
  unplaced := fun order order' signal =>
    (routeSignal_agrees history history' same signal).1 order order'
  placed := fun signal => (routeSignal_agrees history history' same signal).2

/-! ### A tie -/

def quoteOf (venue : MarketDataVenue) (askPx : Price) : NormalizedMarketData where
  venue := venue
  update := { symbolId := 1, bidPx := 99, askPx := askPx, exchangeSequence := 1 }

def buySignal : Signal := { symbolId := 1, side := .buy, qty := 1 }

theorem quote_two_streams (askPx askPx' : Price) :
    ∀ key, quote [quoteOf .binance askPx, quoteOf .coinbase askPx'] key =
      quote [quoteOf .coinbase askPx', quoteOf .binance askPx] key :=
  quote_streams _ _ fun venue => by cases venue <;> rfl

theorem routeSignal_agrees_twoVenues :
    (routeSignal ⟨fun books => books.entries, fun _ => .refl _⟩
        (replay [quoteOf .binance 101, quoteOf .coinbase 100]) buySignal).unplaced =
      (routeSignal ⟨fun books => books.entries, fun _ => .refl _⟩
        (replay [quoteOf .coinbase 100, quoteOf .binance 101]) buySignal).unplaced :=
  (routeSignal_agrees _ _ (quote_two_streams 101 100) buySignal).1 _ _

/-- Two venues with the same ask: a traversal in insertion order sends the signal
to the one that was heard last. -/
theorem tie_routed_by_arrival :
    (∀ key, quote [quoteOf .binance 100, quoteOf .coinbase 100] key =
        quote [quoteOf .coinbase 100, quoteOf .binance 100] key) ∧
      (routeSignal ⟨fun books => books.entries, fun _ => .refl _⟩
          (replay [quoteOf .binance 100, quoteOf .coinbase 100]) buySignal).venue = .coinbase ∧
      (routeSignal ⟨fun books => books.entries, fun _ => .refl _⟩
          (replay [quoteOf .coinbase 100, quoteOf .binance 100]) buySignal).venue = .binance :=
  ⟨quote_two_streams 100 100, by decide +kernel, by decide +kernel⟩

end MultiVenueRouter
end TradingPlatform.Router
