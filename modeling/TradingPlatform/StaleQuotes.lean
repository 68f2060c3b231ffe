import TradingPlatform.MultiSymbolBook
import TradingPlatform.MultiVenueRouter
import TradingPlatform.OrderBook

set_option autoImplicit false

/- Late and duplicate updates. `TopOfBook` ignores them; the router and the book
of several symbols store whatever valid update comes last. -/
namespace TradingPlatform
namespace StaleQuotes

variable {ι υ : Type*}

/-- The quote stored for a key at every moment of a history: its sequence never
goes back, and it is the one `TopOfBook` shows after the same updates. -/
structure KeepsNewest (stored : List ι → Option υ) (pick : ι → Option MarketDataUpdate)
    (shown : MarketDataUpdate → υ) (sequence : υ → Sequence) (history : List ι) : Prop where
  neverOlder : ∀ earlier heard, earlier <+: heard → heard <+: history →
    ∀ old ∈ stored earlier, ∃ new ∈ stored heard, sequence old ≤ sequence new
  asTopOfBook : ∀ heard, heard <+: history →
    stored heard = (TopOfBook.replay (heard.filterMap pick)).snapshot.map shown

/-- Each update has a greater sequence than the one before it, or repeats it. -/
def Fresh (shown : MarketDataUpdate → υ) (updates : List MarketDataUpdate) : Prop :=
  updates.IsChain fun before after =>
    before.exchangeSequence < after.exchangeSequence ∨ shown before = shown after

/-- One more update: `TopOfBook` goes on showing the latest one exactly when the
update is newer than it or shows the same. -/
theorem agrees_concat (shown : MarketDataUpdate → υ) (sequence : υ → Sequence)
    (sequence_shown : ∀ update, sequence (shown update) = update.exchangeSequence)
    (updates : List MarketDataUpdate) (update : MarketDataUpdate)
    (agrees : updates.getLast?.map shown = (TopOfBook.replay updates).snapshot.map shown) :
    (some (shown update) = (TopOfBook.replay (updates ++ [update])).snapshot.map shown ↔
      ∀ last ∈ updates.getLast?,
        last.exchangeSequence < update.exchangeSequence ∨ shown last = shown update) := by
  rw [TopOfBook.replay_concat, TopOfBook.apply_snapshot]
  cases current : (TopOfBook.replay updates).snapshot with
  | none =>
      have empty : updates.getLast? = none := by simpa [current] using agrees
      simp [empty]
  | some newest =>
      cases latest : updates.getLast? with
      | none => simp [current, latest] at agrees
      | some last =>
          have same : shown last = shown newest := by simpa [current, latest] using agrees
          have level : last.exchangeSequence = newest.exchangeSequence := by
            rw [← sequence_shown last, same, sequence_shown]
          by_cases late : update.exchangeSequence ≤ newest.exchangeSequence
          · have notNewer : ¬ last.exchangeSequence < update.exchangeSequence :=
              level ▸ Nat.not_lt.mpr late
            simp [late, same, notNewer, eq_comm]
          · have newer : last.exchangeSequence < update.exchangeSequence :=
              level ▸ Nat.not_le.mp late
            simp [late, newer]

/-- Storing the latest update shows what `TopOfBook` shows throughout a history
exactly when the history is fresh. -/
theorem agrees_iff (shown : MarketDataUpdate → υ) (sequence : υ → Sequence)
    (sequence_shown : ∀ update, sequence (shown update) = update.exchangeSequence)
    (updates : List MarketDataUpdate) :
    (∀ seen, seen <+: updates →
        seen.getLast?.map shown = (TopOfBook.replay seen).snapshot.map shown) ↔
      Fresh shown updates := by
  induction updates using List.reverseRecOn with
  | nil =>
      have first : ∀ seen, seen <+: ([] : List MarketDataUpdate) →
          seen.getLast?.map shown = (TopOfBook.replay seen).snapshot.map shown := by
        intro seen within
        rw [List.prefix_nil.mp within]
        rfl
      exact iff_of_true first List.isChain_nil
  | append_singleton updates update ih =>
      have split : (∀ seen, seen <+: updates ++ [update] →
            seen.getLast?.map shown = (TopOfBook.replay seen).snapshot.map shown) ↔
          (∀ seen, seen <+: updates →
            seen.getLast?.map shown = (TopOfBook.replay seen).snapshot.map shown) ∧
          some (shown update) =
            (TopOfBook.replay (updates ++ [update])).snapshot.map shown := by
        simp only [List.prefix_concat_iff, or_imp, forall_and, forall_eq]
        rw [and_comm]
        simp
      have chain : Fresh shown (updates ++ [update]) ↔ Fresh shown updates ∧
          ∀ last ∈ updates.getLast?,
            last.exchangeSequence < update.exchangeSequence ∨ shown last = shown update := by
        simp [Fresh, List.isChain_append]
      rw [split, ih, chain]
      apply and_congr_right
      intro fresh
      exact agrees_concat shown sequence sequence_shown updates update
        (ih.mpr fresh updates (List.prefix_refl updates))

/-- The sequence a book shows never goes back. -/
theorem topOfBook_newer (seen later : List MarketDataUpdate) :
    ∀ old ∈ (TopOfBook.replay seen).snapshot,
      ∃ new ∈ (TopOfBook.replay (seen ++ later)).snapshot,
        old.exchangeSequence ≤ new.exchangeSequence := by
  intro old shows
  rw [TopOfBook.replay_snapshot] at shows
  rw [TopOfBook.replay_snapshot]
  have member : old ∈ seen ++ later :=
    List.mem_append_left later (List.argmax_mem shows)
  cases newest : (seen ++ later).argmax MarketDataUpdate.exchangeSequence with
  | none =>
      rw [List.argmax_eq_none] at newest
      simp [newest] at member
  | some new => exact ⟨new, rfl, List.le_of_mem_argmax member newest⟩

/-- A store of the latest update keeps the newest one exactly on fresh histories. -/
theorem keepsNewest_iff (stored : List ι → Option υ) (pick : ι → Option MarketDataUpdate)
    (shown : MarketDataUpdate → υ) (sequence : υ → Sequence)
    (latest : ∀ heard, stored heard = (heard.filterMap pick).getLast?.map shown)
    (sequence_shown : ∀ update, sequence (shown update) = update.exchangeSequence)
    (history : List ι) :
    KeepsNewest stored pick shown sequence history ↔ Fresh shown (history.filterMap pick) := by
  rw [← agrees_iff shown sequence sequence_shown]
  constructor
  · intro keeps seen within
    obtain ⟨heard, prior, rfl⟩ := List.prefix_filterMap_iff.mp within
    rw [← latest, keeps.asTopOfBook heard prior]
  · intro agrees
    have asTopOfBook : ∀ heard, heard <+: history →
        stored heard = (TopOfBook.replay (heard.filterMap pick)).snapshot.map shown := by
      intro heard prior
      rw [latest, agrees _ (prior.filterMap pick)]
    refine ⟨?_, asTopOfBook⟩
    rintro earlier heard ⟨later, rfl⟩ prior old holds
    rw [asTopOfBook earlier ((List.prefix_append earlier later).trans prior)] at holds
    rw [asTopOfBook _ prior, List.filterMap_append]
    obtain ⟨oldUpdate, oldShown, rfl⟩ := Option.mem_map.mp holds
    obtain ⟨new, newShown, atLeast⟩ :=
      topOfBook_newer (earlier.filterMap pick) (later.filterMap pick) oldUpdate oldShown
    refine ⟨shown new, Option.mem_map_of_mem shown newShown, ?_⟩
    rw [sequence_shown, sequence_shown]
    exact atLeast

/-! ### The two books -/

/-- The valid updates of a venue for a symbol. -/
def venueUpdate (key : Router.VenueBookKey) (md : NormalizedMarketData) :
    Option MarketDataUpdate :=
  if Router.MultiVenueRouter.Accepted md ∧ md.venue = key.venue ∧
      md.update.symbolId = key.symbolId then some md.update
  else none

/-- The valid updates of a symbol. -/
def symbolUpdate (symbolId : SymbolId) (update : MarketDataUpdate) : Option MarketDataUpdate :=
  if MultiSymbolTopOfBook.Accepted update ∧ update.symbolId = symbolId then some update else none

def venueBook (key : Router.VenueBookKey) (update : MarketDataUpdate) : Router.VenueTopOfBook :=
  Router.MultiVenueRouter.bookOf { venue := key.venue, update := update }

theorem router_latest (key : Router.VenueBookKey) (heard : List NormalizedMarketData) :
    (Router.MultiVenueRouter.replay heard).books.lookup key =
      (heard.filterMap (venueUpdate key)).getLast?.map (venueBook key) := by
  have picked : (heard.filterMap (venueUpdate key)).map (venueBook key) =
      (heard.filter (fun md => Router.MultiVenueRouter.Accepted md ∧ md.venue = key.venue ∧
        md.update.symbolId = key.symbolId)).map Router.MultiVenueRouter.bookOf := by
    rw [List.map_filterMap, ← List.filterMap_eq_map, List.filterMap_filter]
    congr 1
    funext md
    by_cases mine : Router.MultiVenueRouter.Accepted md ∧ md.venue = key.venue ∧
        md.update.symbolId = key.symbolId
    · have taken : venueUpdate key md = some md.update := if_pos mine
      simp [taken, mine, venueBook, Router.MultiVenueRouter.bookOf]
    · simp [venueUpdate, mine]
  rw [Router.MultiVenueRouter.replay_lookup, Router.MultiVenueRouter.latest,
    ← List.getLast?_map, ← List.getLast?_map, picked]

theorem multiSymbol_latest (symbolId : SymbolId) (heard : List MarketDataUpdate) :
    (MultiSymbolTopOfBook.replay heard).snapshot symbolId =
      (heard.filterMap (symbolUpdate symbolId)).getLast?.map MultiSymbolTopOfBook.snapshotOf := by
  have picked : heard.filterMap (symbolUpdate symbolId) =
      KeyedLatest.written MultiSymbolTopOfBook.Accepted MarketDataUpdate.symbolId heard
        symbolId := by
    rw [KeyedLatest.written, ← List.filterMap_eq_filter]
    congr 1
    funext update
    by_cases mine : MultiSymbolTopOfBook.Accepted update ∧ update.symbolId = symbolId <;>
      simp [symbolUpdate, Option.guard, mine]
  rw [MultiSymbolTopOfBook.replay_snapshot, picked]

/-- Both books keep the newest quote of every key exactly on the histories in which
each valid update of a key is newer than the previous one or repeats its quote. -/
theorem keepNewest_iff (quotes : List NormalizedMarketData) (updates : List MarketDataUpdate) :
    ((∀ key, KeepsNewest (fun heard => (Router.MultiVenueRouter.replay heard).books.lookup key)
        (venueUpdate key) (venueBook key) Router.VenueTopOfBook.exchangeSequence quotes) ↔
      ∀ key, Fresh (venueBook key) (quotes.filterMap (venueUpdate key))) ∧
    ((∀ symbolId, KeepsNewest (fun heard => (MultiSymbolTopOfBook.replay heard).snapshot symbolId)
        (symbolUpdate symbolId) MultiSymbolTopOfBook.snapshotOf
        SymbolBookSnapshot.exchangeSequence updates) ↔
      ∀ symbolId, Fresh MultiSymbolTopOfBook.snapshotOf
        (updates.filterMap (symbolUpdate symbolId))) := by
  constructor
  · apply forall_congr'
    intro key
    exact keepsNewest_iff _ _ _ _ (router_latest key) (fun _ => rfl) quotes
  · apply forall_congr'
    intro symbolId
    exact keepsNewest_iff _ _ _ _ (multiSymbol_latest symbolId) (fun _ => rfl) updates

/-- A quote of symbol 1 that both books take. -/
def quoteAt (exchangeSequence : Sequence) (askPx : Price) : MarketDataUpdate :=
  { symbolId := 1, bidPx := 100, askPx := askPx, exchangeSequence := exchangeSequence }

/-- Update 1 arrives after update 2 and both books go back to it. -/
theorem late_update_stored :
    (¬ ∀ key, KeepsNewest (fun heard => (Router.MultiVenueRouter.replay heard).books.lookup key)
        (venueUpdate key) (venueBook key) Router.VenueTopOfBook.exchangeSequence
        [{ venue := .coinbase, update := quoteAt 2 101 },
          { venue := .coinbase, update := quoteAt 1 105 }]) ∧
    ¬ ∀ symbolId, KeepsNewest
        (fun heard => (MultiSymbolTopOfBook.replay heard).snapshot symbolId)
        (symbolUpdate symbolId) MultiSymbolTopOfBook.snapshotOf
        SymbolBookSnapshot.exchangeSequence [quoteAt 2 101, quoteAt 1 105] := by
  constructor
  · intro keeps
    have newest := (keeps { venue := .coinbase, symbolId := 1 }).neverOlder
      [{ venue := .coinbase, update := quoteAt 2 101 }] _
      (List.prefix_append _ [{ venue := .coinbase, update := quoteAt 1 105 }])
      (List.prefix_refl _)
    revert newest
    decide
  · intro keeps
    have newest := (keeps 1).neverOlder [quoteAt 2 101] _
      (List.prefix_append _ [quoteAt 1 105]) (List.prefix_refl _)
    revert newest
    decide

end StaleQuotes
end TradingPlatform
