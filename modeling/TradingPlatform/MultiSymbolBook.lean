import TradingPlatform.Library.KeyedLatest
import TradingPlatform.Types

set_option autoImplicit false

/- One top of book per symbol. -/
namespace TradingPlatform

structure SymbolBookSnapshot where
  symbolId : SymbolId := 0
  symbol : Symbol := {}
  bidPx : Price := 0
  bidQty : Quantity := 0
  askPx : Price := 0
  askQty : Quantity := 0
  exchangeSequence : Sequence := 0
  recvTsNs : TimestampNs := 0
  deriving DecidableEq, Repr

structure MultiSymbolTopOfBook where
  books : AList (fun _ : SymbolId => SymbolBookSnapshot) := ∅

namespace MultiSymbolTopOfBook

/-- The entry made from an update; every field of it is assigned. -/
def snapshotOf (update : MarketDataUpdate) : SymbolBookSnapshot where
  symbolId := update.symbolId
  symbol := update.symbol
  bidPx := update.bidPx
  bidQty := update.bidQty
  askPx := update.askPx
  askQty := update.askQty
  exchangeSequence := update.exchangeSequence
  recvTsNs := update.header.recvTsNs

def apply (book : MultiSymbolTopOfBook) (update : MarketDataUpdate) :
    MultiSymbolTopOfBook × Bool :=
  if update.symbolId = 0 then (book, false)
  else if update.bidPx ≤ 0 ∨ update.askPx ≤ 0 then (book, false)
  else if update.bidPx > update.askPx then (book, false)
  else ({ books := book.books.insert update.symbolId (snapshotOf update) }, true)

def snapshot (book : MultiSymbolTopOfBook) (symbolId : SymbolId) : Option SymbolBookSnapshot :=
  book.books.lookup symbolId

/-- The updates the book takes. -/
def Accepted (update : MarketDataUpdate) : Prop :=
  update.symbolId ≠ 0 ∧ 0 < update.bidPx ∧ 0 < update.askPx ∧ update.bidPx ≤ update.askPx

instance (update : MarketDataUpdate) : Decidable (Accepted update) := by
  unfold Accepted; infer_instance

theorem apply_books (book : MultiSymbolTopOfBook) (update : MarketDataUpdate) :
    (book.apply update).1.books =
      KeyedLatest.write Accepted MarketDataUpdate.symbolId snapshotOf book.books update := by
  unfold apply KeyedLatest.write
  by_cases accepted : Accepted update
  · obtain ⟨symbol, bid, ask, crossed⟩ := accepted
    simp [Accepted, symbol, bid, ask, crossed, Int64.not_le.mpr bid, Int64.not_le.mpr ask,
      Int64.not_lt.mpr crossed]
  · rw [if_neg accepted]
    split
    · rfl
    · rename_i symbol
      split
      · rfl
      · rename_i positive
        split
        · rfl
        · rename_i crossed
          simp only [not_or, Int64.not_le] at positive
          exact absurd ⟨symbol, positive.1, positive.2, Int64.not_lt.mp crossed⟩ accepted

/-- A fresh book fed a whole history. -/
def replay (updates : List MarketDataUpdate) : MultiSymbolTopOfBook :=
  updates.foldl (fun book update => (book.apply update).1) {}

/-- The snapshot of a symbol is made from its latest accepted update. -/
theorem replay_snapshot (updates : List MarketDataUpdate) (symbolId : SymbolId) :
    (replay updates).snapshot symbolId =
      (KeyedLatest.written Accepted MarketDataUpdate.symbolId updates symbolId).getLast?.map
        snapshotOf := by
  have books : (replay updates).books =
      updates.foldl (KeyedLatest.write Accepted MarketDataUpdate.symbolId snapshotOf) ∅ := by
    induction updates using List.reverseRecOn with
    | nil => rfl
    | append_singleton updates update ih =>
        rw [List.foldl_append, ← ih, replay, List.foldl_append]
        exact apply_books _ update
  rw [snapshot, books, KeyedLatest.lookup_foldl]

end MultiSymbolTopOfBook
end TradingPlatform
