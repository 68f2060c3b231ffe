import TradingPlatform.Types
import Mathlib.Data.List.MinMax

set_option autoImplicit false

namespace TradingPlatform

structure TopOfBook where
  last : MarketDataUpdate := {}
  hasValue : Bool := false
  deriving DecidableEq, Repr

namespace TopOfBook

def apply (book : TopOfBook) (update : MarketDataUpdate) : TopOfBook :=
  if book.hasValue && update.exchangeSequence ≤ book.last.exchangeSequence then
    book
  else
    { last := update, hasValue := true }

def snapshot (book : TopOfBook) : Option MarketDataUpdate :=
  if !book.hasValue then none else some book.last

def lastExchangeSequence (book : TopOfBook) : Sequence :=
  if book.hasValue then book.last.exchangeSequence else 0

/-- A book fed a whole history. -/
def replay (updates : List MarketDataUpdate) : TopOfBook :=
  updates.foldl apply {}

theorem replay_concat (updates : List MarketDataUpdate) (update : MarketDataUpdate) :
    replay (updates ++ [update]) = (replay updates).apply update := by
  simp only [replay, List.foldl_append, List.foldl_cons, List.foldl_nil]

theorem apply_snapshot (book : TopOfBook) (update : MarketDataUpdate) :
    (book.apply update).snapshot =
      if ∃ current ∈ book.snapshot, update.exchangeSequence ≤ current.exchangeSequence
      then book.snapshot else some update := by
  unfold apply snapshot
  cases present : book.hasValue
  · simp
  · by_cases late : update.exchangeSequence ≤ book.last.exchangeSequence <;>
      simp [present, late]

/-- An update the book has outrun changes nothing at all. -/
theorem apply_late (book : TopOfBook) (update current : MarketDataUpdate)
    (held : book.snapshot = some current)
    (late : update.exchangeSequence ≤ current.exchangeSequence) :
    book.apply update = book := by
  unfold snapshot at held
  cases present : book.hasValue
  · simp [present] at held
  · simp only [present, Bool.not_true, Bool.false_eq_true, ↓reduceIte, Option.some.injEq] at held
    subst held
    simp [apply, present, late]

/-- The book shows the first of the updates with the greatest sequence. -/
theorem replay_snapshot (updates : List MarketDataUpdate) :
    (replay updates).snapshot = updates.argmax MarketDataUpdate.exchangeSequence := by
  induction updates using List.reverseRecOn with
  | nil => rfl
  | append_singleton updates update ih =>
      rw [replay_concat, apply_snapshot, ih, List.argmax_concat]
      cases updates.argmax MarketDataUpdate.exchangeSequence with
      | none => simp
      | some current =>
          by_cases newer : current.exchangeSequence < update.exchangeSequence
          · simp [newer]
          · simp [newer, Nat.not_lt.mp newer]

/-- A book that has been fed something at least as new is left as it is. -/
theorem replay_apply_late (updates : List MarketDataUpdate) (update fed : MarketDataUpdate)
    (member : fed ∈ updates) (late : update.exchangeSequence ≤ fed.exchangeSequence) :
    (replay updates).apply update = replay updates := by
  cases shown : (replay updates).snapshot with
  | none =>
      rw [replay_snapshot, List.argmax_eq_none] at shown
      simp [shown] at member
  | some current =>
      have newest : fed.exchangeSequence ≤ current.exchangeSequence :=
        List.le_of_mem_argmax member (by rw [← replay_snapshot, shown]; rfl)
      exact apply_late _ _ current shown (late.trans newest)

/-- The first of the updates with the greatest sequence. -/
def Newest (updates : List MarketDataUpdate) (newest : MarketDataUpdate) : Prop :=
  ∃ before after, updates = before ++ newest :: after ∧
    (∀ earlier ∈ before, earlier.exchangeSequence < newest.exchangeSequence) ∧
    ∀ later ∈ after, later.exchangeSequence ≤ newest.exchangeSequence

theorem snapshot_newest {updates : List MarketDataUpdate} {newest : MarketDataUpdate}
    (shown : (replay updates).snapshot = some newest) : Newest updates newest := by
  rw [replay_snapshot] at shown
  obtain ⟨member, greatest, first⟩ := List.mem_argmax_iff.mp shown
  obtain ⟨before, after, rfl, fresh⟩ := List.eq_append_cons_of_mem member
  refine ⟨before, after, rfl, ?_, ?_⟩
  · intro earlier inside
    apply Nat.lt_of_not_le
    intro notOlder
    have position := first earlier (List.mem_append_left _ inside) notOlder
    have own : (before ++ newest :: after).idxOf newest = before.length := by
      rw [List.idxOf_append_of_notMem fresh, List.idxOf_cons_self, Nat.add_zero]
    rw [own, List.idxOf_append_of_mem inside] at position
    exact absurd (List.idxOf_lt_length_of_mem inside) (Nat.not_lt.mpr position)
  · intro later inside
    exact greatest later (List.mem_append_right _ (List.mem_cons_of_mem _ inside))

theorem replay_snapshot_some (updates : List MarketDataUpdate) (some : updates ≠ []) :
    ∃ newest, (replay updates).snapshot = .some newest := by
  rw [replay_snapshot]
  exact Option.ne_none_iff_exists'.mp fun none => some (List.argmax_eq_none.mp none)

theorem lastExchangeSequence_eq {book : TopOfBook} {newest : MarketDataUpdate}
    (shown : book.snapshot = some newest) :
    book.lastExchangeSequence = newest.exchangeSequence := by
  unfold snapshot at shown
  unfold lastExchangeSequence
  cases present : book.hasValue
  · simp [present] at shown
  · simp only [present, Bool.not_true, Bool.false_eq_true, ↓reduceIte, Option.some.injEq] at shown
    simp [shown]

/-- After any updates the book shows the first one with the greatest sequence;
when no two of them share a sequence, it shows the same after every other order
of arrival, with any repetitions. -/
theorem replay_newest (updates : List MarketDataUpdate) (some : updates ≠ []) :
    ∃ newest, Newest updates newest ∧
      (replay updates).snapshot = .some newest ∧
      (replay updates).lastExchangeSequence = newest.exchangeSequence ∧
      ∀ others : List MarketDataUpdate, (∀ update, update ∈ others ↔ update ∈ updates) →
        (∀ first ∈ updates, ∀ second ∈ updates,
          first.exchangeSequence = second.exchangeSequence → first = second) →
        (replay others).snapshot = .some newest := by
  obtain ⟨newest, shown⟩ := replay_snapshot_some updates some
  obtain ⟨member, greatest, -⟩ := List.mem_argmax_iff.mp (replay_snapshot updates ▸ shown)
  refine ⟨newest, snapshot_newest shown, shown, lastExchangeSequence_eq shown, ?_⟩
  intro others same distinct
  obtain ⟨other, shown'⟩ := replay_snapshot_some others
    (List.ne_nil_of_mem ((same newest).mpr member))
  obtain ⟨member', greatest', -⟩ := List.mem_argmax_iff.mp (replay_snapshot others ▸ shown')
  have among := (same other).mp member'
  have level : other.exchangeSequence = newest.exchangeSequence :=
    Nat.le_antisymm (greatest other among) (greatest' newest ((same newest).mpr member))
  rw [shown', distinct other among newest member level]

/-- The updates 0 and 1, and the same with update 1 early and repeated. -/
theorem replay_newest_repeated :
    let zero : MarketDataUpdate := { exchangeSequence := 0 }
    let one : MarketDataUpdate := { exchangeSequence := 1 }
    ∃ newest, Newest [zero, one] newest ∧
      (replay [zero, one]).snapshot = some newest ∧
      (replay [zero, one]).lastExchangeSequence = newest.exchangeSequence ∧
      (replay [one, zero, one]).snapshot = some newest := by
  intro zero one
  obtain ⟨newest, first, shown, last, others⟩ := replay_newest [zero, one] (by decide)
  refine ⟨newest, first, shown, last, others [one, zero, one] ?_ (by decide)⟩
  intro update
  simp [or_comm, or_left_comm]

end TopOfBook
end TradingPlatform
