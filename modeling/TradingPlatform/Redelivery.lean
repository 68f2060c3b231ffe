import TradingPlatform.Strategy

set_option autoImplicit false

/- Duplicates and late arrivals in a market data stream. The book drops them,
but the strategy decides again on every call, so what a redelivery costs depends
on the quote the book is showing when it arrives. -/
namespace TradingPlatform.Redelivery

open StrategyEngine

structure Delivery where
  update : MarketDataUpdate
  redelivered : Bool
  deriving DecidableEq, Repr

/-- Every update in arrival order, redeliveries included. -/
def received (stream : List Delivery) : List MarketDataUpdate :=
  stream.map Delivery.update

/-- The stream without its redeliveries. -/
def original (stream : List Delivery) : List MarketDataUpdate :=
  (stream.filter (fun delivery => !delivery.redelivered)).map Delivery.update

/-- Every redelivery repeats or falls behind a sequence that was already fed. -/
def LateExtras (stream : List Delivery) : Prop :=
  ∀ before delivery after, stream = before ++ delivery :: after → delivery.redelivered = true →
    ∃ fed ∈ received before, delivery.update.exchangeSequence ≤ fed.exchangeSequence

/-- No redelivery arrives while the newest quote is wide enough to trade on. -/
def QuietRedeliveries (stream : List Delivery) : Prop :=
  ∀ before delivery after, stream = before ++ delivery :: after → delivery.redelivered = true →
    ∀ newest ∈ (received before).argmax MarketDataUpdate.exchangeSequence, ¬ newest.Wide

/-- Lateness against the book itself: applying a redelivery changes nothing. -/
def Outrun : TopOfBook → List Delivery → Prop
  | _, [] => True
  | book, delivery :: rest =>
      (delivery.redelivered = true → book.apply delivery.update = book) ∧
        Outrun (book.apply delivery.update) rest

/-- The book trades on no redelivery. -/
def Quiet : TopOfBook → List Delivery → Prop
  | _, [] => True
  | book, delivery :: rest =>
      (delivery.redelivered = true → (book.apply delivery.update).tradable = none) ∧
        Quiet (book.apply delivery.update) rest

@[simp] theorem received_cons (delivery : Delivery) (rest : List Delivery) :
    received (delivery :: rest) = delivery.update :: received rest := rfl

theorem received_concat (before : List Delivery) (delivery : Delivery) :
    received (before ++ [delivery]) = received before ++ [delivery.update] := by
  simp only [received, List.map_append, List.map_cons, List.map_nil]

theorem original_cons_redelivered (delivery : Delivery) (rest : List Delivery)
    (extra : delivery.redelivered = true) : original (delivery :: rest) = original rest := by
  simp [original, extra]

theorem original_cons_fresh (delivery : Delivery) (rest : List Delivery)
    (fresh : delivery.redelivered = false) :
    original (delivery :: rest) = delivery.update :: original rest := by
  simp [original, fresh]

theorem outrun_of_lateExtras (stream : List Delivery) (late : LateExtras stream)
    (before after : List Delivery) (split : stream = before ++ after) :
    Outrun (TopOfBook.replay (received before)) after := by
  induction after generalizing before with
  | nil => trivial
  | cons delivery rest ih =>
      refine ⟨fun extra => ?_, ?_⟩
      · obtain ⟨fed, member, behind⟩ := late before delivery rest split extra
        exact TopOfBook.replay_apply_late _ _ fed member behind
      · rw [← TopOfBook.replay_concat, ← received_concat]
        exact ih (before ++ [delivery]) (by simpa using split)

/-- On a late redelivery the book keeps showing the newest quote so far. -/
theorem tradable_redelivery (stream : List Delivery) (late : LateExtras stream)
    (before after : List Delivery) (delivery : Delivery)
    (split : stream = before ++ delivery :: after) (extra : delivery.redelivered = true) :
    ((TopOfBook.replay (received before)).apply delivery.update).tradable = none ↔
      ∀ newest ∈ (received before).argmax MarketDataUpdate.exchangeSequence, ¬ newest.Wide := by
  obtain ⟨fed, member, behind⟩ := late before delivery after split extra
  rw [TopOfBook.replay_apply_late _ _ fed member behind]
  simp [TopOfBook.tradable, TopOfBook.replay_snapshot, Option.filter_eq_none_iff]

theorem quiet_of_quietRedeliveries (stream : List Delivery) (late : LateExtras stream)
    (quiet : QuietRedeliveries stream) (before after : List Delivery)
    (split : stream = before ++ after) : Quiet (TopOfBook.replay (received before)) after := by
  induction after generalizing before with
  | nil => trivial
  | cons delivery rest ih =>
      refine ⟨fun extra => ?_, ?_⟩
      · exact (tradable_redelivery stream late before rest delivery split extra).mpr
          (quiet before delivery rest split extra)
      · rw [← TopOfBook.replay_concat, ← received_concat]
        exact ih (before ++ [delivery]) (by simpa using split)

theorem Quiet.drop {book : TopOfBook} {before after : List Delivery}
    (quiet : Quiet book (before ++ after)) :
    Quiet ((received before).foldl TopOfBook.apply book) after := by
  induction before generalizing book with
  | nil => exact quiet
  | cons delivery rest ih => exact ih quiet.2

theorem quiet_iff_quietRedeliveries (stream : List Delivery) (late : LateExtras stream) :
    Quiet {} stream ↔ QuietRedeliveries stream := by
  constructor
  · intro quiet before delivery after split extra
    rw [split] at quiet
    have here := quiet.drop.1 extra
    exact (tradable_redelivery stream late before after delivery split extra).mp here
  · intro quiet
    exact quiet_of_quietRedeliveries stream late quiet [] stream rfl

/-- A quiet redelivery leaves the engine as it was and emits nothing. -/
theorem untimedStage_redelivery (engine : StrategyEngine) (update : MarketDataUpdate)
    (outrun : engine.book.apply update = engine.book)
    (quiet : (engine.book.apply update).tradable = none) :
    engine.untimedStage update = (engine, []) := by
  rw [untimedStage_quiet engine update quiet, outrun]

theorem emitted_quiet (stream : List Delivery) (engine : StrategyEngine)
    (outrun : Outrun engine.book stream) (quiet : Quiet engine.book stream) :
    Transducer.emitted untimedStage engine (received stream) =
      Transducer.emitted untimedStage engine (original stream) := by
  induction stream generalizing engine with
  | nil => rfl
  | cons delivery rest ih =>
      have next := ih (engine.untimedStage delivery.update).1
        (by rw [untimedStage_book]; exact outrun.2) (by rw [untimedStage_book]; exact quiet.2)
      rw [received_cons, Transducer.emitted_cons, next]
      cases extra : delivery.redelivered with
      | true =>
          rw [original_cons_redelivered delivery rest extra,
            untimedStage_redelivery engine delivery.update (outrun.1 extra) (quiet.1 extra)]
          rfl
      | false => rw [original_cons_fresh delivery rest extra, Transducer.emitted_cons]

/-- Redeliveries never cost a signal: what is emitted depends on the books only. -/
theorem original_length_le (stream : List Delivery) (full clean : StrategyEngine)
    (same : full.book = clean.book) (outrun : Outrun full.book stream) :
    (Transducer.emitted untimedStage clean (original stream)).length ≤
      (Transducer.emitted untimedStage full (received stream)).length := by
  induction stream generalizing full clean with
  | nil => exact Nat.le_refl _
  | cons delivery rest ih =>
      have next := untimedStage_book full delivery.update
      rw [received_cons, Transducer.emitted_cons, List.length_append]
      cases extra : delivery.redelivered with
      | true =>
          rw [original_cons_redelivered delivery rest extra]
          have bound := ih (full.untimedStage delivery.update).1 clean
            (by rw [next, outrun.1 extra, same]) (by rw [next]; exact outrun.2)
          omega
      | false =>
          rw [original_cons_fresh delivery rest extra, Transducer.emitted_cons,
            List.length_append, untimedStage_length, untimedStage_length, same]
          have bound := ih (full.untimedStage delivery.update).1
            (clean.untimedStage delivery.update).1
            (by rw [next, untimedStage_book, same]) (by rw [next]; exact outrun.2)
          omega

/-- A redelivery onto a tradable quote emits one signal too many. -/
theorem original_length_lt (stream : List Delivery) (full clean : StrategyEngine)
    (same : full.book = clean.book) (outrun : Outrun full.book stream)
    (loud : ¬ Quiet full.book stream) :
    (Transducer.emitted untimedStage clean (original stream)).length <
      (Transducer.emitted untimedStage full (received stream)).length := by
  induction stream generalizing full clean with
  | nil => exact absurd trivial loud
  | cons delivery rest ih =>
      have next := untimedStage_book full delivery.update
      rw [received_cons, Transducer.emitted_cons, List.length_append, untimedStage_length]
      cases extra : delivery.redelivered with
      | true =>
          rw [original_cons_redelivered delivery rest extra]
          have keeps : (full.untimedStage delivery.update).1.book = clean.book := by
            rw [next, outrun.1 extra, same]
          have tail : Outrun (full.untimedStage delivery.update).1.book rest := by
            rw [next]; exact outrun.2
          by_cases here : (full.book.apply delivery.update).tradable = none
          · have later : ¬ Quiet (full.untimedStage delivery.update).1.book rest := by
              intro quiet
              rw [next] at quiet
              exact loud ⟨fun _ => here, quiet⟩
            have bound := ih _ clean keeps tail later
            omega
          · have bound := original_length_le rest _ clean keeps tail
            simp only [here, ↓reduceIte]
            omega
      | false =>
          rw [original_cons_fresh delivery rest extra, Transducer.emitted_cons,
            List.length_append, untimedStage_length, same]
          have later : ¬ Quiet (full.untimedStage delivery.update).1.book rest := by
            intro quiet
            rw [next] at quiet
            exact loud ⟨fun positive => by simp [extra] at positive, quiet⟩
          have bound := ih (full.untimedStage delivery.update).1
            (clean.untimedStage delivery.update).1
            (by rw [next, untimedStage_book, same]) (by rw [next]; exact outrun.2) later
          omega

/-- Redeliveries are invisible in the signals, up to timestamps, exactly when
none of them meets a quote wide enough to trade on. -/
theorem redelivery_invisible_iff (nodeId : NodeId) (stream : List Delivery)
    (late : LateExtras stream) (clock clock' : Nat → TimestampNs) :
    (signals nodeId clock (received stream)).map Signal.untimed =
        (signals nodeId clock' (original stream)).map Signal.untimed ↔
      QuietRedeliveries stream := by
  have outrun : Outrun {} stream := outrun_of_lateExtras stream late [] stream rfl
  rw [signals_untimed, signals_untimed, ← quiet_iff_quietRedeliveries stream late]
  constructor
  · intro equal
    by_contra loud
    have longer := original_length_lt stream { nodeId } { nodeId } rfl outrun loud
    rw [equal] at longer
    exact Nat.lt_irrefl _ longer
  · exact emitted_quiet stream { nodeId } outrun

/-- One quote, delivered twice. -/
def repeated (quote : MarketDataUpdate) : List Delivery := [⟨quote, false⟩, ⟨quote, true⟩]

theorem repeated_lateExtras (quote : MarketDataUpdate) : LateExtras (repeated quote) := by
  intro before delivery after split extra
  rcases before with _ | ⟨first, _ | ⟨second, more⟩⟩
  · obtain ⟨rfl, -⟩ : ⟨quote, false⟩ = delivery ∧ _ = _ := List.cons.inj split
    cases extra
  · obtain ⟨rfl, rest⟩ : ⟨quote, false⟩ = first ∧ _ = _ := List.cons.inj split
    obtain ⟨rfl, -⟩ : ⟨quote, true⟩ = delivery ∧ _ = _ := List.cons.inj rest
    exact ⟨quote, List.mem_singleton_self quote, Nat.le_refl _⟩
  · simp [repeated] at split

theorem redelivery_invisible_narrow :
    (signals 2 id (received (repeated { bidPx := 10000, askPx := 10003 }))).map Signal.untimed =
      (signals 2 id (original (repeated { bidPx := 10000, askPx := 10003 }))).map
        Signal.untimed := by
  refine (redelivery_invisible_iff 2 _ (repeated_lateExtras _) id id).mpr ?_
  rw [← quiet_iff_quietRedeliveries _ (repeated_lateExtras _)]
  exact ⟨fun _ => by decide, fun _ => by decide, trivial⟩

/-- A repeated quote five ticks wide is traded on twice. -/
theorem redelivery_trades_twice :
    LateExtras (repeated { bidPx := 10000, askPx := 10005, exchangeSequence := 1 }) ∧
      (signals 2 id
        (received (repeated { bidPx := 10000, askPx := 10005, exchangeSequence := 1 }))).map
          Signal.untimed ≠
        (signals 2 id
          (original (repeated { bidPx := 10000, askPx := 10005, exchangeSequence := 1 }))).map
            Signal.untimed :=
  ⟨repeated_lateExtras _, by decide⟩

end TradingPlatform.Redelivery
