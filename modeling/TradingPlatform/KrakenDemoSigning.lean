import TradingPlatform.KrakenDemoPrice

set_option autoImplicit false

/- What the exchange can tell from the signed text of an order. -/
namespace TradingPlatform

open Decimal

/-- The text that `kraken_futures_authent` hashes and signs. -/
def authentMessage (postData nonce endpointPath : List UInt8) : List UInt8 :=
  postData ++ nonce ++ endpointPath

/-! ### Prices -/

/-- The price that the text of a price stands for. -/
theorem parse_price (ticks : Price) :
    (parsePriceToTicks (ticksToPriceString ticks)).toInt =
      if ticks.toInt ≤ -100 then ticks.toInt else ticks.toInt.natAbs := by
  rw [parse_ticksToPriceString]
  by_cases least : ticks = Int64.minValue
  · subst least
    decide
  · have low := ticks.le_toInt
    have high := ticks.toInt_lt
    have other : ticks.toInt ≠ -2 ^ 63 := fun same => least (Int64.toInt_inj.mp same)
    have small : ticks.toInt.natAbs < 2 ^ 63 := by omega
    have read := toInt_signed (decide (ticks.toInt ≤ -100)) _ small
    simp only [decide_eq_true_eq] at read
    rw [read]
    split <;> omega

/-- Two prices have one text exactly if they are equal, or if they differ in the sign
that prices of less than one unit lose. -/
theorem ticksToPriceString_eq_iff (ticks other : Price) :
    ticksToPriceString ticks = ticksToPriceString other ↔
      ticks = other ∨ (ticks.toInt = -other.toInt ∧ ticks.toInt.natAbs < 100) := by
  constructor
  · intro same
    have prices := parse_price ticks
    rw [same, parse_price other] at prices
    rw [← Int64.toInt_inj]
    split at prices <;> split at prices <;> omega
  · rintro (rfl | ⟨negated, small⟩)
    · rfl
    · have size : ticks.toInt.natAbs = other.toInt.natAbs := by omega
      have sign : decide (ticks.toInt ≤ -100) = decide (other.toInt ≤ -100) := by
        rw [decide_eq_false (by omega), decide_eq_false (by omega)]
      rw [ticksToPriceString_text, ticksToPriceString_text]
      simp only [priceNumeral, size, sign]

/-! ### Identifiers -/

theorem render_injective : Function.Injective render := by
  intro number other same
  rw [← value_render number, same, value_render]

/-- The number of an order ends at the first dash behind it, whatever the clock says. -/
theorem numbered_inj {number other : Nat} {time later : List UInt8}
    (same : render number ++ '-'.toUInt8 :: time = render other ++ '-'.toUInt8 :: later) :
    number = other ∧ time = later := by
  have noDash : ∀ number, '-'.toUInt8 ∉ render number := by
    intro number member
    exact absurd (render_digits number _ member) (by decide)
  have read := congrArg (Delimited.cut '-'.toUInt8) same
  rw [Delimited.cut_append _ _ (noDash number), Delimited.cut_append _ _ (noDash other)] at read
  simp only [Option.some.injEq, Prod.mk.injEq] at read
  exact ⟨render_injective read.1, read.2⟩

theorem cliOrdId_eq_iff (number other : Nat) (time later : List UInt8) :
    ascii "llt-" ++ render number ++ ascii "-" ++ time =
        ascii "llt-" ++ render other ++ ascii "-" ++ later ↔
      number = other ∧ time = later := by
  have dash : ascii "-" = ['-'.toUInt8] := by decide
  constructor
  · intro same
    simp only [List.append_assoc, List.append_cancel_left_eq, dash, List.singleton_append] at same
    exact numbered_inj same
  · rintro ⟨rfl, rfl⟩
    rfl

theorem sideToKraken_injective : Function.Injective sideToKraken := by
  intro side other same
  cases side <;> cases other <;> first | rfl | exact absurd same (by decide)

/-! ### Bodies and signed texts -/

theorem postData_injective : Function.Injective KrakenDemoOrderRequest.postData := by
  have read : ∀ order : KrakenDemoOrderRequest, UrlForm.parse order.postData = order.fields := by
    intro order
    rw [KrakenDemoOrderRequest.postData_eq]
    apply UrlForm.parse_fields urlEncoding order.fields _ order.fields_plain
    exact List.append_ne_nil_of_left_ne_nil (List.cons_ne_nil _ _) _
  intro order other same
  apply KrakenDemoOrderRequest.fields_injective
  rw [← read order, same, read other]

/-- The signed text of an internal order, as it goes out at a time. -/
def signedOrder (order : NewOrder) (krakenSymbol time nonce : List UInt8) : List UInt8 :=
  authentMessage (demoLimitRequest order krakenSymbol time).postData nonce sendOrderEndpoint

/-- `sign` is the rest of `kraken_futures_authent`, from the hash on. -/
def KrakenIo.Signs (io : KrakenIo) (sign : (message apiSecretBase64 : List UInt8) → List UInt8) :
    Prop :=
  ∀ postData nonce endpointPath apiSecretBase64,
    io.krakenFuturesAuthent postData nonce endpointPath apiSecretBase64 =
      sign (authentMessage postData nonce endpointPath) apiSecretBase64

/-- An order goes out as the form that was signed, with the signature of its text: an
exchange need not answer anything else. -/
theorem sendInternalOrder_signed (io : KrakenIo) (creds : KrakenDemoCredentials)
    (sign : List UInt8 → List UInt8 → List UInt8) (signs : io.Signs sign) (order : NewOrder)
    (krakenSymbol time : List UInt8)
    (postForm : List UInt8 → List UInt8 → List (List UInt8 × List UInt8) → HttpResponse)
    (agree : postForm sendOrderEndpoint (demoLimitRequest order krakenSymbol time).postData
        [(ascii "APIKey", creds.apiKey), (ascii "Nonce", io.currentTimeMillisString),
          (ascii "Authent",
            sign (signedOrder order krakenSymbol time io.currentTimeMillisString)
              creds.apiSecretBase64)] =
      io.postForm sendOrderEndpoint (demoLimitRequest order krakenSymbol time).postData
        [(ascii "APIKey", creds.apiKey), (ascii "Nonce", io.currentTimeMillisString),
          (ascii "Authent",
            sign (signedOrder order krakenSymbol time io.currentTimeMillisString)
              creds.apiSecretBase64)]) :
    sendInternalOrderAsDemoLimit { io with postForm := postForm } creds order krakenSymbol time =
      sendInternalOrderAsDemoLimit io creds order krakenSymbol time := by
  have signature := signs (demoLimitRequest order krakenSymbol time).postData
    io.currentTimeMillisString sendOrderEndpoint creds.apiSecretBase64
  rw [← signedOrder] at signature
  unfold sendInternalOrderAsDemoLimit sendLimitOrder
  dsimp only
  rw [signature, agree]

/-- The signed text tells the exchange the symbol, the side, the number of the order,
both readings of the clock, and the price up to the sign of less than one unit. It
says nothing of the quantity. Nothing delimits the nonce, so that its length has to
be known. -/
theorem signedOrder_eq_iff (order other : NewOrder)
    (symbol symbol' time time' nonce nonce' : List UInt8) (width : nonce.length = nonce'.length) :
    signedOrder order symbol time nonce = signedOrder other symbol' time' nonce' ↔
      symbol = symbol' ∧ order.side = other.side ∧
        (order.limitPx = other.limitPx ∨
          (order.limitPx.toInt = -other.limitPx.toInt ∧ order.limitPx.toInt.natAbs < 100)) ∧
        order.clientOrderId = other.clientOrderId ∧ time = time' ∧ nonce = nonce' := by
  have bodies : (demoLimitRequest order symbol time).postData =
        (demoLimitRequest other symbol' time').postData ↔
      symbol = symbol' ∧ order.side = other.side ∧
        (order.limitPx = other.limitPx ∨
          (order.limitPx.toInt = -other.limitPx.toInt ∧ order.limitPx.toInt.natAbs < 100)) ∧
        order.clientOrderId = other.clientOrderId ∧ time = time' := by
    rw [postData_injective.eq_iff, ← ticksToPriceString_eq_iff, ← cliOrdId_eq_iff,
      ← sideToKraken_injective.eq_iff, demoLimitRequest, demoLimitRequest]
    simp only [KrakenDemoOrderRequest.mk.injEq, true_and]
  constructor
  · intro same
    have texts := List.append_cancel_right same
    obtain ⟨body, nonces⟩ := List.append_inj' texts width
    have ⟨symbols, sides, prices, numbers, times⟩ := bodies.mp body
    exact ⟨symbols, sides, prices, numbers, times, nonces⟩
  · rintro ⟨symbols, sides, prices, numbers, times, nonces⟩
    rw [signedOrder, signedOrder, bodies.mpr ⟨symbols, sides, prices, numbers, times⟩, nonces]

theorem signedOrder_eq_iff_quantities :
    signedOrder { clientOrderId := 7, limitPx := 8153183, qty := 2 } (ascii "PI_XBTUSD")
        (ascii "1700000000000") (ascii "1700000000001") =
      signedOrder { clientOrderId := 7, limitPx := 8153183, qty := 1 } (ascii "PI_XBTUSD")
        (ascii "1700000000000") (ascii "1700000000001") :=
  (signedOrder_eq_iff { clientOrderId := 7, limitPx := 8153183, qty := 2 }
    { clientOrderId := 7, limitPx := 8153183, qty := 1 } _ _ _ _ _ _ rfl).mpr
    ⟨rfl, rfl, Or.inl rfl, rfl, rfl, rfl⟩

/-- Nonces of two lengths. -/
example : signedOrder {} (ascii "PI_XBTUSD") (ascii "17000") (ascii "17001") =
    signedOrder {} (ascii "PI_XBTUSD") (ascii "170001") (ascii "7001") := by
  decide +kernel

end TradingPlatform
