import TradingPlatform.Library.ByteSearch
import TradingPlatform.Library.OutputStream
import TradingPlatform.Library.UrlForm
import TradingPlatform.NumberParsing

set_option autoImplicit false

/- Orders to the Kraken demo exchange: the form body of a request and the price
in it. Signing and transport are functions of the surroundings. -/
namespace TradingPlatform

open Decimal
open OutputStream (Stream padded hexUnit)

structure KrakenDemoCredentials where
  apiKey : List UInt8
  apiSecretBase64 : List UInt8

structure KrakenDemoOrderRequest where
  symbol : List UInt8 := ascii "PI_XBTUSD"
  side : List UInt8 := ascii "buy"
  orderType : List UInt8 := ascii "lmt"
  size : List UInt8 := ascii "1"
  limitPrice : List UInt8 := ascii "1000"
  cliOrdId : List UInt8 := []
  deriving DecidableEq, Repr

structure KrakenDemoOrderResult where
  transportOk : Bool := false
  httpStatus : Int := 0
  krakenSuccess : Bool := false
  rawResponse : List UInt8 := []

/-! ### Text -/

/-- Letters, digits and four marks. -/
def isUnreserved (c : UInt8) : Bool :=
  ('A'.toUInt8 ≤ c && c ≤ 'Z'.toUInt8) || ('a'.toUInt8 ≤ c && c ≤ 'z'.toUInt8) ||
    ('0'.toUInt8 ≤ c && c ≤ '9'.toUInt8) ||
    c = '-'.toUInt8 || c = '_'.toUInt8 || c = '.'.toUInt8 || c = '~'.toUInt8

/-- One turn of the loop of `urlEncode`. The fill is not reset at its end. -/
def urlEncodeUnit (out : Stream) (c : UInt8) : Stream :=
  if isUnreserved c then out.put [c]
  else
    let out := out.put (ascii "%")
    let out := { out with uppercase := true, hex := true, width := 2, fill := '0'.toUInt8 }
    let out := out.putInt 32 c.toNat
    { out with uppercase := false, hex := false }

def urlEncode (s : List UInt8) : List UInt8 := (s.foldl urlEncodeUnit {}).text

def sideToKraken : Side → List UInt8
  | .buy => ascii "buy"
  | .sell => ascii "sell"

/-- A price in hundredths. -/
def ticksToPriceString (ticks : Price) : List UInt8 :=
  let oss : Stream := {}
  let oss := oss.putInt 64 (ticks / 100).toInt
  let oss := oss.put (ascii ".")
  let oss := { oss with width := 2, fill := '0'.toUInt8 }
  (oss.putInt 64 (ticks % 100).abs.toInt).text

/-! ### Requests -/

/-- The order of the fields is that of the signed text. -/
def KrakenDemoOrderRequest.postData (order : KrakenDemoOrderRequest) : List UInt8 :=
  let postData :=
    ascii "orderType=" ++ urlEncode order.orderType ++
      ascii "&symbol=" ++ urlEncode order.symbol ++
      ascii "&side=" ++ urlEncode order.side ++
      ascii "&size=" ++ urlEncode order.size ++
      ascii "&limitPrice=" ++ urlEncode order.limitPrice
  if !order.cliOrdId.isEmpty then postData ++ (ascii "&cliOrdId=" ++ urlEncode order.cliOrdId)
  else postData

def sendOrderEndpoint : List UInt8 := ascii "/derivatives/api/v3/sendorder"

structure HttpResponse where
  statusCode : Int := 0
  body : List UInt8 := []

/-- What the surroundings contribute to one request: the clock as text, the
signature of a body, and the exchange. -/
structure KrakenIo where
  currentTimeMillisString : List UInt8
  krakenFuturesAuthent : (postData nonce endpointPath apiSecretBase64 : List UInt8) → List UInt8
  postForm : (target body : List UInt8) → (headers : List (List UInt8 × List UInt8)) → HttpResponse

def sendLimitOrder (io : KrakenIo) (creds : KrakenDemoCredentials)
    (order : KrakenDemoOrderRequest) : KrakenDemoOrderResult :=
  let nonce := io.currentTimeMillisString
  let authent :=
    io.krakenFuturesAuthent order.postData nonce sendOrderEndpoint creds.apiSecretBase64
  if authent.isEmpty then { rawResponse := ascii "authent generation failed" }
  else
    let response := io.postForm sendOrderEndpoint order.postData
      [(ascii "APIKey", creds.apiKey), (ascii "Nonce", nonce), (ascii "Authent", authent)]
    { transportOk := 200 ≤ response.statusCode && response.statusCode < 300
      httpStatus := response.statusCode
      krakenSuccess :=
        (ByteSearch.find (ascii "\"result\":\"success\"") response.body).isSome ||
          (ByteSearch.find (ascii "\"result\": \"success\"") response.body).isSome
      rawResponse := response.body }

/-- The size is always one contract, whatever the quantity of the order. -/
def demoLimitRequest (order : NewOrder) (krakenSymbol currentTimeMillisString : List UInt8) :
    KrakenDemoOrderRequest where
  symbol := krakenSymbol
  side := sideToKraken order.side
  orderType := ascii "lmt"
  size := ascii "1"
  limitPrice := ticksToPriceString order.limitPx
  cliOrdId := ascii "llt-" ++ render order.clientOrderId ++ ascii "-" ++ currentTimeMillisString

/-- The clock is read once for the identifier and once for the nonce. -/
def sendInternalOrderAsDemoLimit (io : KrakenIo) (creds : KrakenDemoCredentials)
    (order : NewOrder) (krakenSymbol currentTimeMillisString : List UInt8) :
    KrakenDemoOrderResult :=
  sendLimitOrder io creds (demoLimitRequest order krakenSymbol currentTimeMillisString)

example : ticksToPriceString 8153183 = ascii "81531.83" := by decide +kernel
example : urlEncode (ascii "a b&c") = ascii "a%20b%26c" := by decide +kernel

/-! ### The encoding is read back -/

/-- What a unit is encoded as. -/
def encodedUnit (c : UInt8) : List UInt8 :=
  if isUnreserved c then [c]
  else [UrlForm.percent, hexUnit (c.toNat / 16), hexUnit (c.toNat % 16)]

/-- A turn appends the encoding of its unit, whatever flags the last one left. -/
theorem urlEncodeUnit_text (out : Stream) (c : UInt8) (rest : out.width = 0) :
    (urlEncodeUnit out c).text = out.text ++ encodedUnit c ∧ (urlEncodeUnit out c).width = 0 := by
  unfold urlEncodeUnit encodedUnit
  split
  · refine ⟨?_, rfl⟩
    simp only [Stream.put, rest, OutputStream.padded_zero]
  · have word : ((c.toNat : Int) % 2 ^ 32).toNat = c.toNat := by
      have small := c.toNat_lt
      omega
    refine ⟨?_, rfl⟩
    simp only [Stream.put, Stream.putInt, rest, OutputStream.padded_zero, word, ↓reduceIte,
      OutputStream.padded_renderHex, List.append_assoc]
    exact rfl

theorem urlEncode_eq (s : List UInt8) : urlEncode s = s.flatMap encodedUnit := by
  have turns : ∀ (s : List UInt8) (out : Stream), out.width = 0 →
      (s.foldl urlEncodeUnit out).text = out.text ++ s.flatMap encodedUnit := by
    intro s
    induction s with
    | nil => exact fun out _ => (List.append_nil _).symm
    | cons c s ih =>
        intro out rest
        obtain ⟨text, width⟩ := urlEncodeUnit_text out c rest
        rw [List.foldl_cons, ih _ width, text, List.flatMap_cons, List.append_assoc]
  exact turns s {} rfl

theorem unreserved_apart (c : UInt8) (unreserved : isUnreserved c = true) :
    c ≠ UrlForm.percent ∧ c ≠ UrlForm.ampersand ∧ c ≠ UrlForm.plus := by
  refine ⟨?_, ?_, ?_⟩ <;>
  · rintro rfl
    exact absurd unreserved (by decide)

/-- A digit is read as its value, and is no delimiter. -/
theorem hexUnit_read (digit : Nat) (small : digit < 16) :
    UrlForm.hexValue (hexUnit digit) = some digit ∧ hexUnit digit ≠ UrlForm.ampersand := by
  have each : ∀ digit : Fin 16, UrlForm.hexValue (hexUnit digit) = some digit.val ∧
      hexUnit digit ≠ UrlForm.ampersand := by decide
  exact each ⟨digit, small⟩

theorem decode_encodedUnit (c : UInt8) (rest : List UInt8) :
    UrlForm.decodeComponent (encodedUnit c ++ rest) = c :: UrlForm.decodeComponent rest := by
  unfold encodedUnit
  split
  · rename_i unreserved
    obtain ⟨notPercent, -, notPlus⟩ := unreserved_apart c unreserved
    exact UrlForm.decodeComponent_cons c rest notPercent notPlus
  · have small := c.toNat_lt
    have high := (hexUnit_read (c.toNat / 16) (by omega)).1
    have low := (hexUnit_read (c.toNat % 16) (by omega)).1
    have whole : c.toNat / 16 * 16 + c.toNat % 16 = c.toNat := by omega
    apply UrlForm.decodeComponent_escape
    rw [UrlForm.escaped, high, low, Option.bind_some, Option.map_some, whole, UInt8.ofNat_toNat]

theorem ampersand_not_mem_encodedUnit (c : UInt8) : UrlForm.ampersand ∉ encodedUnit c := by
  unfold encodedUnit
  split
  · rename_i unreserved
    intro member
    exact (unreserved_apart c unreserved).2.1 (List.mem_singleton.mp member).symm
  · have small := c.toNat_lt
    have high := (hexUnit_read (c.toNat / 16) (by omega)).2
    have low := (hexUnit_read (c.toNat % 16) (by omega)).2
    simp only [List.mem_cons, List.not_mem_nil, or_false, not_or]
    exact ⟨by decide, high.symm, low.symm⟩

def urlEncoding : UrlForm.Encoding where
  encode := urlEncode
  decode_encode := by
    intro text
    rw [urlEncode_eq]
    induction text with
    | nil => exact rfl
    | cons c text ih => rw [List.flatMap_cons, decode_encodedUnit, ih]
  noAmpersand := by
    intro text member
    rw [urlEncode_eq] at member
    obtain ⟨c, -, inside⟩ := List.mem_flatMap.mp member
    exact ampersand_not_mem_encodedUnit c inside

/-! ### The body is read back -/

namespace KrakenDemoOrderRequest

/-- The names and values of a request. -/
def fields (order : KrakenDemoOrderRequest) : List (List UInt8 × List UInt8) :=
  [(ascii "orderType", order.orderType), (ascii "symbol", order.symbol),
    (ascii "side", order.side), (ascii "size", order.size),
    (ascii "limitPrice", order.limitPrice)] ++
      if order.cliOrdId = [] then [] else [(ascii "cliOrdId", order.cliOrdId)]

theorem postData_eq (order : KrakenDemoOrderRequest) :
    order.postData =
      [UrlForm.ampersand].intercalate (order.fields.map urlEncoding.field) := by
  have orderType : ascii "orderType=" = ascii "orderType" ++ [UrlForm.equals] := by decide
  have symbol : ascii "&symbol=" = UrlForm.ampersand :: (ascii "symbol" ++ [UrlForm.equals]) := by
    decide
  have side : ascii "&side=" = UrlForm.ampersand :: (ascii "side" ++ [UrlForm.equals]) := by decide
  have size : ascii "&size=" = UrlForm.ampersand :: (ascii "size" ++ [UrlForm.equals]) := by decide
  have limitPrice : ascii "&limitPrice=" =
      UrlForm.ampersand :: (ascii "limitPrice" ++ [UrlForm.equals]) := by decide
  have cliOrdId : ascii "&cliOrdId=" =
      UrlForm.ampersand :: (ascii "cliOrdId" ++ [UrlForm.equals]) := by decide
  have encode : urlEncoding.encode = urlEncode := rfl
  unfold postData fields
  rw [orderType, symbol, side, size, limitPrice, cliOrdId]
  cases given : order.cliOrdId with
  | nil =>
      simp only [List.isEmpty_nil, Bool.not_true, Bool.false_eq_true, ↓reduceIte, List.append_nil,
        List.map_cons, List.map_nil, List.intercalate_cons_cons, List.intercalate_singleton,
        UrlForm.Encoding.field, encode, List.append_assoc, List.cons_append, List.nil_append]
  | cons c rest =>
      simp only [List.isEmpty_cons, Bool.not_false, ↓reduceIte, reduceCtorEq, List.map_cons,
        List.map_nil, List.intercalate_cons_cons, List.intercalate_singleton,
        UrlForm.Encoding.field, encode, List.append_assoc, List.cons_append, List.nil_append]

theorem fields_injective : Function.Injective fields := by
  intro order other same
  unfold fields at same
  obtain ⟨symbol, side, orderType, size, limitPrice, cliOrdId⟩ := order
  obtain ⟨symbol', side', orderType', size', limitPrice', cliOrdId'⟩ := other
  cases cliOrdId with
  | nil =>
      cases cliOrdId' with
      | nil => simpa [and_left_comm, and_comm] using same
      | cons c rest => simp at same
  | cons c rest =>
      cases cliOrdId' with
      | nil => simp at same
      | cons c' rest' => simpa [and_left_comm, and_comm] using same

theorem fields_plain (order : KrakenDemoOrderRequest) :
    ∀ field ∈ order.fields, UrlForm.Plain field.1 := by
  have names : ∀ name ∈ [ascii "orderType", ascii "symbol", ascii "side", ascii "size",
      ascii "limitPrice", ascii "cliOrdId"], UrlForm.Plain name := by decide
  intro field member
  apply names
  rcases List.mem_append.mp member with always | optional
  · exact List.mem_append_left [ascii "cliOrdId"] (List.mem_map.mpr ⟨field, always, rfl⟩)
  · split at optional
    · cases optional
    · rw [List.mem_singleton.mp optional]
      exact List.mem_append_right [_, _, _, _, _] (List.mem_singleton_self _)

/-- The body of a request holds its fields and nothing else, whatever bytes they
consist of, and no two requests share one. -/
theorem postData_form :
    (∀ order : KrakenDemoOrderRequest, UrlForm.parse order.postData = order.fields) ∧
      Function.Injective postData := by
  have read : ∀ order : KrakenDemoOrderRequest, UrlForm.parse order.postData = order.fields := by
    intro order
    rw [postData_eq]
    exact UrlForm.parse_fields urlEncoding order.fields (List.append_ne_nil_of_left_ne_nil
      (List.cons_ne_nil _ _) _) order.fields_plain
  refine ⟨read, ?_⟩
  intro order other same
  apply fields_injective
  rw [← read order, ← read other, same]

end KrakenDemoOrderRequest

end TradingPlatform
