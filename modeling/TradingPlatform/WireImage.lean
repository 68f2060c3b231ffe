import TradingPlatform.Library.ByteCodec
import TradingPlatform.Wire

set_option autoImplicit false

/- The object representation of messages: every member little-endian at its
offset. The padding of a typed message holds whatever was there; zero is written
for it here, and no reader looks at it. Counters appear modulo the width of their
words. -/
namespace TradingPlatform

open ByteCodec (leBytes)
open Wire (payloadSizeForType)

def Side.code : Side → UInt8
  | .buy => 1
  | .sell => 2

def NodeRole.code : NodeRole → UInt8
  | .marketData => 1
  | .strategy => 2
  | .oms => 3
  | .gateway => 4
  | .simulator => 5

def OrderState.code : OrderState → UInt8
  | .new => 1
  | .accepted => 2
  | .rejected => 3
  | .live => 4
  | .filled => 5
  | .cancelled => 6

def RejectReason.code : RejectReason → UInt8
  | .none => 0
  | .riskLimit => 1
  | .duplicateOrder => 2
  | .staleMarketData => 3
  | .gatewayUnavailable => 4
  | .networkPartition => 5

namespace Wire

def padding (count : Nat) : List UInt8 := List.replicate count 0

def signed (value : Int64) : List UInt8 := leBytes 8 value.toUInt64.toNat

def headerImage (header : MessageHeader) : List UInt8 :=
  [header.type.code] ++ padding 3 ++ leBytes 4 header.sourceNode.toNat ++
    leBytes 4 header.destinationNode.toNat ++ padding 4 ++ leBytes 8 header.sequence ++
    leBytes 8 header.sendTsNs ++ leBytes 8 header.recvTsNs

def payloadImage : TradingPlatform.Envelope → List UInt8
  | .marketData update =>
      headerImage update.header ++ leBytes 4 update.symbolId.toNat ++
        update.symbol.value.toList ++ padding 4 ++ signed update.bidPx ++ signed update.bidQty ++
        signed update.askPx ++ signed update.askQty ++ leBytes 8 update.exchangeSequence
  | .signal signal =>
      headerImage signal.header ++ leBytes 4 signal.symbolId.toNat ++ [signal.side.code] ++
        padding 3 ++ signed signal.limitPx ++ signed signal.qty ++
        leBytes 4 signal.confidenceBps.toUInt32.toNat ++ padding 4
  | .newOrder order =>
      headerImage order.header ++ leBytes 8 order.clientOrderId ++
        leBytes 4 order.symbolId.toNat ++ [order.side.code] ++ padding 3 ++
        signed order.limitPx ++ signed order.qty
  | .ack ack =>
      headerImage ack.header ++ leBytes 8 ack.clientOrderId ++ leBytes 8 ack.exchangeOrderId ++
        [ack.state.code] ++ padding 7
  | .fill fill =>
      headerImage fill.header ++ leBytes 8 fill.clientOrderId ++ leBytes 8 fill.exchangeOrderId ++
        signed fill.fillPx ++ signed fill.fillQty
  | .reject reject =>
      headerImage reject.header ++ leBytes 8 reject.clientOrderId ++ [reject.reason.code] ++
        padding 7
  | .heartbeat heartbeat =>
      headerImage heartbeat.header ++ [heartbeat.role.code] ++ padding 7 ++
        leBytes 8 heartbeat.lastSeenNs
  | .riskState state =>
      headerImage state.header ++ signed state.currentPosition ++ signed state.maxPosition ++
        [if state.tradingEnabled then 1 else 0] ++ padding 7
  | .unknown => []
  | .cancelOrder => []

@[simp] theorem padding_length (count : Nat) : (padding count).length = count :=
  List.length_replicate

@[simp] theorem signed_length (value : Int64) : (signed value).length = 8 :=
  ByteCodec.leBytes_length 8 _

@[simp] theorem headerImage_length (header : MessageHeader) :
    (headerImage header).length = 40 := by
  simp [headerImage]

/-- The members and the padding add up to the size of the struct. -/
theorem payloadImage_length (envelope : TradingPlatform.Envelope) :
    (payloadImage envelope).length = payloadSizeForType envelope.type.code := by
  cases envelope with
  | unknown => rfl
  | cancelOrder => rfl
  | _ => simp [payloadImage]; rfl

/-- An envelope at the level of bytes. -/
def ofEnvelope (envelope : TradingPlatform.Envelope) : Envelope where
  type := envelope.type.code
  payload := payloadImage envelope
  sized := payloadImage_length envelope

/-- All bytes of an envelope: the tag, and the union of the largest member. -/
def envelopeImage (envelope : TradingPlatform.Envelope) : List UInt8 :=
  [envelope.type.code] ++ padding 7 ++ (payloadImage envelope).takeD 104 0

/-- The size that a replay record states for its envelope. -/
theorem envelopeImage_length (envelope : TradingPlatform.Envelope) :
    (envelopeImage envelope).length = 112 := by
  simp only [envelopeImage, List.length_append, List.length_singleton, padding_length,
    List.takeD_length]

end Wire
end TradingPlatform
