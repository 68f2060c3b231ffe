import Mathlib.Data.Finset.Basic

set_option autoImplicit false

/- The message types shared by every component. Prices and quantities are the
signed machine words of the source, because the risk check multiplies them.
Sequences, order identifiers and clock readings are only incremented, copied and
compared, and are natural numbers here. `CounterBounds` shows that none of those
that are given out reaches 2^64 in a run of fewer than 2^60 steps. -/
namespace TradingPlatform

abbrev SymbolId := UInt32
abbrev OrderId := Nat
abbrev ClientOrderId := Nat
abbrev Sequence := Nat
abbrev Price := Int64
abbrev Quantity := Int64
abbrev NodeId := UInt32
abbrev TimestampNs := Nat

inductive Side where
  | buy
  | sell
  deriving DecidableEq, Repr, Inhabited

inductive MsgType where
  | unknown
  | marketData
  | signal
  | newOrder
  | cancelOrder
  | ack
  | fill
  | reject
  | heartbeat
  | riskState
  deriving DecidableEq, Repr, Inhabited

inductive NodeRole where
  | marketData
  | strategy
  | oms
  | gateway
  | simulator
  deriving DecidableEq, Repr, Inhabited

inductive OrderState where
  | new
  | accepted
  | rejected
  | live
  | filled
  | cancelled
  deriving DecidableEq, Repr, Inhabited

inductive RejectReason where
  | none
  | riskLimit
  | duplicateOrder
  | staleMarketData
  | gatewayUnavailable
  | networkPartition
  deriving DecidableEq, Repr, Inhabited

/-- `SYMBOL_LEN` bytes, padded with zeros behind the terminator. -/
structure Symbol where
  value : Vector UInt8 16 := Vector.replicate 16 0
  deriving DecidableEq, Repr, Inhabited

structure MessageHeader where
  type : MsgType := .unknown
  sourceNode : NodeId := 0
  destinationNode : NodeId := 0
  sequence : Sequence := 0
  sendTsNs : TimestampNs := 0
  recvTsNs : TimestampNs := 0
  deriving DecidableEq, Repr, Inhabited

structure MarketDataUpdate where
  header : MessageHeader := {}
  symbolId : SymbolId := 0
  symbol : Symbol := {}
  bidPx : Price := 0
  bidQty : Quantity := 0
  askPx : Price := 0
  askQty : Quantity := 0
  exchangeSequence : Sequence := 0
  deriving DecidableEq, Repr, Inhabited

structure Signal where
  header : MessageHeader := {}
  symbolId : SymbolId := 0
  side : Side := .buy
  limitPx : Price := 0
  qty : Quantity := 0
  confidenceBps : Int32 := 0
  deriving DecidableEq, Repr, Inhabited

structure NewOrder where
  header : MessageHeader := {}
  clientOrderId : ClientOrderId := 0
  symbolId : SymbolId := 0
  side : Side := .buy
  limitPx : Price := 0
  qty : Quantity := 0
  deriving DecidableEq, Repr, Inhabited

structure Ack where
  header : MessageHeader := {}
  clientOrderId : ClientOrderId := 0
  exchangeOrderId : OrderId := 0
  state : OrderState := .accepted
  deriving DecidableEq, Repr, Inhabited

structure Reject where
  header : MessageHeader := {}
  clientOrderId : ClientOrderId := 0
  reason : RejectReason := .none
  deriving DecidableEq, Repr, Inhabited

structure Fill where
  header : MessageHeader := {}
  clientOrderId : ClientOrderId := 0
  exchangeOrderId : OrderId := 0
  fillPx : Price := 0
  fillQty : Quantity := 0
  deriving DecidableEq, Repr, Inhabited

structure Heartbeat where
  header : MessageHeader := {}
  role : NodeRole := .simulator
  lastSeenNs : TimestampNs := 0
  deriving DecidableEq, Repr, Inhabited

structure RiskState where
  header : MessageHeader := {}
  currentPosition : Quantity := 0
  maxPosition : Quantity := 0
  tradingEnabled : Bool := true
  deriving DecidableEq, Repr, Inhabited

/-- The tagged union. The tag and the active member cannot disagree; the two
tags without a member carry no payload. -/
inductive Envelope where
  | unknown
  | marketData (update : MarketDataUpdate)
  | signal (signal : Signal)
  | newOrder (order : NewOrder)
  | cancelOrder
  | ack (ack : Ack)
  | fill (fill : Fill)
  | reject (reject : Reject)
  | heartbeat (heartbeat : Heartbeat)
  | riskState (state : RiskState)
  deriving DecidableEq, Repr, Inhabited

def Envelope.type : Envelope → MsgType
  | .unknown => .unknown
  | .marketData _ => .marketData
  | .signal _ => .signal
  | .newOrder _ => .newOrder
  | .cancelOrder => .cancelOrder
  | .ack _ => .ack
  | .fill _ => .fill
  | .reject _ => .reject
  | .heartbeat _ => .heartbeat
  | .riskState _ => .riskState

def Envelope.marketData? : Envelope → Option MarketDataUpdate
  | .marketData update => some update
  | _ => none

def Envelope.signal? : Envelope → Option Signal
  | .signal message => some message
  | _ => none

def Envelope.newOrder? : Envelope → Option NewOrder
  | .newOrder order => some order
  | _ => none

/-- The order that a gateway response is about. -/
def Envelope.answeredId : Envelope → Option ClientOrderId
  | .ack answer => some answer.clientOrderId
  | .reject answer => some answer.clientOrderId
  | _ => none

theorem Envelope.newOrder?_of_answeredId (envelope : Envelope)
    (answer : envelope.answeredId ≠ none) : envelope.newOrder? = none := by
  cases envelope with
  | newOrder order => exact absurd rfl answer
  | _ => rfl

/-! ### Messages up to timestamps -/

/-- The header with both clock readings erased. -/
def MessageHeader.untimed (h : MessageHeader) : MessageHeader :=
  { h with sendTsNs := 0, recvTsNs := 0 }

def Signal.untimed (s : Signal) : Signal := { s with header := s.header.untimed }
def NewOrder.untimed (o : NewOrder) : NewOrder := { o with header := o.header.untimed }
def Ack.untimed (a : Ack) : Ack := { a with header := a.header.untimed }
def Reject.untimed (r : Reject) : Reject := { r with header := r.header.untimed }

/-- Erasure on the messages the components exchange behind the strategy. -/
def Envelope.untimed : Envelope → Envelope
  | .signal s => .signal s.untimed
  | .newOrder o => .newOrder o.untimed
  | .ack a => .ack a.untimed
  | .reject r => .reject r.untimed
  | e => e

end TradingPlatform
