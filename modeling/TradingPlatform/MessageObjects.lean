import TradingPlatform.Library.ObjectImage
import TradingPlatform.WireImage

set_option autoImplicit false

/- The messages read from their object representations, as the receiving side
does that copies the bytes into a union member. Counters are read back when they
fit their 64-bit words. -/
namespace TradingPlatform

open ByteCodec (Image leBytes)
open StructLayout (Place places structSize)

namespace Wire

/-! ### The members -/

def msgTypeObject : Image MsgType :=
  .enumeration [.unknown, .marketData, .signal, .newOrder, .cancelOrder, .ack, .fill, .reject,
    .heartbeat, .riskState] (fun value => by cases value <;> decide) MsgType.code (by decide)

def sideObject : Image Side :=
  .enumeration [.buy, .sell] (fun value => by cases value <;> decide) Side.code (by decide)

def nodeRoleObject : Image NodeRole :=
  .enumeration [.marketData, .strategy, .oms, .gateway, .simulator]
    (fun value => by cases value <;> decide) NodeRole.code (by decide)

def orderStateObject : Image OrderState :=
  .enumeration [.new, .accepted, .rejected, .live, .filled, .cancelled]
    (fun value => by cases value <;> decide) OrderState.code (by decide)

def rejectReasonObject : Image RejectReason :=
  .enumeration [.none, .riskLimit, .duplicateOrder, .staleMarketData, .gatewayUnavailable,
    .networkPartition] (fun value => by cases value <;> decide) RejectReason.code (by decide)

def boolObject : Image Bool :=
  .enumeration [false, true] (fun value => by cases value <;> decide)
    (fun value => if value then 1 else 0) (by decide)

def u32Object : Image UInt32 := .ofCodec .u32

def signedObject : Image Int64 :=
  (Image.ofCodec .u64).transport
    ⟨UInt64.toInt64, Int64.toUInt64, UInt64.toUInt64_toInt64, Int64.toInt64_toUInt64⟩

def int32Object : Image Int32 :=
  u32Object.transport
    ⟨UInt32.toInt32, Int32.toUInt32, UInt32.toUInt32_toInt32, Int32.toInt32_toUInt32⟩

def symbolObject : Image Symbol :=
  (Image.array 16).transport ⟨Symbol.mk, Symbol.value, fun _ => rfl, fun _ => rfl⟩

def counterObject : Image Nat := .counter 8

/-! ### The structs -/

def headerObject : Image MessageHeader :=
  (msgTypeObject.pair <| (Image.padding 3).pair <| u32Object.pair <| u32Object.pair <|
    (Image.padding 4).pair <| counterObject.pair <| counterObject.pair counterObject).transport
    { toFun := fun (type, _, source, destination, _, sequence, sent, received) =>
        ⟨type, source, destination, sequence, sent, received⟩
      invFun := fun header =>
        (header.type, (), header.sourceNode, header.destinationNode, (), header.sequence,
          header.sendTsNs, header.recvTsNs)
      left_inv := fun _ => rfl
      right_inv := fun _ => rfl }

def marketDataObject : Image MarketDataUpdate :=
  (headerObject.pair <| u32Object.pair <| symbolObject.pair <| (Image.padding 4).pair <|
    signedObject.pair <| signedObject.pair <| signedObject.pair <|
    signedObject.pair counterObject).transport
    { toFun := fun (header, id, symbol, _, bidPx, bidQty, askPx, askQty, sequence) =>
        ⟨header, id, symbol, bidPx, bidQty, askPx, askQty, sequence⟩
      invFun := fun update =>
        (update.header, update.symbolId, update.symbol, (), update.bidPx, update.bidQty,
          update.askPx, update.askQty, update.exchangeSequence)
      left_inv := fun _ => rfl
      right_inv := fun _ => rfl }

def signalObject : Image Signal :=
  (headerObject.pair <| u32Object.pair <| sideObject.pair <| (Image.padding 3).pair <|
    signedObject.pair <| signedObject.pair <| int32Object.pair <| Image.padding 4).transport
    { toFun := fun (header, id, side, _, limitPx, qty, confidence, _) =>
        ⟨header, id, side, limitPx, qty, confidence⟩
      invFun := fun signal =>
        (signal.header, signal.symbolId, signal.side, (), signal.limitPx, signal.qty,
          signal.confidenceBps, ())
      left_inv := fun _ => rfl
      right_inv := fun _ => rfl }

def newOrderObject : Image NewOrder :=
  (headerObject.pair <| counterObject.pair <| u32Object.pair <| sideObject.pair <|
    (Image.padding 3).pair <| signedObject.pair signedObject).transport
    { toFun := fun (header, id, symbolId, side, _, limitPx, qty) =>
        ⟨header, id, symbolId, side, limitPx, qty⟩
      invFun := fun order =>
        (order.header, order.clientOrderId, order.symbolId, order.side, (), order.limitPx,
          order.qty)
      left_inv := fun _ => rfl
      right_inv := fun _ => rfl }

def ackObject : Image Ack :=
  (headerObject.pair <| counterObject.pair <| counterObject.pair <|
    orderStateObject.pair <| Image.padding 7).transport
    { toFun := fun (header, id, exchangeId, state, _) => ⟨header, id, exchangeId, state⟩
      invFun := fun ack => (ack.header, ack.clientOrderId, ack.exchangeOrderId, ack.state, ())
      left_inv := fun _ => rfl
      right_inv := fun _ => rfl }

def fillObject : Image Fill :=
  (headerObject.pair <| counterObject.pair <| counterObject.pair <|
    signedObject.pair signedObject).transport
    { toFun := fun (header, id, exchangeId, px, qty) => ⟨header, id, exchangeId, px, qty⟩
      invFun := fun fill =>
        (fill.header, fill.clientOrderId, fill.exchangeOrderId, fill.fillPx, fill.fillQty)
      left_inv := fun _ => rfl
      right_inv := fun _ => rfl }

def rejectObject : Image Reject :=
  (headerObject.pair <| counterObject.pair <| rejectReasonObject.pair <|
    Image.padding 7).transport
    { toFun := fun (header, id, reason, _) => ⟨header, id, reason⟩
      invFun := fun reject => (reject.header, reject.clientOrderId, reject.reason, ())
      left_inv := fun _ => rfl
      right_inv := fun _ => rfl }

def heartbeatObject : Image Heartbeat :=
  (headerObject.pair <| nodeRoleObject.pair <| (Image.padding 7).pair counterObject).transport
    { toFun := fun (header, role, _, seen) => ⟨header, role, seen⟩
      invFun := fun heartbeat => (heartbeat.header, heartbeat.role, (), heartbeat.lastSeenNs)
      left_inv := fun _ => rfl
      right_inv := fun _ => rfl }

def riskStateObject : Image RiskState :=
  (headerObject.pair <| signedObject.pair <| signedObject.pair <|
    boolObject.pair <| Image.padding 7).transport
    { toFun := fun (header, current, max, enabled, _) => ⟨header, current, max, enabled⟩
      invFun := fun state =>
        (state.header, state.currentPosition, state.maxPosition, state.tradingEnabled, ())
      left_inv := fun _ => rfl
      right_inv := fun _ => rfl }

/-- The message in an envelope of bytes, if the bytes hold one. -/
def message (envelope : Envelope) : Option TradingPlatform.Envelope :=
  match MsgType.ofCode envelope.type with
  | none => none
  | some .unknown => some .unknown
  | some .marketData => (marketDataObject.read envelope.payload).map .marketData
  | some .signal => (signalObject.read envelope.payload).map .signal
  | some .newOrder => (newOrderObject.read envelope.payload).map .newOrder
  | some .cancelOrder => some .cancelOrder
  | some .ack => (ackObject.read envelope.payload).map .ack
  | some .fill => (fillObject.read envelope.payload).map .fill
  | some .reject => (rejectObject.read envelope.payload).map .reject
  | some .heartbeat => (heartbeatObject.read envelope.payload).map .heartbeat
  | some .riskState => (riskStateObject.read envelope.payload).map .riskState

/-- The message in the bytes of a whole envelope: the tag selects the member. -/
def unionMessage (image : List UInt8) : Option TradingPlatform.Envelope :=
  message (.overwrite (image.headD 0) (image.drop 8))

/-! ### The places of the members -/

/-- Where the declared members of a message stand in its struct, those of the
header first. -/
def memberPlaces (type : MsgType) : List Place :=
  match places (layout type) with
  | [] => []
  | header :: own => (places messageHeader).map (fun place => place.shift header.offset) ++ own

/-- What the members of a message read, in the order of the places. -/
def memberBytes (type : MsgType) (payload : List UInt8) : List (List UInt8) :=
  (memberPlaces type).map fun place => place.cut payload

def headerMembers (header : MessageHeader) : List (List UInt8) :=
  [[header.type.code], leBytes 4 header.sourceNode.toNat, leBytes 4 header.destinationNode.toNat,
    leBytes 8 header.sequence, leBytes 8 header.sendTsNs, leBytes 8 header.recvTsNs]

/-- The members of a message in the order of their declaration, each as its bytes. -/
def members : TradingPlatform.Envelope → List (List UInt8)
  | .marketData update =>
      headerMembers update.header ++
        [leBytes 4 update.symbolId.toNat, update.symbol.value.toList, signed update.bidPx,
          signed update.bidQty, signed update.askPx, signed update.askQty,
          leBytes 8 update.exchangeSequence]
  | .signal signal =>
      headerMembers signal.header ++
        [leBytes 4 signal.symbolId.toNat, [signal.side.code], signed signal.limitPx,
          signed signal.qty, leBytes 4 signal.confidenceBps.toUInt32.toNat]
  | .newOrder order =>
      headerMembers order.header ++
        [leBytes 8 order.clientOrderId, leBytes 4 order.symbolId.toNat, [order.side.code],
          signed order.limitPx, signed order.qty]
  | .ack ack =>
      headerMembers ack.header ++
        [leBytes 8 ack.clientOrderId, leBytes 8 ack.exchangeOrderId, [ack.state.code]]
  | .fill fill =>
      headerMembers fill.header ++
        [leBytes 8 fill.clientOrderId, leBytes 8 fill.exchangeOrderId, signed fill.fillPx,
          signed fill.fillQty]
  | .reject reject =>
      headerMembers reject.header ++ [leBytes 8 reject.clientOrderId, [reject.reason.code]]
  | .heartbeat heartbeat =>
      headerMembers heartbeat.header ++ [[heartbeat.role.code], leBytes 8 heartbeat.lastSeenNs]
  | .riskState state =>
      headerMembers state.header ++
        [signed state.currentPosition, signed state.maxPosition,
          [if state.tradingEnabled then 1 else 0]]
  | .unknown => []
  | .cancelOrder => []

/-- The bytes that `payload_ptr` addresses in the bytes of an envelope. -/
def pointed (image : List UInt8) : Option (List UInt8) :=
  (payloadPtr (image.headD 0)).map fun member =>
    Place.cut ⟨unionPlace.offset, structSize (layout member)⟩ image

/-- An envelope whose tag is set and into which a payload is copied where
`mutable_payload_ptr` points; the rest is as before. -/
def copied (image : List UInt8) (bytes : Envelope) : List UInt8 :=
  [bytes.type] ++ (image.drop 1).take (unionPlace.offset - 1) ++ bytes.payload ++
    image.drop (unionPlace.offset + bytes.payload.length)

end Wire

/-! ### What fits -/

def MessageHeader.Fits (header : MessageHeader) : Prop :=
  header.sequence < 2 ^ 64 ∧ header.sendTsNs < 2 ^ 64 ∧ header.recvTsNs < 2 ^ 64

instance (header : MessageHeader) : Decidable header.Fits := by
  unfold MessageHeader.Fits; infer_instance

/-- Every counter of the message fits its word. -/
def Envelope.Fits : Envelope → Prop
  | .marketData message => message.header.Fits ∧ message.exchangeSequence < 2 ^ 64
  | .signal message => message.header.Fits
  | .newOrder message => message.header.Fits ∧ message.clientOrderId < 2 ^ 64
  | .ack message =>
      message.header.Fits ∧ message.clientOrderId < 2 ^ 64 ∧ message.exchangeOrderId < 2 ^ 64
  | .fill message =>
      message.header.Fits ∧ message.clientOrderId < 2 ^ 64 ∧ message.exchangeOrderId < 2 ^ 64
  | .reject message => message.header.Fits ∧ message.clientOrderId < 2 ^ 64
  | .heartbeat message => message.header.Fits ∧ message.lastSeenNs < 2 ^ 64
  | .riskState message => message.header.Fits
  | .unknown => True
  | .cancelOrder => True

instance (envelope : Envelope) : Decidable envelope.Fits := by
  cases envelope <;> unfold Envelope.Fits <;> infer_instance

namespace Wire

theorem ofCode_code (type : MsgType) : MsgType.ofCode type.code = some type := by
  cases type <;> decide

theorem code_ofCode (code : UInt8) (type : MsgType) (known : MsgType.ofCode code = some type) :
    type.code = code := by
  have same := List.find?_some known
  exact of_decide_eq_true same

theorem code_inj {first second : MsgType} : first.code = second.code ↔ first = second := by
  constructor
  · intro same
    have known := ofCode_code first
    rw [same, ofCode_code] at known
    exact (Option.some.inj known).symm
  · exact congrArg MsgType.code

theorem header_write (header : MessageHeader) : headerObject.write header = headerImage header := by
  simp only [headerImage, List.append_assoc]
  rfl

theorem header_fits (header : MessageHeader) : headerObject.Fits header ↔ header.Fits := by
  change (True ∧ True ∧ True ∧ True ∧ True ∧ _ ∧ _ ∧ _) ↔ _
  simp only [true_and]
  rfl

/-! Each member shows its own bytes. -/

@[simp] theorem u32_shown (value : UInt32) : u32Object.shown value = [leBytes 4 value.toNat] :=
  Image.shown_ofCodec .u32 value

@[simp] theorem signed_shown (value : Int64) : signedObject.shown value = [signed value] :=
  Image.shown_ofCodec .u64 value.toUInt64

@[simp] theorem int32_shown (value : Int32) :
    int32Object.shown value = [leBytes 4 value.toUInt32.toNat] :=
  Image.shown_ofCodec .u32 value.toUInt32

@[simp] theorem counter_shown (value : Nat) : counterObject.shown value = [leBytes 8 value] :=
  Image.shown_counter 8 value

@[simp] theorem symbol_shown (symbol : Symbol) :
    symbolObject.shown symbol = [symbol.value.toList] :=
  Image.shown_array 16 symbol.value

@[simp] theorem header_shown (header : MessageHeader) :
    headerObject.shown header = headerMembers header := by
  simp [headerObject, msgTypeObject, headerMembers]

/-- The struct is the payload of one kind of message, and its layout puts the
members where the struct has them. -/
structure Carries {α : Type} (type : MsgType) (object : Image α)
    (wrap : α → TradingPlatform.Envelope) : Prop where
  injective : Function.Injective wrap
  typed : ∀ value, (wrap value).type = type
  only : ∀ envelope : TradingPlatform.Envelope, envelope.type = type → ∃ value, envelope = wrap value
  written : ∀ value, object.write value = payloadImage (wrap value)
  fits : ∀ value, object.Fits value ↔ (wrap value).Fits
  placed : object.places = memberPlaces type
  shown : ∀ value, object.shown value = members (wrap value)

namespace Carries

variable {α : Type} {type : MsgType} {object : Image α} {wrap : α → TradingPlatform.Envelope}

theorem parts_eq (carries : Carries type object wrap) (payload : List UInt8) :
    object.parts payload = memberBytes type payload := by
  rw [Image.parts, carries.placed]
  rfl

/-- A payload of the struct's size is read as the message whose members stand at
their places, whatever stands between them. -/
theorem read_iff (carries : Carries type object wrap) (payload : List UInt8)
    (envelope : TradingPlatform.Envelope) (sized : payload.length = object.width) :
    (object.read payload).map wrap = some envelope ↔
      envelope.Fits ∧ type.code = envelope.type.code ∧
        memberBytes envelope.type payload = members envelope := by
  rw [Option.map_eq_some_iff, code_inj]
  constructor
  · rintro ⟨value, read, rfl⟩
    obtain ⟨fits, same⟩ := (object.read_parts payload value sized).mp read
    rw [carries.typed]
    refine ⟨(carries.fits value).mp fits, rfl, ?_⟩
    rw [← carries.parts_eq, same]
    exact carries.shown value
  · rintro ⟨fits, same, shown⟩
    obtain ⟨value, rfl⟩ := carries.only envelope same.symm
    rw [carries.typed, ← carries.parts_eq] at shown
    refine ⟨value, ?_, rfl⟩
    rw [object.read_parts payload value sized, carries.fits]
    exact ⟨fits, shown.trans (carries.shown value).symm⟩

/-- A written message has its members at their places. -/
theorem payload_members (carries : Carries type object wrap) (value : α) :
    memberBytes (wrap value).type (payloadImage (wrap value)) = members (wrap value) := by
  rw [← carries.shown, carries.typed, ← carries.parts_eq, ← carries.written]
  rfl

end Carries

theorem marketData_carries : Carries .marketData marketDataObject .marketData where
  injective := fun _ _ same => Envelope.marketData.inj same
  typed := fun _ => rfl
  only := by
    intro envelope same
    cases envelope with
    | marketData value => exact ⟨value, rfl⟩
    | _ => cases same
  written := by
    intro value
    simp only [payloadImage, List.append_assoc, ← header_write]
    rfl
  fits := by
    intro value
    change (headerObject.Fits _ ∧ True ∧ True ∧ True ∧ True ∧ True ∧ True ∧ True ∧ _) ↔ _
    simp only [true_and, header_fits]
    rfl
  placed := by decide
  shown := by
    intro value
    simp [marketDataObject, members]

theorem signal_carries : Carries .signal signalObject .signal where
  injective := fun _ _ same => Envelope.signal.inj same
  typed := fun _ => rfl
  only := by
    intro envelope same
    cases envelope with
    | signal value => exact ⟨value, rfl⟩
    | _ => cases same
  written := by
    intro value
    simp only [payloadImage, List.append_assoc, ← header_write]
    rfl
  fits := by
    intro value
    change (headerObject.Fits _ ∧ True ∧ True ∧ True ∧ True ∧ True ∧ True ∧ True) ↔ _
    simp only [and_true, header_fits]
    rfl
  placed := by decide
  shown := by
    intro value
    simp [signalObject, sideObject, members]

theorem newOrder_carries : Carries .newOrder newOrderObject .newOrder where
  injective := fun _ _ same => Envelope.newOrder.inj same
  typed := fun _ => rfl
  only := by
    intro envelope same
    cases envelope with
    | newOrder value => exact ⟨value, rfl⟩
    | _ => cases same
  written := by
    intro value
    simp only [payloadImage, List.append_assoc, ← header_write]
    rfl
  fits := by
    intro value
    change (headerObject.Fits _ ∧ _ ∧ True ∧ True ∧ True ∧ True ∧ True) ↔ _
    simp only [and_true, header_fits]
    rfl
  placed := by decide
  shown := by
    intro value
    simp [newOrderObject, sideObject, members]

theorem ack_carries : Carries .ack ackObject .ack where
  injective := fun _ _ same => Envelope.ack.inj same
  typed := fun _ => rfl
  only := by
    intro envelope same
    cases envelope with
    | ack value => exact ⟨value, rfl⟩
    | _ => cases same
  written := by
    intro value
    simp only [payloadImage, List.append_assoc, ← header_write]
    rfl
  fits := by
    intro value
    change (headerObject.Fits _ ∧ _ ∧ _ ∧ True ∧ True) ↔ _
    simp only [and_true, header_fits]
    rfl
  placed := by decide
  shown := by
    intro value
    simp [ackObject, orderStateObject, members]

theorem fill_carries : Carries .fill fillObject .fill where
  injective := fun _ _ same => Envelope.fill.inj same
  typed := fun _ => rfl
  only := by
    intro envelope same
    cases envelope with
    | fill value => exact ⟨value, rfl⟩
    | _ => cases same
  written := by
    intro value
    simp only [payloadImage, List.append_assoc, ← header_write]
    rfl
  fits := by
    intro value
    change (headerObject.Fits _ ∧ _ ∧ _ ∧ True ∧ True) ↔ _
    simp only [and_true, header_fits]
    rfl
  placed := by decide
  shown := by
    intro value
    simp [fillObject, members]

theorem reject_carries : Carries .reject rejectObject .reject where
  injective := fun _ _ same => Envelope.reject.inj same
  typed := fun _ => rfl
  only := by
    intro envelope same
    cases envelope with
    | reject value => exact ⟨value, rfl⟩
    | _ => cases same
  written := by
    intro value
    simp only [payloadImage, List.append_assoc, ← header_write]
    rfl
  fits := by
    intro value
    change (headerObject.Fits _ ∧ _ ∧ True ∧ True) ↔ _
    simp only [and_true, header_fits]
    rfl
  placed := by decide
  shown := by
    intro value
    simp [rejectObject, rejectReasonObject, members]

theorem heartbeat_carries : Carries .heartbeat heartbeatObject .heartbeat where
  injective := fun _ _ same => Envelope.heartbeat.inj same
  typed := fun _ => rfl
  only := by
    intro envelope same
    cases envelope with
    | heartbeat value => exact ⟨value, rfl⟩
    | _ => cases same
  written := by
    intro value
    simp only [payloadImage, List.append_assoc, ← header_write]
    rfl
  fits := by
    intro value
    change (headerObject.Fits _ ∧ True ∧ True ∧ _) ↔ _
    simp only [true_and, header_fits]
    rfl
  placed := by decide
  shown := by
    intro value
    simp [heartbeatObject, nodeRoleObject, members]

theorem riskState_carries : Carries .riskState riskStateObject .riskState where
  injective := fun _ _ same => Envelope.riskState.inj same
  typed := fun _ => rfl
  only := by
    intro envelope same
    cases envelope with
    | riskState value => exact ⟨value, rfl⟩
    | _ => cases same
  written := by
    intro value
    simp only [payloadImage, List.append_assoc, ← header_write]
    rfl
  fits := by
    intro value
    change (headerObject.Fits _ ∧ True ∧ True ∧ True ∧ True) ↔ _
    simp only [and_true, header_fits]
    rfl
  placed := by decide
  shown := by
    intro value
    simp [riskStateObject, boolObject, members]

/-- The members of a message stand at their places in its payload. -/
theorem payloadImage_members (envelope : TradingPlatform.Envelope) :
    memberBytes envelope.type (payloadImage envelope) = members envelope := by
  cases envelope with
  | unknown => rfl
  | marketData update => exact marketData_carries.payload_members update
  | signal signal => exact signal_carries.payload_members signal
  | newOrder order => exact newOrder_carries.payload_members order
  | cancelOrder => rfl
  | ack ack => exact ack_carries.payload_members ack
  | fill fill => exact fill_carries.payload_members fill
  | reject reject => exact reject_carries.payload_members reject
  | heartbeat heartbeat => exact heartbeat_carries.payload_members heartbeat
  | riskState state => exact riskState_carries.payload_members state

/-- A tag without a struct is a message of its own. -/
theorem bare_iff (bare envelope : TradingPlatform.Envelope) (payload : List UInt8)
    (alone : ∀ other : TradingPlatform.Envelope, other.type = bare.type → other = bare)
    (fits : bare.Fits) (empty : memberBytes bare.type payload = members bare) :
    some bare = some envelope ↔
      envelope.Fits ∧ bare.type.code = envelope.type.code ∧
        memberBytes envelope.type payload = members envelope := by
  rw [Option.some.injEq, code_inj]
  constructor
  · rintro rfl
    exact ⟨fits, rfl, empty⟩
  · rintro ⟨-, same, -⟩
    exact (alone envelope same.symm).symm

/-- Bytes are read as the message whose tag they have and whose members stand at
their places. -/
theorem message_iff (bytes : Envelope) (envelope : TradingPlatform.Envelope) :
    message bytes = some envelope ↔
      envelope.Fits ∧ bytes.type = envelope.type.code ∧
        memberBytes envelope.type bytes.payload = members envelope := by
  obtain ⟨code, payload, sized⟩ := bytes
  cases known : MsgType.ofCode code with
  | none =>
      unfold message
      rw [known]
      refine iff_of_false (by simp) ?_
      rintro ⟨-, same, -⟩
      dsimp only at same
      rw [same, ofCode_code] at known
      cases known
  | some type =>
      have same := code_ofCode code type known
      subst same
      unfold message
      rw [known]
      unfold payloadSizeForType at sized
      rw [known] at sized
      cases type with
      | unknown =>
          exact bare_iff .unknown envelope payload
            (fun other same => by cases other <;> first | rfl | cases same) trivial rfl
      | marketData => exact marketData_carries.read_iff payload envelope sized
      | signal => exact signal_carries.read_iff payload envelope sized
      | newOrder => exact newOrder_carries.read_iff payload envelope sized
      | cancelOrder =>
          exact bare_iff .cancelOrder envelope payload
            (fun other same => by cases other <;> first | rfl | cases same) trivial rfl
      | ack => exact ack_carries.read_iff payload envelope sized
      | fill => exact fill_carries.read_iff payload envelope sized
      | reject => exact reject_carries.read_iff payload envelope sized
      | heartbeat => exact heartbeat_carries.read_iff payload envelope sized
      | riskState => exact riskState_carries.read_iff payload envelope sized

/-- A message is read back from its bytes exactly when its counters fit. -/
theorem message_ofEnvelope (envelope : TradingPlatform.Envelope) :
    message (ofEnvelope envelope) = some envelope ↔ envelope.Fits := by
  rw [message_iff]
  exact and_iff_left ⟨rfl, payloadImage_members envelope⟩

theorem message_fits (bytes : Envelope) (envelope : TradingPlatform.Envelope)
    (read : message bytes = some envelope) : envelope.Fits :=
  ((message_iff bytes envelope).mp read).1

/-! ### The payload pointers -/

theorem payloadPtr_code (type : MsgType) :
    payloadPtr type.code = if layout type = [] then none else some type := by
  cases type <;> decide

/-- The struct addressed is as large as the payload of its type. -/
theorem payloadPtr_size (type : UInt8) (member : MsgType) (pointer : payloadPtr type = some member) :
    structSize (layout member) = payloadSizeForType type := by
  unfold payloadPtr at pointer
  unfold payloadSizeForType
  cases known : MsgType.ofCode type with
  | none =>
      rw [known] at pointer
      cases pointer
  | some found =>
      rw [known] at pointer
      cases found <;> cases pointer <;> rfl

/-- The bytes begin with the tag, and the payload is at the front of their union. -/
structure Stands (bytes : Envelope) (image : List UInt8) : Prop where
  tagged : image.headD 0 = bytes.type
  front : bytes.payload <+: image.drop unionPlace.offset

namespace Stands

variable {bytes : Envelope} {image : List UInt8}

theorem pointed_eq (stands : Stands bytes image) :
    pointed image = (payloadPtr bytes.type).map fun _ => bytes.payload := by
  unfold pointed
  rw [stands.tagged]
  cases pointer : payloadPtr bytes.type with
  | none => rfl
  | some member =>
      have same := List.prefix_iff_eq_take.mp stands.front
      rw [bytes.sized, ← payloadPtr_size bytes.type member pointer] at same
      exact congrArg some same.symm

theorem payload_eq (stands : Stands bytes image) : (pointed image).getD [] = bytes.payload := by
  rw [stands.pointed_eq]
  cases pointer : payloadPtr bytes.type with
  | none =>
      have empty := bytes.sized
      rw [(payloadPtr_eq_none_iff bytes.type).mp pointer] at empty
      exact (List.length_eq_zero_iff.mp empty).symm
  | some member => rfl

/-- The message in an envelope is read from its payload alone. -/
theorem message_eq (stands : Stands bytes image) : unionMessage image = message bytes := by
  have whole : Envelope.overwrite (image.headD 0) (image.drop 8) = bytes := by
    apply Envelope.ext
    · exact stands.tagged
    · change (image.drop unionPlace.offset).takeD (payloadSizeForType (image.headD 0)) 0 = _
      obtain ⟨rest, split⟩ := stands.front
      rw [stands.tagged, ← split]
      exact List.takeD_left' bytes.sized
  exact congrArg message whole

end Stands

theorem stands_copied (image : List UInt8) (bytes : Envelope) (sized : image.length = 112) :
    Stands bytes (copied image bytes) where
  tagged := rfl
  front := by
    have place : unionPlace.offset = 8 := by decide
    have between : ([bytes.type] ++ (image.drop 1).take (8 - 1)).length = 8 := by
      rw [List.length_append, List.length_singleton, List.length_take, List.length_drop]
      omega
    unfold copied
    rw [place, List.append_assoc, List.drop_left' between]
    exact List.prefix_append _ _

theorem prefix_takeD (bytes : List UInt8) (length : Nat) (fits : bytes.length ≤ length) :
    bytes <+: bytes.takeD length 0 := by
  induction bytes generalizing length with
  | nil => exact List.nil_prefix
  | cons byte bytes ih =>
      rw [List.length_cons] at fits
      obtain ⟨shorter, rfl⟩ : ∃ shorter, length = shorter + 1 := ⟨length - 1, by omega⟩
      exact List.cons_prefix_cons.mpr ⟨rfl, ih shorter (by omega)⟩

theorem stands_image (envelope : TradingPlatform.Envelope) :
    Stands (ofEnvelope envelope) (envelopeImage envelope) where
  tagged := rfl
  front := by
    have bound := payloadSizeForType_le envelope.type.code
    have length := payloadImage_length envelope
    exact prefix_takeD (payloadImage envelope) 104 (by omega)

/-- Some payload stands in any bytes of an envelope. -/
theorem exists_stands (image : List UInt8) (sized : image.length = 112) :
    ∃ bytes, Stands bytes image := by
  refine ⟨.overwrite (image.headD 0) (image.drop 8), rfl, ?_⟩
  have bound := payloadSizeForType_le (image.headD 0)
  change (image.drop 8).takeD (payloadSizeForType (image.headD 0)) 0 <+: image.drop 8
  rw [List.takeD_eq_take 0 (by rw [List.length_drop]; omega)]
  exact List.take_prefix _ _

/-- The bytes of an envelope are read as the message whose tag they have and whose
members stand where the pointer to its payload and its layout put them. -/
theorem unionMessage_iff (image : List UInt8) (envelope : TradingPlatform.Envelope)
    (sized : image.length = 112) :
    unionMessage image = some envelope ↔
      envelope.Fits ∧ image.headD 0 = envelope.type.code ∧
        memberBytes envelope.type ((pointed image).getD []) = members envelope := by
  obtain ⟨bytes, stands⟩ := exists_stands image sized
  rw [stands.message_eq, stands.payload_eq, stands.tagged]
  exact message_iff bytes envelope

/-- Messages and their bytes. A message is read back from its own bytes, alone or
in a whole envelope, exactly when its counters fit their words, and what any bytes
are read as can be written and read once more. The pointer addresses the struct
of the tag, its bytes are the payload, and the members stand in it where their
layout puts them. Any bytes, whatever their padding and the rest of the union
hold, are read exactly as the message whose members stand there; so what is
copied behind the pointer is all that a reader sees. -/
theorem messages_read_back (envelope : TradingPlatform.Envelope) (bytes : Envelope)
    (image : Vector UInt8 112) :
    (message (ofEnvelope envelope) = some envelope ↔ envelope.Fits) ∧
      (unionMessage (envelopeImage envelope) = some envelope ↔ envelope.Fits) ∧
      (∀ read, message bytes = some read → message (ofEnvelope read) = some read) ∧
      payloadPtr envelope.type.code =
        (if layout envelope.type = [] then none else some envelope.type) ∧
      pointed (envelopeImage envelope) =
        (payloadPtr envelope.type.code).map (fun _ => payloadImage envelope) ∧
      memberBytes envelope.type (payloadImage envelope) = members envelope ∧
      (message bytes = some envelope ↔
        envelope.Fits ∧ bytes.type = envelope.type.code ∧
          memberBytes envelope.type bytes.payload = members envelope) ∧
      (unionMessage image.toList = some envelope ↔
        envelope.Fits ∧ image.toList.headD 0 = envelope.type.code ∧
          memberBytes envelope.type ((pointed image.toList).getD []) = members envelope) ∧
      pointed (copied image.toList bytes) =
        (payloadPtr bytes.type).map (fun _ => bytes.payload) ∧
      unionMessage (copied image.toList bytes) = message bytes := by
  have sized := image.length_toList
  have copy := stands_copied image.toList bytes sized
  refine ⟨message_ofEnvelope envelope, ?_, ?_, payloadPtr_code envelope.type,
    (stands_image envelope).pointed_eq, payloadImage_members envelope,
    message_iff bytes envelope, unionMessage_iff image.toList envelope sized, copy.pointed_eq,
    copy.message_eq⟩
  · rw [(stands_image envelope).message_eq]
    exact message_ofEnvelope envelope
  · exact fun read result => (message_ofEnvelope read).mpr (message_fits bytes read result)

end Wire
end TradingPlatform
