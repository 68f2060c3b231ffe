import TradingPlatform.Connection
import TradingPlatform.MessageObjects
import TradingPlatform.TcpAcceptance

set_option autoImplicit false

/- One direction of a TCP connection with its bytes, and the channel of whole
messages that it realizes. -/
namespace TradingPlatform

open StreamSocket (Kernel Pipe sendExact sendExact_prefix)
open TcpTransport (TcpConnection SendCall headerCodec headerFor)

/-- Both ends of the direction. What has been sent and not received is what the
receiver has still to come. -/
structure WireLink where
  sender : TcpConnection
  receiver : TcpConnection
  /-- A send has failed; the system refuses every later one. -/
  reset : Bool := false

namespace TcpTransport

/-- Whatever the calls answer, a beginning of the frame gets through, and all of
it exactly if `send_envelope` returns true. -/
theorem sendEnvelope_prefix (kernel : Kernel) (connection : TcpConnection)
    (valid : connection.valid) (call : SendCall) (supported : call.Supported) :
    ∃ moved, moved <+: call.frame ∧
      (connection.sendEnvelope kernel call.envelope call.sequence).2.outgoing.bytes =
        connection.outgoing.bytes ++ moved ∧
      (connection.sendEnvelope kernel call.envelope call.sequence).2.fd = connection.fd ∧
      ((connection.sendEnvelope kernel call.envelope call.sequence).1 = true ↔
        moved = call.frame) := by
  have pointer : Wire.payloadPtr call.envelope.type ≠ none :=
    fun null => supported ((Wire.payloadPtr_eq_none_iff _).mp null)
  have size : Wire.payloadSizeForType call.envelope.type ≠ 0 := supported
  have present : 0 < call.envelope.payload.length := by
    rw [call.envelope.sized]
    omega
  obtain ⟨front, within, bytes, whole⟩ := sendExact_prefix kernel
    (headerCodec.encode (headerFor call.envelope call.sequence)) connection.outgoing
  unfold TcpConnection.sendEnvelope SendCall.frame
  rw [if_neg (by simp [valid]), if_neg (by simp [pointer, size])]
  generalize sendExact kernel (headerCodec.encode (headerFor call.envelope call.sequence))
    connection.outgoing = header at bytes whole
  obtain ⟨sent, outgoing⟩ := header
  dsimp only at bytes whole ⊢
  cases sent with
  | false =>
      simp only [Bool.not_false, ↓reduceIte, Bool.false_eq_true, false_iff]
      refine ⟨front, within.trans (List.prefix_append _ _), bytes, trivial, ?_⟩
      have short : front ≠ headerCodec.encode (headerFor call.envelope call.sequence) :=
        fun same => Bool.false_ne_true (whole.mpr same)
      have bound := within.length_le
      intro same
      have lengths := congrArg List.length same
      rw [List.length_append] at lengths
      omega
  | true =>
      have all := whole.mp rfl
      subst all
      obtain ⟨behind, inside, moved, complete⟩ :=
        sendExact_prefix kernel call.envelope.payload outgoing
      simp only [Bool.not_true, Bool.false_eq_true, ↓reduceIte]
      refine ⟨headerCodec.encode (headerFor call.envelope call.sequence) ++ behind,
        (List.prefix_append_right_inj _).mpr inside, ?_, trivial, ?_⟩
      · rw [moved, bytes, List.append_assoc]
      · rw [List.append_right_inj]
        exact complete

theorem recvEnvelope_fd (kernel : Kernel) (connection : TcpConnection) :
    (connection.recvEnvelope kernel).2.fd = connection.fd := by
  unfold TcpConnection.recvEnvelope
  split
  · rfl
  · split <;> rfl

/-- However the calls answer, what is received behind a frame is that frame. -/
theorem recvEnvelope_first (kernel : Kernel) (connection next : TcpConnection) (call : SendCall)
    (rest : List UInt8) (incoming : connection.incoming.bytes = call.frame ++ rest)
    (envelope : Wire.Envelope)
    (received : connection.recvEnvelope kernel = (some envelope, next)) :
    envelope = call.envelope ∧ next.incoming.bytes = rest := by
  obtain ⟨header, taken, stream, -, type, -⟩ :=
    recvEnvelope_some kernel connection next envelope received
  have width := headerCodec.encode_length (headerFor call.envelope call.sequence)
  rw [headerCodec_width] at width
  rw [incoming, SendCall.frame, List.append_assoc] at taken stream
  rw [List.take_left' width, headerCodec.decode_encode] at taken
  rw [taken] at stream type
  have behind := List.append_cancel_left stream
  have sized : call.envelope.payload.length = envelope.payload.length := by
    rw [call.envelope.sized, envelope.sized, type]
    rfl
  obtain ⟨payload, left⟩ := List.append_inj behind sized
  exact ⟨Wire.Envelope.ext type payload.symm, left.symm⟩

/-- Nor is anything received behind less than a frame. -/
theorem recvEnvelope_cut (kernel : Kernel) (connection : TcpConnection)
    (torn : Framing.Torn SendCall.frame SendCall.Supported connection.incoming.bytes) :
    (connection.recvEnvelope kernel).1 = none := by
  by_contra some
  obtain ⟨envelope, result⟩ := Option.ne_none_iff_exists'.mp some
  obtain ⟨header, taken, stream, acceptable, type, -⟩ := recvEnvelope_some kernel connection
    (connection.recvEnvelope kernel).2 envelope (Prod.ext result rfl)
  have length := congrArg List.length stream
  have size := headerCodec.encode_length header
  rw [headerCodec_width] at size
  rw [List.length_append, List.length_append, size, envelope.sized, type] at length
  rcases torn with empty | ⟨call, supported, ⟨missing, split⟩, proper⟩
  · rw [empty, List.length_nil] at length
    omega
  · have positive : 0 < missing.length := by
      apply List.length_pos_iff.mpr
      rintro rfl
      exact proper (by rw [← split, List.append_nil])
    have total := congrArg List.length split
    have width := headerCodec.encode_length (headerFor call.envelope call.sequence)
    rw [headerCodec_width] at width
    -- the header is the one of the cut frame, which promises more than there is
    have front := congrArg (List.take 25) split
    rw [List.take_append_of_le_length (by omega), SendCall.frame, List.take_left' width] at front
    rw [front, headerCodec.decode_encode] at taken
    have same : Wire.payloadSizeForType header.type = call.envelope.payload.length := by
      rw [taken, call.envelope.sized]
      rfl
    rw [SendCall.frame, List.length_append, List.length_append] at total
    omega

end TcpTransport

namespace WireLink

/-- Two sockets that have just been connected. -/
def connected : WireLink := { sender := { fd := 3 }, receiver := { fd := 3 } }

/-- The connection takes the bytes that a send puts on it to the other end. The
nodes send at most one message in a step. -/
def send (link : WireLink) (kernel : Kernel) (sequence : Sequence) :
    List Envelope → Bool × WireLink
  | [] => (!link.reset, link)
  | envelope :: _ =>
      if link.reset then (false, link)
      else
        let (sent, sender) :=
          link.sender.sendEnvelope kernel (Wire.ofEnvelope envelope) (UInt64.ofNat sequence)
        let moved := sender.outgoing.bytes.drop link.sender.outgoing.bytes.length
        let incoming :=
          { link.receiver.incoming with bytes := link.receiver.incoming.bytes ++ moved }
        (sent, { sender, receiver := { link.receiver with incoming }, reset := !sent })

/-- A receive that waits for bytes that are still to be sent. -/
def Waits (link : WireLink) : Prop :=
  let bytes := link.receiver.incoming.bytes
  let header := headerCodec.decode (bytes.take 25)
  bytes.length < 25 ∨ header.Acceptable ∧ bytes.length < 25 + header.payloadSize.toNat

instance (link : WireLink) : Decidable link.Waits := by
  unfold Waits TcpTransport.TcpFrameHeader.Acceptable; infer_instance

/-- A receive returns when a frame is there, or when the peer is gone. -/
def recv (link : WireLink) (kernel : Kernel) (connected : Bool) :
    Option (WireLink × Option Envelope) :=
  if connected = true ∧ link.Waits then none
  else
    let (received, receiver) := link.receiver.recvEnvelope kernel
    some ({ link with receiver }, received.bind Wire.message)

/-- The sending ends agree, whatever has become of the receiver. -/
structure Joins (link : WireLink) (connection : Connection) : Prop where
  sender : link.sender.valid
  broken : connection.broken = link.reset

/-- The bytes between the ends are the frames of the messages on their way, and
perhaps the beginning of the one whose send has failed. -/
structure Realizes (link : WireLink) (connection : Connection) : Prop
    extends link.Joins connection where
  receiver : link.receiver.valid
  fits : ∀ envelope ∈ connection.inflight, envelope.Fits
  wire : ∃ (calls : List SendCall) (torn : List UInt8),
    calls.map SendCall.envelope = connection.inflight.map Wire.ofEnvelope ∧
    (∀ call ∈ calls, call.Supported) ∧
    link.receiver.incoming.bytes = calls.flatMap SendCall.frame ++ torn ∧
    Framing.Torn SendCall.frame SendCall.Supported torn ∧ (link.reset = false → torn = [])

/-- A connection is realized for as long as its receiver goes on reading: one that
has lost its place in the bytes has stopped. -/
structure Serves (link : WireLink) (connection : Connection) (reading : Prop) : Prop
    extends link.Joins connection where
  realizes : reading → link.Realizes connection

theorem Serves.mono {link : WireLink} {connection : Connection} {reading still : Prop}
    (serves : link.Serves connection reading) (goes : still → reading) :
    link.Serves connection still :=
  ⟨serves.toJoins, fun on => serves.realizes (goes on)⟩

theorem connected_realizes : connected.Realizes {} where
  sender := rfl
  receiver := rfl
  broken := rfl
  fits := fun _ member => absurd member List.not_mem_nil
  wire := ⟨[], [], rfl, fun _ member => absurd member List.not_mem_nil, rfl, Or.inl rfl,
    fun _ => rfl⟩

theorem connected_serves (reading : Prop) : connected.Serves {} reading :=
  ⟨connected_realizes.toJoins, fun _ => connected_realizes⟩

section Steps

variable {link : WireLink} {connection : Connection}

/-- What a send returns is whether the channel delivers. -/
theorem send_joins (joins : link.Joins connection) (kernel : Kernel) (sequence : Sequence)
    (sent : List Envelope) (single : sent.length ≤ 1)
    (supported : ∀ envelope ∈ sent, Wire.payloadSizeForType envelope.type.code ≠ 0) :
    ((link.send kernel sequence sent).1 = true → connection.broken = false) ∧
      (link.send kernel sequence sent).2.Joins
        (connection.send (link.send kernel sequence sent).1 sent) := by
  rw [joins.broken]
  rcases sent with _ | ⟨envelope, _ | ⟨second, rest⟩⟩
  case nil =>
      refine ⟨fun intact => ?_, joins⟩
      simpa [send] using intact
  case cons.cons =>
      simp only [List.length_cons] at single
      omega
  case cons.nil =>
      unfold send
      cases broken : link.reset with
      | true =>
          refine ⟨fun sent => absurd sent (by simp), joins.sender, ?_⟩
          simp [Connection.send, broken]
      | false =>
          have payload := supported envelope (List.mem_singleton_self _)
          obtain ⟨moved, -, -, descriptor, -⟩ := TcpTransport.sendEnvelope_prefix kernel
            link.sender joins.sender ⟨Wire.ofEnvelope envelope, UInt64.ofNat sequence⟩ payload
          simp only [Bool.false_eq_true, ↓reduceIte]
          generalize link.sender.sendEnvelope kernel (Wire.ofEnvelope envelope)
            (UInt64.ofNat sequence) = result at descriptor
          obtain ⟨success, sender⟩ := result
          dsimp only at descriptor ⊢
          refine ⟨fun _ => trivial, ?_, ?_⟩
          · unfold TcpConnection.valid
            rw [descriptor]
            exact joins.sender
          · cases success with
            | true => exact joins.broken.trans broken
            | false => rfl

/-- The frame of what is sent is put behind the others. -/
theorem send_realizes (realizes : link.Realizes connection) (kernel : Kernel) (sequence : Sequence)
    (sent : List Envelope) (single : sent.length ≤ 1)
    (supported : ∀ envelope ∈ sent, Wire.payloadSizeForType envelope.type.code ≠ 0)
    (fits : ∀ envelope ∈ sent, envelope.Fits) :
    (link.send kernel sequence sent).2.Realizes
      (connection.send (link.send kernel sequence sent).1 sent) := by
  have joins := (send_joins realizes.toJoins kernel sequence sent single supported).2
  rcases sent with _ | ⟨envelope, _ | ⟨second, rest⟩⟩
  case nil => exact realizes
  case cons.cons =>
      simp only [List.length_cons] at single
      omega
  case cons.nil =>
      unfold send at joins ⊢
      cases broken : link.reset with
      | true =>
          have kept : connection.send false [envelope] = connection := by
            have same := realizes.broken.trans broken
            simp only [Connection.send, List.cons_ne_self, ↓reduceIte, Bool.false_eq_true]
            rw [← same]
          simp only [↓reduceIte, kept]
          exact realizes
      | false =>
          obtain ⟨calls, torn, same, good, bytes, cut, whole⟩ := realizes.wire
          rw [whole broken, List.append_nil] at bytes
          have payload := supported envelope (List.mem_singleton_self _)
          let call : SendCall := ⟨Wire.ofEnvelope envelope, UInt64.ofNat sequence⟩
          obtain ⟨moved, within, outgoing, -, complete⟩ :=
            TcpTransport.sendEnvelope_prefix kernel link.sender realizes.sender call payload
          simp only [broken, Bool.false_eq_true, ↓reduceIte] at joins ⊢
          generalize link.sender.sendEnvelope kernel (Wire.ofEnvelope envelope)
            (UInt64.ofNat sequence) = result at outgoing complete joins
          obtain ⟨success, sender⟩ := result
          dsimp only at outgoing complete joins ⊢
          have gone : sender.outgoing.bytes.drop link.sender.outgoing.bytes.length = moved := by
            rw [outgoing, List.drop_left]
          cases success with
          | true =>
              refine ⟨joins, realizes.receiver, ?_, calls ++ [call], [], ?_, ?_, ?_, Or.inl rfl,
                fun _ => rfl⟩
              · simp only [Connection.send, List.cons_ne_self, ↓reduceIte]
                rw [List.forall_mem_append]
                exact ⟨realizes.fits, fits⟩
              · simp [Connection.send, same, call]
              · rw [List.forall_mem_append, List.forall_mem_singleton]
                exact ⟨good, payload⟩
              · rw [gone, complete.mp rfl, bytes]
                simp
          | false =>
              have short : moved ≠ call.frame := fun same => Bool.false_ne_true (complete.mpr same)
              refine ⟨joins, realizes.receiver, realizes.fits, calls, moved, same, good, ?_,
                Or.inr ⟨call, payload, within, short⟩, fun intact => absurd intact (by simp)⟩
              rw [gone, bytes]

/-- A whole frame does not keep the receiver waiting, and a torn one does. -/
theorem not_waits (call : SendCall) (rest : List UInt8)
    (bytes : link.receiver.incoming.bytes = call.frame ++ rest) : ¬ link.Waits := by
  have width := headerCodec.encode_length (headerFor call.envelope call.sequence)
  rw [TcpTransport.headerCodec_width] at width
  unfold Waits
  rw [bytes, SendCall.frame, List.append_assoc]
  dsimp only
  rw [List.take_left' width, headerCodec.decode_encode, TcpTransport.headerFor_payloadSize]
  simp only [List.length_append]
  omega

theorem waits_torn (torn : Framing.Torn SendCall.frame SendCall.Supported
    link.receiver.incoming.bytes) : link.Waits := by
  rcases torn with empty | ⟨call, supported, ⟨missing, split⟩, proper⟩
  · unfold Waits
    rw [empty]
    exact Or.inl (by decide)
  · by_cases short : link.receiver.incoming.bytes.length < 25
    · exact Or.inl short
    · have positive : 0 < missing.length := by
        apply List.length_pos_iff.mpr
        rintro rfl
        exact proper (by rw [← split, List.append_nil])
      have total := congrArg List.length split
      have width := headerCodec.encode_length (headerFor call.envelope call.sequence)
      rw [TcpTransport.headerCodec_width] at width
      have front := congrArg (List.take 25) split
      rw [List.take_append_of_le_length (by omega), SendCall.frame, List.take_left' width] at front
      rw [SendCall.frame, List.length_append, List.length_append] at total
      refine Or.inr ?_
      rw [front, headerCodec.decode_encode, TcpTransport.headerFor_payloadSize]
      exact ⟨TcpTransport.headerFor_acceptable call supported, by omega⟩

/-- A receive of the link waits, or fails and may lose its place in the bytes, or
is that of the first message of the channel. -/
theorem recv_realizes (realizes : link.Realizes connection) (kernel : Kernel) (connected : Bool) :
    (link.recv kernel connected = none ∧ connection.recv true = none) ∨
      (∃ link', link.recv kernel connected = some (link', none) ∧ link'.Joins connection) ∨
      ∃ next envelope link', link.recv kernel connected = some (link', some envelope) ∧
        connection.recv true = some (next, some envelope) ∧ link'.Realizes next := by
  obtain ⟨calls, torn, same, good, bytes, cut, whole⟩ := realizes.wire
  have receiver := TcpTransport.recvEnvelope_fd kernel link.receiver
  unfold recv
  generalize result : link.receiver.recvEnvelope kernel = outcome at receiver
  obtain ⟨received, next⟩ := outcome
  have joins : Joins { link with receiver := next } connection :=
    ⟨realizes.sender, realizes.broken⟩
  cases waiting : connection.inflight with
  | nil =>
      rw [waiting] at same
      rw [List.map_eq_nil_iff.mp same, List.flatMap_nil, List.nil_append] at bytes
      have waits : link.Waits := waits_torn (bytes ▸ cut)
      cases connected with
      | true =>
          refine Or.inl ⟨if_pos ⟨rfl, waits⟩, ?_⟩
          simp [Connection.recv, waiting]
      | false =>
          have nothing := TcpTransport.recvEnvelope_cut kernel link.receiver (bytes ▸ cut)
          rw [result] at nothing
          dsimp only at nothing
          refine Or.inr (Or.inl ⟨{ link with receiver := next }, ?_, joins⟩)
          rw [if_neg (by simp), nothing]
          rfl
  | cons envelope rest =>
      rw [waiting, List.map_cons] at same
      obtain ⟨call, later, rfl, head, tail⟩ := List.map_eq_cons_iff.mp same
      have goods := (List.forall_mem_cons.mp good).2
      have fits := realizes.fits
      rw [waiting] at fits
      obtain ⟨fit, rests⟩ := List.forall_mem_cons.mp fits
      rw [List.flatMap_cons, List.append_assoc] at bytes
      rw [if_neg (fun blocked => not_waits call _ bytes blocked.2)]
      cases received with
      | none => exact Or.inr (Or.inl ⟨{ link with receiver := next }, rfl, joins⟩)
      | some found =>
          obtain ⟨rfl, left⟩ :=
            TcpTransport.recvEnvelope_first kernel link.receiver next call _ bytes found result
          refine Or.inr (Or.inr ⟨{ connection with inflight := rest }, envelope,
            { link with receiver := next }, ?_, ?_, ?_⟩)
          · rw [head]
            exact congrArg some
              (congrArg (Prod.mk _) ((Wire.message_ofEnvelope envelope).mpr fit))
          · simp [Connection.recv, waiting]
          · have valid : next.valid := by
              unfold TcpConnection.valid
              rw [receiver]
              exact realizes.receiver
            exact ⟨⟨joins.sender, joins.broken⟩, valid, rests, later, torn, tail, goods, left, cut,
              whole⟩

/-- A receiver that goes on only with a message keeps its connection served. -/
theorem recv_serves {reading : Prop} (serves : link.Serves connection reading) (runs : reading)
    (kernel : Kernel) (connected : Bool) :
    (link.recv kernel connected = none ∧ connection.recv true = none) ∨
      ∃ found next received link', link.recv kernel connected = some (link', received) ∧
        connection.recv found = some (next, received) ∧
        ∀ still : Prop, (received = none → ¬ still) → link'.Serves next still := by
  rcases recv_realizes (serves.realizes runs) kernel connected with
    waits | ⟨link', lost, joins⟩ | ⟨next, envelope, link', taken, first, realizes⟩
  · exact Or.inl waits
  · refine Or.inr ⟨false, connection, none, link', lost, rfl, fun still ends => ?_⟩
    exact ⟨joins, fun on => absurd on (ends rfl)⟩
  · refine Or.inr ⟨true, next, some envelope, link', taken, first, fun _ _ => ?_⟩
    exact ⟨realizes.toJoins, fun _ => realizes⟩

end Steps
end WireLink
end TradingPlatform
