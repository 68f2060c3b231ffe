import Mathlib.Data.List.TakeDrop
import TradingPlatform.Library.Framing
import TradingPlatform.TcpTransport

set_option autoImplicit false

/- What one end sends is what the other end receives, whatever the socket makes
of the stream in between. -/
namespace TradingPlatform.TcpTransport

open Wire (payloadSizeForType payloadPtr)
open StreamSocket (Kernel Pipe sendExact recvExact sendExact_sends recvExact_whole recvExact_short)

/-- The arguments of one `send_envelope`. -/
structure SendCall where
  envelope : Wire.Envelope
  sequence : UInt64
  deriving DecidableEq, Repr

def SendCall.Supported (call : SendCall) : Prop := payloadSizeForType call.envelope.type ≠ 0

instance (call : SendCall) : Decidable call.Supported := by
  unfold SendCall.Supported; infer_instance

/-- The bytes of one envelope on the wire. -/
def SendCall.frame (call : SendCall) : List UInt8 :=
  headerCodec.encode (headerFor call.envelope call.sequence) ++ call.envelope.payload

@[simp] theorem headerFor_type (envelope : Wire.Envelope) (sequence : UInt64) :
    (headerFor envelope sequence).type = envelope.type := rfl

@[simp] theorem headerFor_checksum (envelope : Wire.Envelope) (sequence : UInt64) :
    (headerFor envelope sequence).checksum = Wire.checksum envelope.payload := rfl

theorem headerFor_payloadSize (envelope : Wire.Envelope) (sequence : UInt64) :
    (headerFor envelope sequence).payloadSize.toNat = envelope.payload.length := by
  have bound := Wire.payloadSizeForType_le envelope.type
  rw [envelope.sized]
  exact UInt32.toNat_ofNat_of_lt' (by simp only [UInt32.size]; omega)

/-! ### Sending -/

theorem sendEnvelope_unsupported (kernel : Kernel) (connection : TcpConnection)
    (call : SendCall) (unsupported : ¬ call.Supported) :
    connection.sendEnvelope kernel call.envelope call.sequence = (false, connection) := by
  have size : payloadSizeForType call.envelope.type = 0 := not_not.mp unsupported
  unfold TcpConnection.sendEnvelope
  split
  · rfl
  · rw [if_pos (Or.inr size)]

theorem sendEnvelope_supported (kernel : Kernel) (sends : kernel.Sends)
    (connection : TcpConnection) (valid : connection.valid) (call : SendCall)
    (supported : call.Supported) :
    ∃ calls, connection.sendEnvelope kernel call.envelope call.sequence =
      (true, { connection with
        outgoing := { bytes := connection.outgoing.bytes ++ call.frame, calls := calls } }) := by
  have pointer : payloadPtr call.envelope.type ≠ none :=
    fun null => supported ((Wire.payloadPtr_eq_none_iff _).mp null)
  have size : payloadSizeForType call.envelope.type ≠ 0 := supported
  obtain ⟨between, header⟩ := sendExact_sends kernel sends
    (headerCodec.encode (headerFor call.envelope call.sequence)) connection.outgoing
  obtain ⟨calls, payload⟩ := sendExact_sends kernel sends call.envelope.payload
    { bytes := connection.outgoing.bytes ++
        headerCodec.encode (headerFor call.envelope call.sequence), calls := between }
  refine ⟨calls, ?_⟩
  unfold TcpConnection.sendEnvelope SendCall.frame
  rw [if_neg (by simp [valid]), if_neg (by simp [pointer, size]), header]
  simp only [Bool.not_true, Bool.false_eq_true, ↓reduceIte, payload, List.append_assoc]

/-- A list of calls on one connection: the connection after, and the calls that
returned true, each with the number of bytes on the wire at its return. -/
def sendAll (kernel : Kernel) (connection : TcpConnection) :
    List SendCall → TcpConnection × List (SendCall × Nat)
  | [] => (connection, [])
  | call :: calls =>
      let (sent, connection) := connection.sendEnvelope kernel call.envelope call.sequence
      let (final, completed) := sendAll kernel connection calls
      (final,
        if sent then (call, connection.outgoing.bytes.length) :: completed else completed)

theorem sendAll_eq (kernel : Kernel) (sends : kernel.Sends) (connection : TcpConnection)
    (valid : connection.valid) (calls : List SendCall) :
    (sendAll kernel connection calls).1.outgoing.bytes =
        connection.outgoing.bytes ++ (calls.filter SendCall.Supported).flatMap SendCall.frame ∧
      (sendAll kernel connection calls).2 =
        Framing.ends SendCall.frame connection.outgoing.bytes.length
          (calls.filter SendCall.Supported) := by
  induction calls generalizing connection with
  | nil => exact ⟨(List.append_nil _).symm, rfl⟩
  | cons call calls ih =>
      by_cases supported : call.Supported
      · obtain ⟨made, sent⟩ := sendEnvelope_supported kernel sends connection valid call supported
        obtain ⟨bytes, completed⟩ := ih { connection with
          outgoing := { bytes := connection.outgoing.bytes ++ call.frame, calls := made } } valid
        simp only [sendAll, sent, bytes, completed, List.filter_cons, supported, decide_true,
          ↓reduceIte, List.flatMap_cons, List.append_assoc, List.length_append, Framing.ends,
          and_self]
      · obtain ⟨bytes, completed⟩ := ih connection valid
        simp only [sendAll, sendEnvelope_unsupported kernel connection call supported, bytes,
          completed, List.filter_cons, supported, decide_false, Bool.false_eq_true, ↓reduceIte,
          and_self]

/-! ### Receiving -/

theorem recvEnvelope_short (kernel : Kernel) (receives : kernel.Receives)
    (connection : TcpConnection) (valid : connection.valid)
    (short : connection.incoming.bytes.length < 25) :
    ∃ calls, connection.recvEnvelope kernel =
      (none, { connection with incoming := { bytes := [], calls := calls } }) := by
  obtain ⟨calls, header⟩ := recvExact_short kernel receives 25 connection.incoming short
  refine ⟨calls, ?_⟩
  unfold TcpConnection.recvEnvelope
  rw [if_neg (by simp [valid]), headerCodec_width, header]

theorem recvEnvelope_header (kernel : Kernel) (receives : kernel.Receives)
    (connection : TcpConnection) (valid : connection.valid) (header : TcpFrameHeader)
    (rest : List UInt8)
    (incoming : connection.incoming.bytes = headerCodec.encode header ++ rest) :
    ∃ calls, connection.recvEnvelope kernel =
      ((recvPayload kernel header { bytes := rest, calls := calls }).1, { connection with
        incoming := (recvPayload kernel header { bytes := rest, calls := calls }).2 }) := by
  have width := headerCodec.encode_length header
  obtain ⟨calls, taken⟩ := recvExact_whole kernel receives headerCodec.width connection.incoming
    (by rw [incoming, List.length_append]; omega)
  rw [incoming, List.take_left' width, List.drop_left' width] at taken
  refine ⟨calls, ?_⟩
  unfold TcpConnection.recvEnvelope
  rw [if_neg (by simp [valid]), taken]
  simp only [headerCodec.decode_encode]

/-- The headers that the receiver goes on with. -/
def TcpFrameHeader.Acceptable (header : TcpFrameHeader) : Prop :=
  header.magic = tcpMagic ∧ header.version = tcpVersion ∧
    payloadSizeForType header.type ≠ 0 ∧
    payloadSizeForType header.type = header.payloadSize.toNat

theorem recvPayload_unacceptable (kernel : Kernel) (header : TcpFrameHeader)
    (incoming : Pipe UInt8) (unacceptable : ¬ header.Acceptable) :
    recvPayload kernel header incoming = (none, incoming) := by
  unfold recvPayload
  split
  · rfl
  · rename_i constants
    split
    · rfl
    · dsimp only
      split
      · rfl
      · rename_i sized
        push Not at constants sized
        exact absurd ⟨constants.1, constants.2, sized.1, sized.2⟩ unacceptable

/-- Behind such a header the payload decides. -/
theorem recvPayload_acceptable (kernel : Kernel) (header : TcpFrameHeader)
    (incoming : Pipe UInt8) (acceptable : header.Acceptable) :
    recvPayload kernel header incoming =
      match recvExact kernel header.payloadSize.toNat incoming with
      | (none, incoming) => (none, incoming)
      | (some payload, incoming) =>
          let envelope := Wire.Envelope.overwrite header.type payload
          if Wire.checksum envelope.payload ≠ header.checksum then (none, incoming)
          else (some envelope, incoming) := by
  obtain ⟨magic, version, nonzero, sized⟩ := acceptable
  have bound := Wire.payloadSizeForType_le header.type
  have pointer : payloadPtr header.type ≠ none :=
    fun null => nonzero ((Wire.payloadPtr_eq_none_iff _).mp null)
  unfold recvPayload
  rw [if_neg (by simp [magic, version]), if_neg (by simp only [tcpMaxPayloadSize]; omega),
    if_neg (by simp [sized.symm, nonzero])]
  exact if_neg pointer

theorem headerFor_acceptable (call : SendCall) (supported : call.Supported) :
    (headerFor call.envelope call.sequence).Acceptable :=
  ⟨rfl, rfl, supported, by rw [headerFor_payloadSize, call.envelope.sized]; rfl⟩

/-- The header of a supported call passes every check, and the payload decides. -/
theorem recvPayload_headerFor (kernel : Kernel) (call : SendCall) (supported : call.Supported)
    (incoming : Pipe UInt8) :
    recvPayload kernel (headerFor call.envelope call.sequence) incoming =
      match recvExact kernel call.envelope.payload.length incoming with
      | (none, incoming) => (none, incoming)
      | (some payload, incoming) =>
          let envelope := Wire.Envelope.overwrite call.envelope.type payload
          if Wire.checksum envelope.payload ≠ Wire.checksum call.envelope.payload then
            (none, incoming)
          else (some envelope, incoming) := by
  have accepted := recvPayload_acceptable kernel _ incoming (headerFor_acceptable call supported)
  rwa [headerFor_payloadSize, headerFor_type, headerFor_checksum] at accepted

/-- One frame is received, and what follows it stays. -/
theorem recvEnvelope_frame (kernel : Kernel) (receives : kernel.Receives)
    (connection : TcpConnection) (valid : connection.valid) (call : SendCall)
    (supported : call.Supported) (rest : List UInt8)
    (incoming : connection.incoming.bytes = call.frame ++ rest) :
    ∃ calls, connection.recvEnvelope kernel =
      (some call.envelope, { connection with incoming := { bytes := rest, calls := calls } }) := by
  rw [SendCall.frame, List.append_assoc] at incoming
  obtain ⟨between, header⟩ := recvEnvelope_header kernel receives connection valid _ _ incoming
  obtain ⟨calls, payload⟩ := recvExact_whole kernel receives call.envelope.payload.length
    { bytes := call.envelope.payload ++ rest, calls := between }
    (by rw [List.length_append]; omega)
  refine ⟨calls, ?_⟩
  rw [header, recvPayload_headerFor kernel call supported, payload]
  simp only [List.take_left, List.drop_left, Wire.Envelope.overwrite_payload, ne_eq,
    not_true_eq_false, ↓reduceIte]

/-- A torn frame is used up without a result. -/
theorem recvEnvelope_torn (kernel : Kernel) (receives : kernel.Receives)
    (connection : TcpConnection) (valid : connection.valid)
    (torn : Framing.Torn SendCall.frame SendCall.Supported connection.incoming.bytes) :
    ∃ calls, connection.recvEnvelope kernel =
      (none, { connection with incoming := { bytes := [], calls := calls } }) := by
  by_cases short : connection.incoming.bytes.length < 25
  · exact recvEnvelope_short kernel receives connection valid short
  · rcases torn with empty | ⟨call, supported, ⟨missing, split⟩, proper⟩
    · exact absurd (by rw [empty]; decide) short
    · have positive : 0 < missing.length := by
        apply List.length_pos_iff.mpr
        rintro rfl
        exact proper (by rw [← split, List.append_nil])
      have total := congrArg List.length split
      have width := headerCodec.encode_length (headerFor call.envelope call.sequence)
      rw [headerCodec_width] at width
      rw [SendCall.frame, List.length_append, List.length_append] at total
      -- the header is there, so the payload is what was cut
      have front := congrArg (List.take 25) split
      rw [List.take_append_of_le_length (by omega), SendCall.frame, List.take_left' width] at front
      have incoming : connection.incoming.bytes =
          headerCodec.encode (headerFor call.envelope call.sequence) ++
            connection.incoming.bytes.drop 25 := by
        rw [← front, List.take_append_drop]
      obtain ⟨between, header⟩ :=
        recvEnvelope_header kernel receives connection valid _ _ incoming
      obtain ⟨calls, payload⟩ := recvExact_short kernel receives call.envelope.payload.length
        { bytes := connection.incoming.bytes.drop 25, calls := between }
        (by rw [List.length_drop]; omega)
      refine ⟨calls, ?_⟩
      rw [header, recvPayload_headerFor kernel call supported, payload]

/-- The results of a number of `recv_envelope` calls in a row. -/
def receive (kernel : Kernel) : Nat → TcpConnection → List (Option Wire.Envelope)
  | 0, _ => []
  | count + 1, connection =>
      let (result, connection) := connection.recvEnvelope kernel
      result :: receive kernel count connection

/-- Whole frames come out in order, then `nullopt` for ever. -/
theorem receive_frames (kernel : Kernel) (receives : kernel.Receives) (count : Nat)
    (connection : TcpConnection) (valid : connection.valid) (calls : List SendCall)
    (supported : ∀ call ∈ calls, call.Supported) (rest : List UInt8)
    (torn : Framing.Torn SendCall.frame SendCall.Supported rest)
    (incoming : connection.incoming.bytes = calls.flatMap SendCall.frame ++ rest) :
    receive kernel count connection =
      (calls.map (fun call => some call.envelope)).takeD count none := by
  induction count generalizing connection calls rest with
  | zero => rfl
  | succ count ih =>
      cases calls with
      | nil =>
          rw [List.flatMap_nil, List.nil_append] at incoming
          obtain ⟨made, result⟩ := recvEnvelope_torn kernel receives connection valid
            (incoming ▸ torn)
          have later := ih { connection with incoming := { bytes := [], calls := made } } valid []
            (fun _ member => absurd member List.not_mem_nil) [] (Or.inl rfl) rfl
          rw [receive, result]
          dsimp only
          rw [later]
          rfl
      | cons call calls =>
          rw [List.flatMap_cons, List.append_assoc] at incoming
          obtain ⟨made, result⟩ := recvEnvelope_frame kernel receives connection valid call
            (supported call List.mem_cons_self) _ incoming
          have later := ih { connection with
            incoming := { bytes := calls.flatMap SendCall.frame ++ rest, calls := made } } valid
            calls (fun other member => supported other (List.mem_cons_of_mem _ member)) rest torn
            rfl
          rw [receive, result]
          dsimp only
          rw [later]
          rfl

/-! ### Both ends -/

/-- The receiving end of a connection whose stream is cut after some bytes. -/
def cutConnection (fd : Int) (sender : TcpConnection) (cut : Nat) : TcpConnection where
  fd := fd
  incoming := { bytes := sender.outgoing.bytes.take cut }

theorem receive_cut (sending receiving : Kernel) (sends : sending.Sends)
    (receives : receiving.Receives) (sender receiver : Int) (connected : 0 ≤ sender)
    (accepted : 0 ≤ receiver) (calls : List SendCall) (cut count : Nat) :
    receive receiving count
        (cutConnection receiver (sendAll sending { fd := sender } calls).1 cut) =
      (((sendAll sending { fd := sender } calls).2.filter (fun entry => entry.2 ≤ cut)).map
        (fun entry => some entry.1.envelope)).takeD count none := by
  obtain ⟨bytes, completed⟩ :=
    sendAll_eq sending sends { fd := sender } (decide_eq_true connected) calls
  have supported : ∀ call ∈ calls.filter SendCall.Supported, call.Supported :=
    fun call member => of_decide_eq_true (List.mem_filter.mp member).2
  obtain ⟨rest, split, torn⟩ :=
    Framing.take_frames SendCall.frame SendCall.Supported _ supported cut
  have before := Framing.prefix_within SendCall.frame cut (calls.filter SendCall.Supported)
  have expected := receive_frames receiving receives count
    (cutConnection receiver (sendAll sending { fd := sender } calls).1 cut)
    (decide_eq_true accepted) _ (fun call member => supported call (before.subset member)) rest
    torn (by rw [← split, cutConnection, bytes, List.nil_append])
  rw [expected, completed, Framing.within_eq_filter _ 0, List.map_map, Nat.zero_add]
  rfl

/-- The sends that return true are those of the supported types, the others
return false and put nothing on the wire. Repeated receives return the
envelopes of the frames that were complete before the cut, and `nullopt` from
then on; without a cut these are all sends that returned true. -/
theorem transport_round_trip (sending receiving : Kernel) (sends : sending.Sends)
    (receives : receiving.Receives) (sender receiver : Int) (connected : 0 ≤ sender)
    (accepted : 0 ≤ receiver) (calls : List SendCall) :
    (sendAll sending { fd := sender } calls).2.map Prod.fst =
      calls.filter SendCall.Supported ∧
    (∀ (connection : TcpConnection) (call : SendCall),
      payloadSizeForType call.envelope.type = 0 →
        connection.sendEnvelope sending call.envelope call.sequence = (false, connection)) ∧
    (∀ cut count, receive receiving count
        (cutConnection receiver (sendAll sending { fd := sender } calls).1 cut) =
      (((sendAll sending { fd := sender } calls).2.filter (fun entry => entry.2 ≤ cut)).map
        (fun entry => some entry.1.envelope)).takeD count none) ∧
    ∀ count, receive receiving count (cutConnection receiver
        (sendAll sending { fd := sender } calls).1
        (sendAll sending { fd := sender } calls).1.outgoing.bytes.length) =
      ((sendAll sending { fd := sender } calls).2.map
        (fun entry => some entry.1.envelope)).takeD count none := by
  obtain ⟨bytes, completed⟩ :=
    sendAll_eq sending sends { fd := sender } (decide_eq_true connected) calls
  refine ⟨by rw [completed, Framing.ends_map_fst], ?_,
    receive_cut sending receiving sends receives sender receiver connected accepted calls, ?_⟩
  · intro connection call unsupported
    exact sendEnvelope_unsupported sending connection call (not_not.mpr unsupported)
  · intro count
    rw [receive_cut sending receiving sends receives sender receiver connected accepted,
      List.filter_eq_self.mpr]
    intro entry member
    rw [completed] at member
    have bound := Framing.ends_le _ _ _ entry member
    rw [bytes, List.length_append, decide_eq_true_eq]
    exact bound

/-- A socket that moves one byte per call. -/
def trickle : Kernel where
  send := fun _ _ => 1
  recv := fun _ _ available => min available 1

/-- A heartbeat, a cancel that has no payload, and an acknowledgement. -/
def threeSends : List SendCall :=
  [⟨Wire.Envelope.overwrite MsgType.heartbeat.code [8], 1⟩,
    ⟨Wire.Envelope.overwrite MsgType.cancelOrder.code [], 2⟩,
    ⟨Wire.Envelope.overwrite MsgType.ack.code [5], 3⟩]

/-- Cut inside the second frame. -/
theorem transport_round_trip_trickle :
    receive trickle 3 (cutConnection 4 (sendAll trickle { fd := 3 } threeSends).1 130) =
      [some (Wire.Envelope.overwrite MsgType.heartbeat.code [8]), none, none] := by
  have sends : trickle.Sends := fun _ _ _ => Int.one_pos
  have receives : trickle.Receives := by
    intro call length available positive
    simp only [trickle]
    omega
  have cut := (transport_round_trip trickle trickle sends receives 3 4 (by decide) (by decide)
    threeSends).2.2.1 130 3
  exact cut.trans (by decide +kernel)

end TradingPlatform.TcpTransport
