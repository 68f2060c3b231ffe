import TradingPlatform.GatewayNode
import TradingPlatform.WriteAhead

set_option autoImplicit false

/- The order management node and the gateway node on their own: requests and
responses over two connections, with any signals coming in. -/
namespace TradingPlatform

/-! ### The order management node -/

/-- Records of the journal, without sequences and times. -/
abbrev JournalRecord := JournalRecordType × Envelope

def NewOrder.intentRecord (order : NewOrder) : JournalRecord := (.orderIntent, .newOrder order)

/-- What `process` writes for a response. -/
def Envelope.answerRecord (response : Envelope) : List JournalRecord :=
  match response with
  | .ack _ => [(.gatewayAck, response)]
  | .reject _ => [(.gatewayReject, response)]
  | _ => []

/-- An order and the response to it. -/
abbrev Exchange := NewOrder × Envelope

def Exchange.records (exchange : Exchange) : List JournalRecord :=
  exchange.1.intentRecord :: exchange.2.answerRecord

def Exchange.events (exchange : Exchange) : List Envelope := [.newOrder exchange.1, exchange.2]

def JournalLog.records (journal : JournalLog) : List JournalRecord :=
  journal.entries.map fun entry => (entry.recordType, entry.envelope)

theorem JournalLog.record_records (journal : JournalLog) (metrics : MetricsRegistry)
    (io : JournalIo) (recordType : JournalRecordType) (envelope : Envelope) (sequence : Sequence)
    (supported : Wire.payloadSizeForType envelope.type.code ≠ 0) (writes : journal.Writes io) :
    (journal.record metrics io recordType envelope sequence).1.records =
      journal.records ++ [(recordType, envelope)] := by
  have entries := (journal.append_entries io recordType envelope sequence supported).1
  rw [if_pos writes] at entries
  have same : (journal.record metrics io recordType envelope sequence).1 =
      (journal.append io recordType envelope sequence).1 := rfl
  rw [same, records, entries, List.map_append]
  rfl

/-- What the replay file of the order manager shows: completed exchanges, and the
order of one that is under way. -/
structure Conversation where
  completed : List Exchange := []
  current : Option NewOrder := none
  deriving DecidableEq, Repr

def Conversation.orders (conversation : Conversation) : List NewOrder :=
  conversation.completed.map Prod.fst ++ conversation.current.toList

namespace OmsNode

/-- The replay file shows the conversation and the response that is being
processed. -/
def Shows (node : OmsNode) (conversation : Conversation) : Prop :=
  match node.phase, conversation.current with
  | .awaitingSignal, none | .journaling _, none | .recording _, none | .stopped, none =>
      node.replayWriter.envelopes = conversation.completed.flatMap Exchange.events
  | .sending order, some recorded =>
      recorded = order ∧ node.replayWriter.envelopes =
        conversation.completed.flatMap Exchange.events ++ [.newOrder order]
  | .awaitingResponse, some order | .recordingResponse _, some order | .stopped, some order =>
      node.replayWriter.envelopes =
        conversation.completed.flatMap Exchange.events ++ [.newOrder order]
  | .processing response, some order =>
      node.replayWriter.envelopes =
        conversation.completed.flatMap Exchange.events ++ [.newOrder order, response]
  | _, _ => False

/-- The order whose intent is in the journal and whose exchange is not completed. -/
def begun (node : OmsNode) (conversation : Conversation) : List NewOrder :=
  match node.phase with
  | .recording order => [order]
  | _ => conversation.current.toList

/-- The journal shows the conversation, and the intent of the exchange under way. -/
def Journals (node : OmsNode) (conversation : Conversation) : Prop :=
  node.journal.records = conversation.completed.flatMap Exchange.records ++
    (node.begun conversation).map NewOrder.intentRecord

/-- The conversation after the next step. -/
def advance (node : OmsNode) (conversation : Conversation) : Conversation :=
  match node.phase with
  | .recording order => { conversation with current := some order }
  | .processing response =>
      { completed := conversation.completed ++
          conversation.current.toList.map fun order => (order, response) }
  | _ => conversation

/-- The order that the next step records. -/
def records (node : OmsNode) : List NewOrder :=
  match node.phase with
  | .recording order => [order]
  | _ => []

/-- The order that has been recorded and not been sent. -/
def unsent (node : OmsNode) : List NewOrder :=
  match node.phase with
  | .sending order => [order]
  | _ => []

/-- The response that has been received and not been processed. -/
def holds (node : OmsNode) : List Envelope :=
  match node.phase with
  | .recordingResponse response => [response]
  | .processing response => [response]
  | _ => []

/-- The responses a step takes in. -/
def hears (node : OmsNode) (input : NodeInput) : List Envelope :=
  if node.phase = .awaitingResponse then input.received.toList else []

section Exchanging

variable (node : OmsNode) (input : NodeInput)

theorem process_records (response : Envelope) (writes : node.journal.Writes input.journal) :
    (node.process response input.journal).journal.records =
      node.journal.records ++ response.answerRecord := by
  cases response with
  | ack ack =>
      have supported : Wire.payloadSizeForType MsgType.ack.code ≠ 0 := by decide
      exact node.journal.record_records node.metrics input.journal .gatewayAck (.ack ack)
        (node.journalSeq + 1) supported writes
  | reject reject =>
      have supported : Wire.payloadSizeForType MsgType.reject.code ≠ 0 := by decide
      exact node.journal.record_records node.metrics input.journal .gatewayReject (.reject reject)
        (node.journalSeq + 1) supported writes
  | _ => exact (List.append_nil _).symm

/-- A signal writes nothing to the files yet. -/
theorem awaiting_files (awaiting : node.phase = .awaitingSignal) :
    (node.step input).1.journal = node.journal ∧
      (node.step input).1.replayWriter = node.replayWriter := by
  simp only [step, awaiting]
  cases input.received with
  | none => exact ⟨rfl, rfl⟩
  | some envelope =>
      cases envelope with
      | signal signal =>
          dsimp only
          by_cases accepted : node.manager.Accepts signal
          · rw [OrderManager.onSignal_accept _ _ _ _ accepted]
            exact ⟨rfl, rfl⟩
          · rw [OrderManager.onSignal_refuse _ _ _ _ accepted]
            exact ⟨rfl, rfl⟩
      | _ => exact ⟨rfl, rfl⟩

/-- The orders of the conversation grow by the one that is recorded. -/
theorem advance_orders (conversation : Conversation) (shows_ : node.Shows conversation) :
    (node.advance conversation).orders = conversation.orders ++ node.records := by
  obtain ⟨completed, current⟩ := conversation
  cases current with
  | none =>
      cases phase : node.phase with
      | processing response => simp [Shows, phase] at shows_
      | _ => simp [advance, records, Conversation.orders, phase]
  | some order =>
      cases phase : node.phase with
      | recording other => simp [Shows, phase] at shows_
      | _ => simp [advance, records, Conversation.orders, phase]

/-- The responses received grow by the one that is heard. -/
theorem advance_responses (conversation : Conversation) (shows_ : node.Shows conversation) :
    (node.advance conversation).completed.map Prod.snd ++ (node.step input).1.holds =
      conversation.completed.map Prod.snd ++ node.holds ++ node.hears input := by
  cases phase : node.phase with
  | awaitingSignal =>
      rcases (node.awaiting_phase input phase).2 with next | next | ⟨order, next⟩ <;>
        simp [advance, holds, hears, next, phase]
  | sending order =>
      cases sends : input.sends <;> simp [step, phase, sends, advance, holds, hears]
  | awaitingResponse =>
      cases received : input.received <;> simp [step, phase, received, advance, holds, hears]
  | processing response =>
      obtain ⟨completed, current⟩ := conversation
      cases current with
      | none => simp [Shows, phase] at shows_
      | some order => simp [step, phase, advance, holds, hears]
  | _ => simp [step, phase, advance, holds, hears]

/-- One step of the node on its replay file. -/
theorem shows_step (conversation : Conversation) (opened : node.replayWriter.opened = true)
    (replay : input.replay.writes = true) (shows_ : node.Shows conversation) :
    (node.step input).1.Shows (node.advance conversation) := by
  obtain ⟨completed, current⟩ := conversation
  cases current with
  | none =>
      cases phase : node.phase with
      | awaitingSignal =>
          have file : node.replayWriter.envelopes = completed.flatMap Exchange.events := by
            simpa [Shows, phase] using shows_
          have same := (node.awaiting_files input phase).2
          rcases (node.awaiting_phase input phase).2 with next | next | ⟨order, next⟩ <;>
            simpa [Shows, advance, phase, next, same] using file
      | recording order =>
          have file : node.replayWriter.envelopes = completed.flatMap Exchange.events := by
            simpa [Shows, phase] using shows_
          have written := node.replayWriter.record_envelopes node.metrics input.replay
            (.newOrder order) (node.replaySeq + 1) opened replay
          simpa [step, phase, Shows, advance, file] using written
      | journaling order => simpa [step, phase, Shows, advance] using shows_
      | stopped => simpa [step, phase, Shows, advance] using shows_
      | _ => simp [Shows, phase] at shows_
  | some order =>
      cases phase : node.phase with
      | sending sent =>
          have file : order = sent ∧ node.replayWriter.envelopes =
              completed.flatMap Exchange.events ++ [.newOrder sent] := by
            simpa [Shows, phase] using shows_
          obtain ⟨rfl, file⟩ := file
          cases sends : input.sends <;> simpa [step, phase, sends, Shows, advance] using file
      | awaitingResponse =>
          cases received : input.received <;>
            simpa [step, phase, received, Shows, advance] using shows_
      | recordingResponse response =>
          have file : node.replayWriter.envelopes =
              completed.flatMap Exchange.events ++ [.newOrder order] := by
            simpa [Shows, phase] using shows_
          have written := node.replayWriter.record_envelopes node.metrics input.replay
            response (node.replaySeq + 1) opened replay
          simpa [step, phase, Shows, advance, file] using written
      | processing response =>
          have file : node.replayWriter.envelopes =
              completed.flatMap Exchange.events ++ [.newOrder order, response] := by
            simpa [Shows, phase] using shows_
          simpa [step, phase, Shows, advance, Exchange.events] using file
      | stopped => simpa [step, phase, Shows, advance] using shows_
      | _ => simp [Shows, phase] at shows_

/-- One step of the node on its journal. -/
theorem journals_step (conversation : Conversation) (shows_ : node.Shows conversation)
    (journal : node.journal.Writes input.journal) (journals : node.Journals conversation) :
    (node.step input).1.Journals (node.advance conversation) := by
  obtain ⟨completed, current⟩ := conversation
  cases phase : node.phase with
  | awaitingSignal =>
      have same := (node.awaiting_files input phase).1
      rcases (node.awaiting_phase input phase).2 with next | next | ⟨order, next⟩ <;>
        simpa [Journals, begun, advance, phase, next, same] using journals
  | journaling order =>
      have supported : Wire.payloadSizeForType MsgType.newOrder.code ≠ 0 := by decide
      have written := node.journal.record_records node.metrics input.journal .orderIntent
        (.newOrder order) (node.journalSeq + 1) supported journal
      cases current with
      | none =>
          have before : node.journal.records = completed.flatMap Exchange.records := by
            simpa [Journals, begun, phase] using journals
          simpa [step, phase, Journals, begun, advance, NewOrder.intentRecord, before]
            using written
      | some other => simp [Shows, phase] at shows_
  | sending order =>
      cases sends : input.sends <;>
        simpa [step, phase, sends, Journals, begun, advance] using journals
  | awaitingResponse =>
      cases received : input.received <;>
        simpa [step, phase, received, Journals, begun, advance] using journals
  | processing response =>
      have written := node.process_records input response journal
      cases current with
      | none => simp [Shows, phase] at shows_
      | some order =>
          have before : node.journal.records =
              completed.flatMap Exchange.records ++ [order.intentRecord] := by
            simpa [Journals, begun, phase] using journals
          simpa [step, phase, Journals, begun, advance, before, Exchange.records] using written
  | _ => simpa [step, phase, Journals, begun, advance] using journals

theorem awaitingResponse_quiet (awaiting : node.phase = .awaitingResponse) :
    (node.step input).2 = [] := by
  simp only [step, awaiting]
  cases input.received <;> rfl

/-- What the node sends is what it has recorded and not sent. -/
theorem carries_step (recorded consumed : List NewOrder) (connection : Connection)
    (delivered : Bool) (whole : delivered = true → connection.broken = false)
    (carries : connection.Carries Envelope.newOrder? recorded node.unsent consumed) :
    (connection.send delivered (node.step input).2).Carries Envelope.newOrder?
      (recorded ++ node.records) (node.step input).1.unsent consumed := by
  cases phase : node.phase with
  | awaitingSignal =>
      obtain ⟨quiet, next⟩ := node.awaiting_phase input phase
      have idle : (node.step input).1.unsent = [] := by
        rcases next with next | next | ⟨order, next⟩ <;> simp [unsent, next]
      rw [quiet, idle, Connection.send_nil]
      simpa [records, unsent, phase] using carries
  | recording order =>
      have placed : connection.Carries Envelope.newOrder? recorded [] consumed := by
        simpa [unsent, phase] using carries
      simpa [step, phase, records, unsent] using placed.record order
  | sending order =>
      have placed : connection.Carries Envelope.newOrder? recorded [order] consumed := by
        simpa [unsent, phase] using carries
      have sent := placed.send delivered whole (.newOrder order) rfl
      cases sends : input.sends <;> simpa [step, phase, sends, records, unsent] using sent
  | awaitingResponse =>
      cases received : input.received <;>
        simpa [step, phase, received, records, unsent] using carries
  | _ => simpa [step, phase, records, unsent] using carries

end Exchanging
end OmsNode

/-! ### The gateway node -/

namespace GatewayNode

/-- The response that is about to be recorded. -/
def unrecorded (node : GatewayNode) : List Envelope :=
  match node.phase with
  | .recording response => [response]
  | _ => []

/-- The response that has been recorded and not been sent. -/
def unsent (node : GatewayNode) : List Envelope :=
  match node.phase with
  | .sending response => [response]
  | _ => []

/-- The orders a step takes in. -/
def takes (node : GatewayNode) (input : NodeInput) : List NewOrder :=
  if node.phase = .receiving then (input.received.bind Envelope.newOrder?).toList else []

/-- The node has one response for every order it has taken, in order. -/
def Answers (node : GatewayNode) (consumed : List NewOrder) : Prop :=
  (node.replayWriter.envelopes ++ node.unrecorded).map Envelope.answeredId =
    consumed.map fun order => some order.clientOrderId

section Answering

variable (node : GatewayNode) (input : NodeInput)

@[simp] theorem respond_replayWriter (order : NewOrder) :
    (node.respond order input).1.replayWriter = node.replayWriter := by
  unfold respond
  cases node.mode with
  | kraken => cases input.accepted <;> rfl
  | sim =>
      cases result : node.simulatedGateway.sendOrder order input.now with
      | mk gateway response => cases response <;> rfl

theorem step_opened : (node.step input).1.replayWriter.opened = node.replayWriter.opened := by
  unfold step
  cases node.phase with
  | receiving =>
      cases input.received with
      | none => rfl
      | some envelope => cases envelope <;> simp
  | recording response => simp
  | sending response => cases input.sends <;> rfl
  | stopped => rfl

theorem answers_step (consumed : List NewOrder) (opened : node.replayWriter.opened = true)
    (replay : input.replay.writes = true) (answers : node.Answers consumed) :
    (node.step input).1.Answers (consumed ++ node.takes input) := by
  cases phase : node.phase with
  | receiving =>
      have before : node.replayWriter.envelopes.map Envelope.answeredId =
          consumed.map fun order => some order.clientOrderId := by
        simpa [Answers, unrecorded, phase] using answers
      cases received : input.received with
      | none => simpa [step, Answers, unrecorded, takes, phase, received] using before
      | some envelope =>
          cases envelope with
          | newOrder order =>
              simpa [step, Answers, unrecorded, takes, phase, received, Envelope.newOrder?,
                respond_answer] using before
          | _ =>
              simpa [step, Answers, unrecorded, takes, phase, received, Envelope.newOrder?]
                using before
  | recording response =>
      have written := node.replayWriter.record_envelopes node.metrics input.replay response
        node.responseSeq opened replay
      simpa [step, Answers, unrecorded, takes, phase, written] using answers
  | sending response =>
      cases sends : input.sends <;>
        simpa [step, Answers, unrecorded, takes, phase, sends] using answers
  | stopped => simpa [step, Answers, unrecorded, takes, phase] using answers

theorem receiving_quiet (receiving : node.phase = .receiving) : (node.step input).2 = [] := by
  simp only [step, receiving]
  cases input.received with
  | none => rfl
  | some envelope => cases envelope <;> rfl

/-- What the node sends is what it has recorded and not sent. -/
theorem carries_step (consumed : List Envelope) (connection : Connection)
    (delivered : Bool) (opened : node.replayWriter.opened = true)
    (replay : input.replay.writes = true)
    (whole : delivered = true → connection.broken = false)
    (carries : connection.Carries some node.replayWriter.envelopes node.unsent consumed) :
    (connection.send delivered (node.step input).2).Carries some
      (node.step input).1.replayWriter.envelopes (node.step input).1.unsent consumed := by
  cases phase : node.phase with
  | receiving =>
      cases received : input.received with
      | none => simpa [step, phase, received, unsent] using carries
      | some envelope =>
          cases envelope <;> simpa [step, phase, received, unsent] using carries
  | recording response =>
      have written := node.replayWriter.record_envelopes node.metrics input.replay response
        node.responseSeq opened replay
      have placed : connection.Carries some node.replayWriter.envelopes [] consumed := by
        simpa [unsent, phase] using carries
      simpa [step, phase, unsent, written] using placed.record response
  | sending response =>
      have placed : connection.Carries some node.replayWriter.envelopes [response] consumed := by
        simpa [unsent, phase] using carries
      have sent := placed.send delivered whole response rfl
      cases sends : input.sends <;> simpa [step, phase, sends, unsent] using sent
  | stopped => simpa [step, phase, unsent] using carries

end Answering
end GatewayNode

/-! ### The two nodes -/

structure OrderExchange where
  oms : OmsNode
  gateway : GatewayNode
  omsToGateway : Connection := {}
  gatewayToOms : Connection := {}

/-- The node that takes a step, whether a `recv_envelope` from the other finds
its peer, and the rest of the surroundings. What the order management node
receives while it awaits a signal is in `input`, and arbitrary. -/
inductive ExchangeAction where
  | oms (connected : Bool) (input : NodeInput)
  | gateway (connected : Bool) (input : NodeInput)
  deriving DecidableEq, Repr

namespace OrderExchange

/-- The replay files could be opened, which empties them. -/
def start (journal : JournalLog) (io : JournalIo) (mode : GatewayMode) : OrderExchange where
  oms := .start journal io [] true
  gateway := .start mode [] true

def stepOms (exchange : OrderExchange) (connected : Bool) (input : NodeInput) : OrderExchange :=
  if exchange.oms.phase = .awaitingSignal then
    { exchange with oms := (exchange.oms.step input).1 }
  else if exchange.oms.phase = .awaitingResponse then
    match exchange.gatewayToOms.recv connected with
    | none => exchange
    | some (gatewayToOms, received) =>
        { exchange with oms := (exchange.oms.step { input with received }).1, gatewayToOms }
  else
    let sends := exchange.omsToGateway.delivers input
    let (oms, sent) := exchange.oms.step { input with sends }
    { exchange with oms, omsToGateway := exchange.omsToGateway.send sends sent }

def stepGateway (exchange : OrderExchange) (connected : Bool) (input : NodeInput) :
    OrderExchange :=
  if exchange.gateway.phase = .receiving then
    match exchange.omsToGateway.recv connected with
    | none => exchange
    | some (omsToGateway, received) =>
        { exchange with
          gateway := (exchange.gateway.step { input with received }).1, omsToGateway }
  else
    let sends := exchange.gatewayToOms.delivers input
    let (gateway, sent) := exchange.gateway.step { input with sends }
    { exchange with gateway, gatewayToOms := exchange.gatewayToOms.send sends sent }

def step (exchange : OrderExchange) : ExchangeAction → OrderExchange
  | .oms connected input => exchange.stepOms connected input
  | .gateway connected input => exchange.stepGateway connected input

/-- The file writes of an action succeed. -/
def Writes (exchange : OrderExchange) : ExchangeAction → Prop
  | .oms _ input => input.replay.writes = true ∧ exchange.oms.journal.Writes input.journal
  | .gateway _ input => input.replay.writes = true

/-- The moments of the runs behind a journal whose writes succeed. -/
inductive Reached (journal : JournalLog) (mode : GatewayMode) : OrderExchange → Prop
  | start (io : JournalIo) : Reached journal mode (start journal io mode)
  | step (exchange : OrderExchange) (action : ExchangeAction)
      (reached : Reached journal mode exchange) (writes : exchange.Writes action) :
      Reached journal mode (exchange.step action)

/-- Where both nodes are: the conversation that the file of the order manager
shows, the orders the gateway has taken, and what the connections carry. -/
structure Agreed (exchange : OrderExchange) (conversation : Conversation)
    (consumed : List NewOrder) : Prop where
  omsOpened : exchange.oms.replayWriter.opened = true
  gatewayOpened : exchange.gateway.replayWriter.opened = true
  shows_ : exchange.oms.Shows conversation
  answers : exchange.gateway.Answers consumed
  orders : exchange.omsToGateway.Carries Envelope.newOrder? conversation.orders
    exchange.oms.unsent consumed
  responses : exchange.gatewayToOms.Carries some exchange.gateway.replayWriter.envelopes
    exchange.gateway.unsent (conversation.completed.map Prod.snd ++ exchange.oms.holds)

section Steps

variable (exchange : OrderExchange) (connected : Bool) (input : NodeInput)
variable (conversation : Conversation) (consumed : List NewOrder)

/-- A step of the order manager moves the conversation on, or finds its
connection idle. -/
theorem agreed_stepOms (agreed : exchange.Agreed conversation consumed)
    (replay : input.replay.writes = true) :
    (exchange.stepOms connected input).Agreed conversation consumed ∧
        exchange.stepOms connected input = exchange ∨
      (exchange.stepOms connected input).Agreed (exchange.oms.advance conversation) consumed ∧
        ∃ input' : NodeInput, input'.journal = input.journal ∧
          (exchange.stepOms connected input).oms = (exchange.oms.step input').1 := by
  have orders := exchange.oms.advance_orders conversation agreed.shows_
  unfold stepOms
  by_cases awaiting : exchange.oms.phase = .awaitingSignal
  · rw [if_pos awaiting]
    right
    have placed := exchange.oms.carries_step input _ consumed exchange.omsToGateway false
      (fun sent => nomatch sent) agreed.orders
    rw [(exchange.oms.awaiting_phase input awaiting).1, Connection.send_nil, ← orders] at placed
    have responses := exchange.oms.advance_responses input conversation agreed.shows_
    have silent : exchange.oms.hears input = [] := by simp [OmsNode.hears, awaiting]
    rw [silent, List.append_nil] at responses
    have next : ({ exchange with oms := (exchange.oms.step input).1 } : OrderExchange).Agreed
        (exchange.oms.advance conversation) consumed :=
      { agreed with
        omsOpened := (exchange.oms.step_opened input).trans agreed.omsOpened
        shows_ := exchange.oms.shows_step input conversation agreed.omsOpened replay agreed.shows_
        orders := placed
        responses := responses ▸ agreed.responses }
    exact ⟨next, input, rfl, rfl⟩
  · rw [if_neg awaiting]
    by_cases response : exchange.oms.phase = .awaitingResponse
    · rw [if_pos response]
      cases taken : exchange.gatewayToOms.recv connected with
      | none => exact Or.inl ⟨agreed, rfl⟩
      | some result =>
          obtain ⟨connection, received⟩ := result
          right
          have placed := exchange.oms.carries_step { input with received } _ consumed
            exchange.omsToGateway false (fun sent => nomatch sent) agreed.orders
          rw [exchange.oms.awaitingResponse_quiet _ response, Connection.send_nil,
            ← orders] at placed
          have responses :=
            exchange.oms.advance_responses { input with received } conversation agreed.shows_
          have heard : exchange.oms.hears { input with received } = received.toList := by
            simp [OmsNode.hears, response]
          have carried := agreed.responses.recv connected connection received taken
          rw [Option.bind_fun_some, ← heard, ← responses] at carried
          have next : ({ exchange with
                oms := (exchange.oms.step { input with received }).1
                gatewayToOms := connection } : OrderExchange).Agreed
              (exchange.oms.advance conversation) consumed :=
            { agreed with
              omsOpened := (exchange.oms.step_opened _).trans agreed.omsOpened
              shows_ := exchange.oms.shows_step { input with received } conversation
                agreed.omsOpened replay agreed.shows_
              orders := placed
              responses := carried }
          exact ⟨next, { input with received }, rfl, rfl⟩
    · rw [if_neg response]
      right
      have placed := exchange.oms.carries_step
        { input with sends := exchange.omsToGateway.delivers input } _ consumed
        exchange.omsToGateway _ (exchange.omsToGateway.delivers_intact input) agreed.orders
      rw [← orders] at placed
      have responses := exchange.oms.advance_responses
        { input with sends := exchange.omsToGateway.delivers input } conversation agreed.shows_
      have silent : exchange.oms.hears
          { input with sends := exchange.omsToGateway.delivers input } = [] := by
        simp [OmsNode.hears, response]
      rw [silent, List.append_nil] at responses
      have shows_ := exchange.oms.shows_step
        { input with sends := exchange.omsToGateway.delivers input } conversation
        agreed.omsOpened replay agreed.shows_
      exact ⟨{ agreed with
          omsOpened := (exchange.oms.step_opened _).trans agreed.omsOpened
          shows_ := shows_
          orders := placed
          responses := responses ▸ agreed.responses },
        { input with sends := exchange.omsToGateway.delivers input }, rfl, rfl⟩

theorem agreed_stepGateway (agreed : exchange.Agreed conversation consumed)
    (replay : input.replay.writes = true) :
    ∃ consumed, (exchange.stepGateway connected input).Agreed conversation consumed := by
  unfold stepGateway
  by_cases receiving : exchange.gateway.phase = .receiving
  · rw [if_pos receiving]
    cases taken : exchange.omsToGateway.recv connected with
    | none => exact ⟨consumed, agreed⟩
    | some result =>
        obtain ⟨connection, received⟩ := result
        have answers := exchange.gateway.answers_step { input with received } consumed
          agreed.gatewayOpened replay agreed.answers
        have sent := exchange.gateway.carries_step { input with received } _
          exchange.gatewayToOms false agreed.gatewayOpened replay (fun sent => nomatch sent)
          agreed.responses
        rw [exchange.gateway.receiving_quiet _ receiving, Connection.send_nil] at sent
        have orders := agreed.orders.recv connected connection received taken
        rw [GatewayNode.takes, if_pos receiving] at answers
        exact ⟨_, { agreed with
          gatewayOpened := (exchange.gateway.step_opened _).trans agreed.gatewayOpened
          answers := answers
          orders := orders
          responses := sent }⟩
  · rw [if_neg receiving]
    have answers := exchange.gateway.answers_step
      { input with sends := exchange.gatewayToOms.delivers input } consumed
      agreed.gatewayOpened replay agreed.answers
    have sent := exchange.gateway.carries_step
      { input with sends := exchange.gatewayToOms.delivers input } _ exchange.gatewayToOms _
      agreed.gatewayOpened replay (exchange.gatewayToOms.delivers_intact input)
      agreed.responses
    rw [GatewayNode.takes, if_neg receiving, List.append_nil] at answers
    exact ⟨consumed, { agreed with
      gatewayOpened := (exchange.gateway.step_opened _).trans agreed.gatewayOpened
      answers := answers
      responses := sent }⟩

end Steps

/-- A journal that was empty shows the conversation. -/
theorem reached_agreed (mode : GatewayMode) (exchange : OrderExchange)
    (reached : Reached {} mode exchange) :
    ∃ conversation consumed, exchange.Agreed conversation consumed ∧
      exchange.oms.Journals conversation := by
  induction reached with
  | start io =>
      refine ⟨{}, [], ⟨rfl, rfl, rfl, rfl, .start, .start⟩, ?_⟩
      cases opens : io.opens <;>
        simp [start, OmsNode.start, OmsNode.Journals, OmsNode.begun, JournalLog.open,
          JournalLog.records, opens]
  | step exchange action reached writes ih =>
      obtain ⟨conversation, consumed, agreed, journals⟩ := ih
      cases action with
      | oms connected input =>
          rcases exchange.agreed_stepOms connected input conversation consumed agreed writes.1
            with ⟨next, idle⟩ | ⟨next, input', same, oms⟩
          · rw [step, idle]
            exact ⟨conversation, consumed, agreed, journals⟩
          · refine ⟨_, consumed, next, ?_⟩
            rw [step, oms]
            exact exchange.oms.journals_step input' conversation agreed.shows_
              (same ▸ writes.2) journals
      | gateway connected input =>
          obtain ⟨more, next⟩ :=
            exchange.agreed_stepGateway connected input conversation consumed agreed writes
          have oms : (exchange.stepGateway connected input).oms = exchange.oms := by
            unfold stepGateway
            split
            · split <;> rfl
            · rfl
          refine ⟨conversation, more, next, ?_⟩
          rw [step, oms]
          exact journals

/-! ### Agreement -/

/-- The responses in a replay file. -/
def responsesOf (log : ReplayLog) : List Envelope :=
  log.envelopes.filter fun envelope => envelope.answeredId.isSome

/-- The response that the order manager has recorded and not processed. -/
def unprocessed (node : OmsNode) : List Envelope :=
  match node.phase with
  | .processing response => [response]
  | _ => []

/-- The replay file of the order manager, whatever its phase. -/
theorem shows_file (node : OmsNode) (conversation : Conversation)
    (shows_ : node.Shows conversation) :
    node.replayWriter.envelopes =
      conversation.completed.flatMap Exchange.events ++
        (conversation.current.toList.map Envelope.newOrder ++ unprocessed node) := by
  obtain ⟨completed, current⟩ := conversation
  cases current with
  | none =>
      cases phase : node.phase with
      | awaitingSignal => simpa [OmsNode.Shows, unprocessed, phase] using shows_
      | journaling order => simpa [OmsNode.Shows, unprocessed, phase] using shows_
      | recording order => simpa [OmsNode.Shows, unprocessed, phase] using shows_
      | stopped => simpa [OmsNode.Shows, unprocessed, phase] using shows_
      | _ => simp [OmsNode.Shows, phase] at shows_
  | some order =>
      cases phase : node.phase with
      | sending sent =>
          have file : order = sent ∧ node.replayWriter.envelopes =
              completed.flatMap Exchange.events ++ [.newOrder sent] := by
            simpa [OmsNode.Shows, phase] using shows_
          simpa [unprocessed, phase, file.1] using file.2
      | awaitingSignal => simp [OmsNode.Shows, phase] at shows_
      | journaling other => simp [OmsNode.Shows, phase] at shows_
      | recording other => simp [OmsNode.Shows, phase] at shows_
      | _ => simpa [OmsNode.Shows, unprocessed, phase] using shows_

/-- An order is recorded only when its exchange has begun. -/
theorem current_begun (node : OmsNode) (conversation : Conversation)
    (shows_ : node.Shows conversation) :
    (node.begun conversation).length ≤ 1 ∧
      conversation.current.toList <+: node.begun conversation := by
  obtain ⟨completed, current⟩ := conversation
  cases current with
  | none => cases phase : node.phase <;> simp [OmsNode.begun, phase]
  | some order =>
      cases phase : node.phase with
      | recording other => simp [OmsNode.Shows, phase] at shows_
      | _ => simp [OmsNode.begun, phase]

theorem unprocessed_holds (node : OmsNode) : unprocessed node <+: node.holds := by
  cases phase : node.phase <;> simp [unprocessed, OmsNode.holds, phase]

/-- The gateway records nothing but responses. -/
theorem answers_isSome (node : GatewayNode) (consumed : List NewOrder)
    (answers : node.Answers consumed) :
    ∀ response ∈ node.replayWriter.envelopes ++ node.unrecorded, response.answeredId.isSome := by
  intro response member
  have mapped : response.answeredId ∈
      consumed.map fun order => some order.clientOrderId := by
    rw [← answers]
    exact List.mem_map_of_mem member
  obtain ⟨order, -, same⟩ := List.mem_map.mp mapped
  rw [← same]
  rfl

theorem filter_events (completed : List Exchange)
    (answered : ∀ exchange ∈ completed, exchange.2.answeredId.isSome) :
    (completed.flatMap Exchange.events).filter (fun envelope => envelope.answeredId.isSome) =
      completed.map Prod.snd := by
  induction completed with
  | nil => rfl
  | cons exchange completed ih =>
      have head := answered exchange List.mem_cons_self
      have tail := ih fun other member => answered other (List.mem_cons_of_mem _ member)
      have order : (Envelope.newOrder exchange.1).answeredId.isSome = false := rfl
      rw [List.flatMap_cons, List.filter_append, tail]
      simp [Exchange.events, order, head]

theorem orders_events (completed : List Exchange)
    (answered : ∀ exchange ∈ completed, exchange.2.answeredId.isSome) :
    (completed.flatMap Exchange.events).filterMap Envelope.newOrder? =
      completed.map Prod.fst := by
  induction completed with
  | nil => rfl
  | cons exchange completed ih =>
      have response := exchange.2.newOrder?_of_answeredId
        (Option.isSome_iff_ne_none.mp (answered exchange List.mem_cons_self))
      have later := ih fun other member => answered other (List.mem_cons_of_mem _ member)
      rw [List.flatMap_cons, List.filterMap_append, later]
      have order : (Envelope.newOrder exchange.1).newOrder? = some exchange.1 := rfl
      simp [Exchange.events, order, response]

/-- The order that a record announces. -/
def recordedIntent (record : JournalRecord) : Option ClientOrderId :=
  match record.1 with
  | .orderIntent => record.2.newOrder?.map NewOrder.clientOrderId
  | _ => none

theorem intents_records (journal : JournalLog) (completed : List Exchange)
    (begun : List NewOrder)
    (records : journal.records =
      completed.flatMap Exchange.records ++ begun.map NewOrder.intentRecord) :
    journal.entries.filterMap JournalEntry.intentId =
      (completed.map Prod.fst ++ begun).map NewOrder.clientOrderId := by
  have same : journal.entries.filterMap JournalEntry.intentId =
      journal.records.filterMap recordedIntent := by
    rw [JournalLog.records, List.filterMap_map]
    rfl
  have single : ∀ order : NewOrder, recordedIntent order.intentRecord = some order.clientOrderId :=
    fun _ => rfl
  have silent : ∀ response : Envelope, response.answerRecord.filterMap recordedIntent = [] := by
    intro response
    cases response <;> rfl
  have exchanges : (completed.flatMap Exchange.records).filterMap recordedIntent =
      (completed.map Prod.fst).map NewOrder.clientOrderId := by
    clear records
    induction completed with
    | nil => rfl
    | cons exchange completed ih =>
        rw [List.flatMap_cons, List.filterMap_append, ih]
        simp [Exchange.records, single, silent]
  have opened : (begun.map NewOrder.intentRecord).filterMap recordedIntent =
      begun.map NewOrder.clientOrderId := by
    rw [List.filterMap_map, ← List.filterMap_eq_map]
    rfl
  rw [same, records, List.filterMap_append, exchanges, opened, List.map_append]

/-- An answer to an order is journaled as what it is. -/
theorem records_answer (exchange : Exchange) (answered : exchange.2.answeredId.isSome) :
    exchange.records = [exchange.1.intentRecord, (.gatewayAck, exchange.2)] ∨
      exchange.records = [exchange.1.intentRecord, (.gatewayReject, exchange.2)] := by
  obtain ⟨order, response⟩ := exchange
  cases response with
  | ack ack => exact Or.inl rfl
  | reject reject => exact Or.inr rfl
  | _ => cases answered

section Shown

variable {exchange : OrderExchange} {conversation : Conversation} {consumed : List NewOrder}
variable (agreed : exchange.Agreed conversation consumed)
include agreed

theorem Agreed.answered : ∀ response ∈ conversation.completed.map Prod.snd ++ exchange.oms.holds,
    response.answeredId.isSome := fun response member =>
  answers_isSome exchange.gateway consumed agreed.answers response
    (List.mem_append_left _ (agreed.responses.prefix_consumed.subset member))

theorem Agreed.gateway_responses :
    responsesOf exchange.gateway.replayWriter = exchange.gateway.replayWriter.envelopes :=
  List.filter_eq_self.mpr fun response member =>
    answers_isSome exchange.gateway consumed agreed.answers response
      (List.mem_append_left _ member)

theorem Agreed.oms_responses :
    responsesOf exchange.oms.replayWriter =
      conversation.completed.map Prod.snd ++ unprocessed exchange.oms := by
  have events := shows_file exchange.oms conversation agreed.shows_
  have answered : ∀ done ∈ conversation.completed, done.2.answeredId.isSome :=
    fun done member =>
      agreed.answered done.2 (List.mem_append_left _ (List.mem_map_of_mem member))
  have orders : (conversation.current.toList.map Envelope.newOrder).filter
      (fun envelope => envelope.answeredId.isSome) = [] := by
    cases conversation.current <;> rfl
  have open_ : (unprocessed exchange.oms).filter
      (fun envelope => envelope.answeredId.isSome) = unprocessed exchange.oms := by
    apply List.filter_eq_self.mpr
    intro response member
    exact agreed.answered response
      (List.mem_append_right _ ((unprocessed_holds exchange.oms).subset member))
  rw [responsesOf, events, List.filter_append, List.filter_append,
    filter_events conversation.completed answered, orders, open_, List.nil_append]

theorem Agreed.oms_orders : exchange.oms.recorded = conversation.orders := by
  have events := shows_file exchange.oms conversation agreed.shows_
  have completed := orders_events conversation.completed fun done member =>
    agreed.answered done.2 (List.mem_append_left _ (List.mem_map_of_mem member))
  have current : (conversation.current.toList.map Envelope.newOrder).filterMap
      Envelope.newOrder? = conversation.current.toList := by
    cases conversation.current <;> rfl
  have open_ : (unprocessed exchange.oms).filterMap Envelope.newOrder? = [] := by
    apply List.filterMap_eq_nil_iff.mpr
    intro response member
    have answered := agreed.answered response
      (List.mem_append_right _ ((unprocessed_holds exchange.oms).subset member))
    exact response.newOrder?_of_answeredId (Option.isSome_iff_ne_none.mp answered)
  rw [OmsNode.recorded, events, List.filterMap_append, List.filterMap_append, completed,
    current, open_, List.append_nil, Conversation.orders]

end Shown

/-- At every moment of a run from empty files whose writes succeed: the responses in
the order manager's replay file are those in the gateway's but for at most one, both carry
the numbers of the intents in the journal one after the other, and behind the
intent of every completed exchange stands the record of its response. -/
theorem responses_agree (mode : GatewayMode) (exchange : OrderExchange)
    (reached : Reached {} mode exchange) :
    responsesOf exchange.oms.replayWriter <+: responsesOf exchange.gateway.replayWriter ∧
      (responsesOf exchange.gateway.replayWriter).length ≤
        (responsesOf exchange.oms.replayWriter).length + 1 ∧
      (responsesOf exchange.gateway.replayWriter).map Envelope.answeredId <+:
        (exchange.oms.journal.entries.filterMap JournalEntry.intentId).map some ∧
      ∃ (completed : List Exchange) (begun : List NewOrder), begun.length ≤ 1 ∧
        exchange.oms.journal.records =
          completed.flatMap Exchange.records ++ begun.map NewOrder.intentRecord ∧
        responsesOf exchange.oms.replayWriter =
          completed.map Prod.snd ++ unprocessed exchange.oms ∧
        ∀ done ∈ completed, done.2.answeredId = some done.1.clientOrderId ∧
          (done.records = [done.1.intentRecord, (.gatewayAck, done.2)] ∨
            done.records = [done.1.intentRecord, (.gatewayReject, done.2)]) := by
  obtain ⟨⟨completed, current⟩, consumed, agreed, journal⟩ :=
    reached_agreed mode exchange reached
  obtain ⟨single, started⟩ := current_begun exchange.oms ⟨completed, current⟩ agreed.shows_
  have heard := agreed.responses.prefix_consumed
  have placed : consumed <+:
      completed.map Prod.fst ++ exchange.oms.begun ⟨completed, current⟩ :=
    agreed.orders.prefix_consumed.trans
      ((List.prefix_append_right_inj _).mpr started)
  have ids : exchange.gateway.replayWriter.envelopes.map Envelope.answeredId <+:
      (completed.map Prod.fst ++ exchange.oms.begun ⟨completed, current⟩).map
        fun order => some order.clientOrderId := by
    have first : exchange.gateway.replayWriter.envelopes.map Envelope.answeredId <+:
        consumed.map fun order => some order.clientOrderId := by
      rw [← agreed.answers, List.map_append]
      exact List.prefix_append _ _
    exact first.trans (placed.map _)
  rw [agreed.gateway_responses, agreed.oms_responses,
    intents_records exchange.oms.journal completed _ journal]
  refine ⟨?_, ?_, ?_, completed, _, single, journal, rfl, ?_⟩
  · exact ((List.prefix_append_right_inj _).mpr (unprocessed_holds exchange.oms)).trans heard
  · have bound := ids.length_le
    simp only [List.length_map, List.length_append] at bound ⊢
    omega
  · rw [List.map_map]
    exact ids
  · have matched : (completed.map Prod.snd).map Envelope.answeredId =
        (completed.map Prod.fst).map fun order => some order.clientOrderId := by
      have left : (completed.map Prod.snd).map Envelope.answeredId <+:
          (completed.map Prod.fst ++ exchange.oms.begun ⟨completed, current⟩).map
            fun order => some order.clientOrderId :=
        (((List.prefix_append _ _).trans heard).map _).trans ids
      rw [List.map_append] at left
      exact (List.prefix_of_prefix_length_le left (List.prefix_append _ _)
        (by simp)).eq_of_length (by simp)
    rw [List.map_map, List.map_map] at matched
    intro done member
    exact ⟨List.map_inj_left.mp matched done member,
      records_answer done (agreed.answered done.2
        (List.mem_append_left _ (List.mem_map_of_mem member)))⟩

/-- One signal becomes an order that the simulated exchange acknowledges. -/
def oneExchange : List ExchangeAction :=
  [.oms true { received := some (.signal { limitPx := 100, qty := 1 }) },
    .oms true {}, .oms true {}, .oms true {},
    .gateway true {}, .gateway true {}, .gateway true {},
    .oms true {}, .oms true {}, .oms true {}]

theorem reached_run (journal : JournalLog) (mode : GatewayMode) (exchange : OrderExchange)
    (actions : List ExchangeAction) (reached : Reached journal mode exchange)
    (writes : ∀ action ∈ actions, ∀ earlier : OrderExchange, earlier.Writes action) :
    Reached journal mode (actions.foldl step exchange) := by
  induction actions generalizing exchange with
  | nil => exact reached
  | cons action actions ih =>
      exact ih _ (.step exchange action reached (writes action List.mem_cons_self exchange))
        fun other member => writes other (List.mem_cons_of_mem _ member)

theorem responses_agree_oneExchange :
    (responsesOf (oneExchange.foldl step (start {} {} .sim)).oms.replayWriter).map
        Envelope.answeredId = [some 1] ∧
      responsesOf (oneExchange.foldl step (start {} {} .sim)).oms.replayWriter <+:
        responsesOf (oneExchange.foldl step (start {} {} .sim)).gateway.replayWriter :=
  ⟨by decide +kernel,
    (responses_agree .sim (oneExchange.foldl step (start {} {} .sim))
      (reached_run {} .sim _ oneExchange (.start {}) (by
        intro action member earlier
        simp only [oneExchange, List.mem_cons, List.not_mem_nil, or_false] at member
        rcases member with rfl | rfl | rfl | rfl | rfl | rfl | rfl | rfl | rfl | rfl <;>
          first | exact ⟨rfl, Or.inr rfl, rfl⟩ | rfl))).1⟩

end OrderExchange
end TradingPlatform
