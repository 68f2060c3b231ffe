import TradingPlatform.Library.History
import TradingPlatform.OrderExchange

set_option autoImplicit false

/- The live orders of the order management node against the replay file of the
gateway node. -/
namespace TradingPlatform

/-- The order that an acknowledgement is about. -/
def Envelope.ackedId : Envelope → Option ClientOrderId
  | .ack answer => some answer.clientOrderId
  | _ => none

theorem Envelope.answeredId_of_ackedId (response : Envelope) (id : ClientOrderId)
    (acked : response.ackedId = some id) : response.answeredId = some id := by
  cases response with
  | ack answer => exact acked
  | _ => cases acked

/-! ### The order management node -/

namespace OmsNode

/-- The order that has a number and no response that was processed. -/
def underWay (node : OmsNode) (conversation : Conversation) : List NewOrder :=
  match node.phase with
  | .journaling order => [order]
  | .recording order => [order]
  | _ => conversation.current.toList

/-- The numbers of the orders so far. -/
def numbers (node : OmsNode) (conversation : Conversation) : List ClientOrderId :=
  (conversation.completed.map Prod.fst ++ node.underWay conversation).map NewOrder.clientOrderId

/-- The numbers grow, and the live orders are those that were acknowledged and the
one under way. -/
structure Tracks (node : OmsNode) (conversation : Conversation) : Prop where
  issued : ∀ id ∈ node.numbers conversation, id < node.manager.nextClientOrderId
  increasing : (node.numbers conversation).Pairwise (· < ·)
  live : ∀ id, id ∈ node.manager.liveOrders ↔
    id ∈ conversation.completed.filterMap (fun done => done.2.ackedId) ∨
      id ∈ (node.underWay conversation).map NewOrder.clientOrderId

/-- The responses are about the orders they are paired with, also the one that the
node holds. -/
structure Matched (node : OmsNode) (conversation : Conversation) : Prop where
  completed : ∀ done ∈ conversation.completed, done.2.answeredId = some done.1.clientOrderId
  held : ∀ response ∈ node.holds, ∀ order ∈ conversation.current,
    response.answeredId = some order.clientOrderId

section Tracking

variable {node : OmsNode} {conversation : Conversation}

/-- A step that moves neither the live orders nor the order under way. -/
theorem Tracks.unmoved {next : OmsNode} {later : Conversation}
    (tracks : node.Tracks conversation)
    (live : next.manager.liveOrders = node.manager.liveOrders)
    (number : node.manager.nextClientOrderId ≤ next.manager.nextClientOrderId)
    (completed : later.completed = conversation.completed)
    (order : next.underWay later = node.underWay conversation) : next.Tracks later := by
  have numbers : next.numbers later = node.numbers conversation := by
    rw [OmsNode.numbers, completed, order]
    rfl
  constructor
  · rw [numbers]
    exact fun id member => Nat.lt_of_lt_of_le (tracks.issued id member) number
  · rw [numbers]
    exact tracks.increasing
  · rw [live, completed, order]
    exact tracks.live

/-- A signal takes the next number, whether it becomes an order or not. -/
theorem Tracks.awaiting (tracks : node.Tracks conversation) (input : NodeInput)
    (awaiting : node.phase = .awaitingSignal) (idle : conversation.current = none) :
    (node.step input).1.Tracks conversation := by
  have before : node.underWay conversation = [] := by simp [underWay, awaiting, idle]
  simp only [step, awaiting]
  cases input.received with
  | none => exact tracks.unmoved rfl le_rfl rfl (by simp [underWay, awaiting])
  | some envelope =>
      cases envelope with
      | signal signal =>
          dsimp only
          by_cases accepted : node.manager.Accepts signal
          · rw [OrderManager.onSignal_accept _ _ _ _ accepted]
            obtain ⟨issued, increasing, live⟩ := tracks
            simp only [numbers, before, List.append_nil] at issued increasing
            rw [before, List.map_nil] at live
            constructor
            · simp only [numbers, underWay, List.map_append, List.map_cons, List.map_nil,
                List.forall_mem_append, List.forall_mem_singleton]
              exact ⟨fun id member => Nat.lt_succ_of_lt (issued id member), Nat.lt_succ_self _⟩
            · simp only [numbers, underWay, List.map_append, List.map_cons, List.map_nil]
              exact History.pairwise_concat increasing issued
            · intro id
              show id ∈ insert node.manager.nextClientOrderId node.manager.liveOrders ↔ _
              rw [Finset.mem_insert, live id]
              simp [underWay, OrderManager.orderFor, or_comm]
          · rw [OrderManager.onSignal_refuse _ _ _ _ accepted]
            exact tracks.unmoved rfl (Nat.le_succ _) rfl (by simp [underWay, awaiting])
      | _ => exact tracks

/-- A response settles the order under way. -/
theorem Tracks.processing (tracks : node.Tracks conversation) (input : NodeInput)
    (response : Envelope) (processing : node.phase = .processing response) (order : NewOrder)
    (current : conversation.current = some order)
    (matched : node.Matched conversation) :
    (node.step input).1.Tracks (node.advance conversation) := by
  have about : response.answeredId = some order.clientOrderId :=
    matched.held response (by simp [holds, processing]) order current
  have before : node.underWay conversation = [order] := by simp [underWay, processing, current]
  have advanced : node.advance conversation =
      { completed := conversation.completed ++ [(order, response)] } := by
    simp [advance, processing, current]
  have settled : (node.step input).1.underWay (node.advance conversation) = [] := by
    simp [step, processing, underWay, advance]
  have manager : (node.step input).1.manager = node.manager.settle response := by
    simp [step, processing]
  have numbers : (node.step input).1.numbers (node.advance conversation) =
      node.numbers conversation := by
    rw [OmsNode.numbers, OmsNode.numbers, settled, before, advanced]
    simp
  obtain ⟨issued, increasing, live⟩ := tracks
  rw [before] at live
  constructor
  · rw [numbers, manager, OrderManager.settle_nextClientOrderId]
    exact issued
  · rw [numbers]
    exact increasing
  · intro id
    rw [manager, settled, advanced, List.filterMap_append, List.mem_append]
    cases response with
    | ack ack =>
        have same : ack.clientOrderId = order.clientOrderId := Option.some.inj about
        show id ∈ node.manager.liveOrders ↔ _
        rw [live id]
        simp [Envelope.ackedId, same]
    | reject reject =>
        have same : reject.clientOrderId = order.clientOrderId := Option.some.inj about
        show id ∈ node.manager.liveOrders.erase reject.clientOrderId ↔ _
        rw [Finset.mem_erase, live id, same]
        -- an acknowledged order came before the one that is rejected
        have older : id ∈ conversation.completed.filterMap (fun done => done.2.ackedId) →
            id ≠ order.clientOrderId := by
          intro member
          obtain ⟨done, listed, acked⟩ := List.mem_filterMap.mp member
          have own := (matched.completed done listed).symm.trans
            (done.2.answeredId_of_ackedId id acked)
          rw [OmsNode.numbers, before, List.map_append] at increasing
          have less := (List.pairwise_append.mp increasing).2.2 done.1.clientOrderId
            (List.mem_map_of_mem (List.mem_map_of_mem listed)) order.clientOrderId (by simp)
          rw [Option.some.inj own] at less
          exact Nat.ne_of_lt less
        simp only [List.map_cons, List.map_nil, List.mem_singleton, List.not_mem_nil, or_false,
          Envelope.ackedId, List.filterMap_cons_none, List.filterMap_nil]
        constructor
        · rintro ⟨other, member | own⟩
          · exact member
          · exact absurd own other
        · exact fun member => ⟨older member, Or.inl member⟩
    | _ => cases about

/-- One step of the node on its live orders. -/
theorem tracks_step (input : NodeInput) (shows_ : node.Shows conversation)
    (matched : node.Matched conversation) (tracks : node.Tracks conversation) :
    (node.step input).1.Tracks (node.advance conversation) := by
  obtain ⟨completed, current⟩ := conversation
  cases phase : node.phase with
  | awaitingSignal =>
      cases current with
      | none =>
          have same : node.advance ⟨completed, none⟩ = ⟨completed, none⟩ := by
            simp [advance, phase]
          rw [same]
          exact tracks.awaiting input phase rfl
      | some order => simp [Shows, phase] at shows_
  | recording order =>
      apply tracks.unmoved
      · simp [step, phase]
      · simp [step, phase]
      · simp [advance, phase]
      · simp [step, advance, underWay, phase]
  | sending order =>
      cases sends : input.sends <;> apply tracks.unmoved <;>
        simp [step, advance, underWay, phase, sends]
  | awaitingResponse =>
      cases received : input.received <;> apply tracks.unmoved <;>
        simp [step, advance, underWay, phase, received]
  | processing response =>
      cases current with
      | none => simp [Shows, phase] at shows_
      | some order => exact tracks.processing input response phase order rfl matched
  | _ => apply tracks.unmoved <;> simp [step, advance, underWay, phase]

/-- The order under way is live, and none is while the node awaits a signal. -/
theorem underWay_single (shows_ : node.Shows conversation) :
    (node.underWay conversation).length ≤ 1 ∧
      conversation.current.toList <+: node.underWay conversation ∧
      (node.phase = .awaitingSignal → node.underWay conversation = []) := by
  obtain ⟨completed, current⟩ := conversation
  cases current with
  | none => cases phase : node.phase <;> simp [underWay, phase]
  | some order => cases phase : node.phase <;> simp [underWay, phase, Shows] at shows_ ⊢

end Tracking
end OmsNode

/-! ### The two nodes -/

def ExchangeAction.input : ExchangeAction → NodeInput
  | .oms _ input => input
  | .gateway _ input => input

namespace OrderExchange

/-- The orders that a replay file acknowledges. -/
def acknowledged (log : ReplayLog) : List ClientOrderId := log.envelopes.filterMap Envelope.ackedId

section Agreeing

variable {exchange : OrderExchange} {conversation : Conversation} {consumed : List NewOrder}
variable (agreed : exchange.Agreed conversation consumed)
include agreed

/-- The gateway answers the orders one after the other. -/
theorem Agreed.gateway_ids : exchange.gateway.replayWriter.envelopes.map Envelope.answeredId <+:
    conversation.orders.map fun order => some order.clientOrderId := by
  have first : exchange.gateway.replayWriter.envelopes.map Envelope.answeredId <+:
      consumed.map fun order => some order.clientOrderId := by
    rw [← agreed.answers, List.map_append]
    exact List.prefix_append _ _
  exact first.trans (agreed.orders.prefix_consumed.map _)

theorem Agreed.matched : exchange.oms.Matched conversation := by
  have ids := (agreed.responses.prefix_consumed.map Envelope.answeredId).trans agreed.gateway_ids
  rw [Conversation.orders, List.map_append, List.map_append] at ids
  have pairs : (conversation.completed.map Prod.snd).map Envelope.answeredId =
      (conversation.completed.map Prod.fst).map fun order => some order.clientOrderId :=
    (List.prefix_of_prefix_length_le ((List.prefix_append _ _).trans ids)
      (List.prefix_append _ _) (by simp)).eq_of_length (by simp)
  rw [pairs, List.prefix_append_right_inj] at ids
  rw [List.map_map, List.map_map] at pairs
  constructor
  · exact fun done member => List.map_inj_left.mp pairs done member
  · intro response member order current
    have listed : response.answeredId ∈
        conversation.current.toList.map fun order => some order.clientOrderId :=
      ids.subset (List.mem_map_of_mem member)
    rw [Option.mem_def.mp current] at listed
    simpa using listed

/-- What the gateway has acknowledged beyond the completed exchanges is about the
order under way. -/
theorem Agreed.acknowledged_iff (id : ClientOrderId)
    (other : id ∉ (exchange.oms.underWay conversation).map NewOrder.clientOrderId) :
    id ∈ acknowledged exchange.gateway.replayWriter ↔
      id ∈ conversation.completed.filterMap fun done => done.2.ackedId := by
  obtain ⟨ahead, whole⟩ :=
    (List.prefix_append _ exchange.oms.holds).trans agreed.responses.prefix_consumed
  have ids := agreed.gateway_ids
  have pairs : (conversation.completed.map Prod.snd).map Envelope.answeredId =
      (conversation.completed.map Prod.fst).map fun order => some order.clientOrderId := by
    rw [List.map_map, List.map_map]
    exact List.map_inj_left.mpr agreed.matched.completed
  rw [← whole, Conversation.orders, List.map_append, List.map_append, pairs,
    List.prefix_append_right_inj] at ids
  have behind : id ∉ ahead.filterMap Envelope.ackedId := by
    intro member
    obtain ⟨response, listed, acked⟩ := List.mem_filterMap.mp member
    have answered := ids.subset (List.mem_map_of_mem listed)
    rw [response.answeredId_of_ackedId id acked] at answered
    obtain ⟨order, current, same⟩ := List.mem_map.mp answered
    apply other
    rw [← Option.some.inj same]
    exact List.mem_map_of_mem
      ((OmsNode.underWay_single agreed.shows_).2.1.subset current)
  rw [acknowledged, ← whole, List.filterMap_append, List.mem_append, List.filterMap_map]
  exact or_iff_left behind

end Agreeing

/-- One step of either node, also with a journal whose writes fail. -/
theorem tracked_step (exchange : OrderExchange) (action : ExchangeAction)
    (conversation : Conversation) (consumed : List NewOrder)
    (replay : action.input.replay.writes = true)
    (agreed : exchange.Agreed conversation consumed) (tracks : exchange.oms.Tracks conversation) :
    ∃ conversation consumed, (exchange.step action).Agreed conversation consumed ∧
      (exchange.step action).oms.Tracks conversation := by
  cases action with
  | oms connected input =>
      rcases exchange.agreed_stepOms connected input conversation consumed agreed replay with
        ⟨-, same⟩ | ⟨next, input', -, oms⟩
      · exact ⟨conversation, consumed, by rwa [step, same], by rwa [step, same]⟩
      · refine ⟨_, consumed, next, ?_⟩
        rw [step, oms]
        exact OmsNode.tracks_step input' agreed.shows_ agreed.matched tracks
  | gateway connected input =>
      obtain ⟨more, next⟩ :=
        exchange.agreed_stepGateway connected input conversation consumed agreed replay
      have oms : (exchange.stepGateway connected input).oms = exchange.oms := by
        unfold stepGateway
        split
        · split <;> rfl
        · rfl
      refine ⟨conversation, more, next, ?_⟩
      rw [step, oms]
      exact tracks

theorem reached_tracks (journal : JournalLog) (mode : GatewayMode) (exchange : OrderExchange)
    (reached : Reached journal mode exchange) :
    ∃ conversation consumed, exchange.Agreed conversation consumed ∧
      exchange.oms.Tracks conversation := by
  induction reached with
  | start io =>
      refine ⟨{}, [], ⟨rfl, rfl, rfl, rfl, .start, .start⟩, ?_⟩
      constructor <;> simp [OmsNode.numbers, OmsNode.underWay, start, OmsNode.start,
        OrderManager.new]
  | step exchange action reached writes ih =>
      obtain ⟨conversation, consumed, agreed, tracks⟩ := ih
      have replay : action.input.replay.writes = true := by
        cases action with
        | oms connected input => exact writes.1
        | gateway connected input => exact writes
      exact exchange.tracked_step action conversation consumed replay agreed tracks

/-- Whatever the journal holds at the start, at every moment of a run whose writes
succeed: the gateway has answered every order at most once, in the order of their
numbers, and the order manager holds live exactly the orders that the gateway's
file acknowledges, but for at most one that is under way. While a signal is awaited
nothing is under way. -/
theorem live_agrees (journal : JournalLog) (mode : GatewayMode) (exchange : OrderExchange)
    (reached : Reached journal mode exchange) :
    (exchange.gateway.replayWriter.envelopes.filterMap Envelope.answeredId).Pairwise (· < ·) ∧
      ∃ underWay : Option ClientOrderId,
        (exchange.oms.phase = .awaitingSignal → underWay = none) ∧
        (∀ id ∈ underWay, id ∈ exchange.oms.manager.liveOrders) ∧
        ∀ id, some id ≠ underWay →
          (id ∈ exchange.oms.manager.liveOrders ↔
            id ∈ acknowledged exchange.gateway.replayWriter) := by
  obtain ⟨conversation, consumed, agreed, tracks⟩ := reached_tracks journal mode exchange reached
  obtain ⟨single, started, idle⟩ := OmsNode.underWay_single agreed.shows_
  constructor
  · have ids := agreed.gateway_ids.sublist.filterMap id
    rw [List.filterMap_map, List.filterMap_map] at ids
    change (_ : List ClientOrderId).Sublist
      (conversation.orders.filterMap (some ∘ NewOrder.clientOrderId)) at ids
    rw [List.filterMap_eq_map] at ids
    have numbered : conversation.orders.map NewOrder.clientOrderId <+:
        exchange.oms.numbers conversation :=
      ((List.prefix_append_right_inj _).mpr started).map _
    exact (tracks.increasing.sublist numbered.sublist).sublist ids
  · refine ⟨((exchange.oms.underWay conversation).map NewOrder.clientOrderId).head?, ?_, ?_, ?_⟩
    · intro awaiting
      rw [idle awaiting]
      rfl
    · intro id first
      exact (tracks.live id).mpr (Or.inr (List.mem_of_mem_head? first))
    · intro id other
      have absent : id ∉ (exchange.oms.underWay conversation).map NewOrder.clientOrderId := by
        intro member
        apply other
        cases numbers : (exchange.oms.underWay conversation).map NewOrder.clientOrderId with
        | nil => simp [numbers] at member
        | cons first rest =>
            have alone : rest = [] := by
              have length := congrArg List.length numbers
              simp only [List.length_map, List.length_cons] at length
              exact List.length_eq_zero_iff.mp (by omega)
            rw [numbers, alone] at member
            rw [List.head?_cons, List.mem_singleton.mp member]
      rw [tracks.live id, agreed.acknowledged_iff id absent]
      exact or_iff_left absent

/-- An order that the exchange takes, and one that it refuses. -/
def twoExchanges : List ExchangeAction :=
  oneExchange ++
    [.oms true { received := some (.signal { limitPx := 101, qty := 1 }) },
      .oms true {}, .oms true {}, .oms true {},
      .gateway true { accepted := false }, .gateway true {}, .gateway true {},
      .oms true {}, .oms true {}, .oms true {}]

/-- A journal of an earlier run, with its first order. -/
def earlierJournal : JournalLog where
  entries := [⟨.orderIntent, .newOrder { clientOrderId := 1, limitPx := 99, qty := 1 }, 1, 5⟩]

theorem live_agrees_twoExchanges :
    let exchange := twoExchanges.foldl step (start earlierJournal {} .kraken)
    exchange.gateway.replayWriter.envelopes.filterMap Envelope.answeredId = [1, 2] ∧
      acknowledged exchange.gateway.replayWriter = [1] ∧
      ∀ id, id ∈ exchange.oms.manager.liveOrders ↔
        id ∈ acknowledged exchange.gateway.replayWriter := by
  intro exchange
  have reached : Reached earlierJournal .kraken exchange := by
    apply reached_run _ _ _ twoExchanges (.start {})
    simp [twoExchanges, oneExchange, Writes, JournalLog.Writes]
  obtain ⟨-, underWay, idle, -, agrees⟩ := live_agrees earlierJournal .kraken exchange reached
  have none : underWay = none := idle (by decide +kernel)
  refine ⟨by decide +kernel, by decide +kernel, fun id => agrees id ?_⟩
  rw [none]
  exact Option.some_ne_none id

end OrderExchange
end TradingPlatform
