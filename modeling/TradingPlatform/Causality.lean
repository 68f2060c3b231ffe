import TradingPlatform.ReplayEquivalence
import TradingPlatform.ReplayIndependence

set_option autoImplicit false

/- Every event that a run records has its cause among the events recorded before
it. -/
namespace TradingPlatform

open Transducer

/-! ### Causes -/

/-- What an event shows, if the node with the role has recorded it. -/
def ReplayEvent.shown {α : Type} (role : NodeRole) (pick : Envelope → Option α)
    (event : ReplayEvent) : Option α :=
  if event.header.nodeRole = role.code then pick event.envelope else none

/-- A response to an order. -/
def Envelope.answer? (envelope : Envelope) : Option Envelope :=
  if envelope.answeredId.isSome then some envelope else none

theorem ReplayLog.filterMap_answer (log : ReplayLog) :
    log.envelopes.filterMap Envelope.answer? = OrderExchange.responsesOf log := by
  rw [OrderExchange.responsesOf, ← List.filterMap_eq_filter]
  congr 1

namespace Timeline

/-- The updates that the market data node has recorded. -/
def updates (events : List ReplayEvent) : List MarketDataUpdate :=
  events.filterMap (ReplayEvent.shown .marketData Envelope.marketData?)

/-- The signals that the strategy node has recorded. -/
def signals (events : List ReplayEvent) : List Signal :=
  events.filterMap (ReplayEvent.shown .strategy Envelope.signal?)

/-- The orders that the order management node has recorded. -/
def orders (events : List ReplayEvent) : List NewOrder :=
  events.filterMap (ReplayEvent.shown .oms Envelope.newOrder?)

/-- The responses that the gateway has recorded, or the order management node. -/
def answers (role : NodeRole) (events : List ReplayEvent) : List Envelope :=
  events.filterMap (ReplayEvent.shown role Envelope.answer?)

/-- The strategy after the updates that are recorded. -/
def strategy (events : List ReplayEvent) : StrategyEngine :=
  after StrategyEngine.untimedStage { nodeId := 2 } (updates events)

/-- The order manager after the signals that are recorded. -/
def manager (events : List ReplayEvent) : OrderManager :=
  after OrderManager.untimedStage (.new 3 OmsNode.limits) ((signals events).map Signal.untimed)

/-- The event needs no cause, or has one in the past: a signal the update it was
computed from, an order its signal, a response the order with its number, and
the copy of a response the response itself. `earlier` is what had been recorded
before the cause; the timestamps of signals and orders are left out. -/
inductive Caused (past : List ReplayEvent) (event : ReplayEvent) : Prop
  | update (update : MarketDataUpdate)
      (effect : event.shown .marketData Envelope.marketData? = some update)
  | signal (signal : Signal) (effect : event.shown .strategy Envelope.signal? = some signal)
      (earlier : List ReplayEvent) (cause : ReplayEvent) (before : earlier ++ [cause] <+: past)
      (update : MarketDataUpdate)
      (origin : cause.shown .marketData Envelope.marketData? = some update)
      (computed : ((strategy earlier).untimedStage update).2 = [signal.untimed])
  | order (order : NewOrder) (effect : event.shown .oms Envelope.newOrder? = some order)
      (earlier : List ReplayEvent) (cause : ReplayEvent) (before : earlier ++ [cause] <+: past)
      (signal : Signal) (origin : cause.shown .strategy Envelope.signal? = some signal)
      (created : ((manager earlier).untimedStage signal.untimed).2 = [order.untimed])
  | response (response : Envelope)
      (effect : event.shown .gateway Envelope.answer? = some response)
      (earlier : List ReplayEvent) (cause : ReplayEvent) (before : earlier ++ [cause] <+: past)
      (order : NewOrder) (origin : cause.shown .oms Envelope.newOrder? = some order)
      (answered : response.answeredId = some order.clientOrderId)
      (inOrder : (orders earlier).length = (answers .gateway past).length)
  | copy (response : Envelope) (effect : event.shown .oms Envelope.answer? = some response)
      (earlier : List ReplayEvent) (cause : ReplayEvent) (before : earlier ++ [cause] <+: past)
      (origin : cause.shown .gateway Envelope.answer? = some response)
      (inOrder : answers .gateway earlier = answers .oms past)

section Shown

variable {α β : Type}

/-- An item of what some events show is shown by one of them, behind those that
show the items before it. -/
theorem shown_by (shows_ : α → Option β) (events : List α) (items : List β) (item : β)
    (within : items ++ [item] <+: events.filterMap shows_) :
    ∃ earlier cause, earlier ++ [cause] <+: events ∧ earlier.filterMap shows_ = items ∧
      shows_ cause = some item := by
  obtain ⟨later, split⟩ := within
  rw [List.append_assoc] at split
  obtain ⟨front, back, rfl, shown, rest⟩ := List.filterMap_eq_append_iff.mp split.symm
  obtain ⟨silent, cause, tail, rfl, none, origin, -⟩ := List.filterMap_eq_cons_iff.mp rest
  refine ⟨front ++ silent, cause, ⟨tail, by simp⟩, ?_, origin⟩
  rw [List.filterMap_append, shown, List.filterMap_eq_nil_iff.mpr none, List.append_nil]

theorem mapped_by (view : α → β) (events : List α) (items : List β) (item : β)
    (within : items ++ [item] <+: events.map view) :
    ∃ earlier cause, earlier ++ [cause] <+: events ∧ earlier.map view = items ∧
      view cause = item := by
  rw [← List.filterMap_eq_map] at within
  obtain ⟨earlier, cause, before, same, origin⟩ := shown_by _ events items item within
  rw [List.filterMap_eq_map] at same
  exact ⟨earlier, cause, before, same, Option.some.inj origin⟩

end Shown

end Timeline

/-! ### The exchange of orders and responses within the four nodes -/

namespace DistributedNodes

/-- The order management node, the gateway and what is between them. -/
def exchange (nodes : DistributedNodes) : OrderExchange where
  oms := nodes.oms
  gateway := nodes.gateway
  omsToGateway := nodes.omsToGateway
  gatewayToOms := nodes.gatewayToOms

theorem exchange_stepOms (nodes : DistributedNodes) (connected : Bool) (input : NodeInput) :
    (nodes.stepOms connected input).exchange = nodes.exchange ∨
      ∃ received, (nodes.stepOms connected input).exchange =
        nodes.exchange.stepOms connected { input with received } := by
  unfold stepOms OrderExchange.stepOms
  have phase : nodes.exchange.oms.phase = nodes.oms.phase := rfl
  have responses : nodes.exchange.gatewayToOms = nodes.gatewayToOms := rfl
  rw [phase, responses]
  split
  · cases nodes.strategyToOms.recv connected with
    | none => exact Or.inl rfl
    | some result => exact Or.inr ⟨result.2, rfl⟩
  · split
    · cases nodes.gatewayToOms.recv connected with
      | none => exact Or.inl rfl
      | some result => exact Or.inr ⟨none, rfl⟩
    · exact Or.inr ⟨input.received, rfl⟩

theorem exchange_stepGateway (nodes : DistributedNodes) (connected : Bool) (input : NodeInput) :
    (nodes.stepGateway connected input).exchange =
      nodes.exchange.stepGateway connected input := by
  unfold stepGateway OrderExchange.stepGateway
  have phase : nodes.exchange.gateway.phase = nodes.gateway.phase := rfl
  have orders : nodes.exchange.omsToGateway = nodes.omsToGateway := rfl
  rw [phase, orders]
  split
  · cases nodes.omsToGateway.recv connected <;> rfl
  · rfl

theorem agreed_step (nodes : DistributedNodes) (action : NodeAction)
    (conversation : Conversation) (consumed : List NewOrder)
    (writes : action.input.replay.writes = true)
    (agreed : nodes.exchange.Agreed conversation consumed) :
    ∃ conversation consumed, (nodes.step action).exchange.Agreed conversation consumed := by
  unfold step
  cases action.actor with
  | marketData => exact ⟨_, _, agreed⟩
  | strategy =>
      have same : (nodes.stepStrategy action.connected action.input).exchange =
          nodes.exchange := by
        unfold stepStrategy
        split
        · cases nodes.marketDataToStrategy.recv action.connected <;> rfl
        · rfl
      exact ⟨_, _, same ▸ agreed⟩
  | oms =>
      rcases nodes.exchange_stepOms action.connected action.input with same | ⟨received, same⟩
      · exact ⟨_, _, same ▸ agreed⟩
      · dsimp only
        rw [same]
        rcases nodes.exchange.agreed_stepOms action.connected { action.input with received }
          conversation consumed agreed writes with ⟨next, -⟩ | ⟨next, -⟩
        · exact ⟨_, _, next⟩
        · exact ⟨_, _, next⟩
  | gateway =>
      dsimp only
      rw [nodes.exchange_stepGateway]
      obtain ⟨more, next⟩ := nodes.exchange.agreed_stepGateway action.connected action.input
        conversation consumed agreed writes
      exact ⟨_, _, next⟩

/-- What holds between the nodes at every moment of a run whose writes work. -/
theorem reached_agreed (journal : JournalLog) (io : JournalIo) (mode : GatewayMode)
    (actions : List NodeAction)
    (writes : ∀ action ∈ actions, action.input.replay.writes = true) :
    ∃ conversation consumed,
      (reached journal io mode actions).exchange.Agreed conversation consumed := by
  unfold reached
  have fresh : (start journal io mode).exchange.Agreed {} [] :=
    ⟨rfl, rfl, rfl, rfl, .start, .start⟩
  generalize start journal io mode = nodes at fresh
  generalize ({} : Conversation) = conversation at fresh
  generalize ([] : List NewOrder) = consumed at fresh
  induction actions generalizing nodes conversation consumed with
  | nil => exact ⟨_, _, fresh⟩
  | cons action actions ih =>
      obtain ⟨_, _, next⟩ := nodes.agreed_step action _ _ (writes action List.mem_cons_self) fresh
      exact ih (fun other member => writes other (List.mem_cons_of_mem _ member)) _ _ _ next

/-! ### The step that records an event -/

section Attempt

variable {nodes : DistributedNodes} {action : NodeAction} {attempt : ReplayAttempt}
variable {past : List ReplayEvent}

/-- The replay files hold the events of the past, each those of its role. -/
def Recorded (nodes : DistributedNodes) (past : List ReplayEvent) : Prop :=
  ∀ actor, (nodes.log actor).nodeRole = actor.role ∧
    (nodes.log actor).events =
      past.filter fun event => event.header.nodeRole = actor.role.code

theorem Recorded.shown {α : Type} (recorded : nodes.Recorded past) (actor : Actor)
    (pick : Envelope → Option α) :
    (nodes.log actor).envelopes.filterMap pick =
      past.filterMap (ReplayEvent.shown actor.role pick) := by
  rw [ReplayLog.envelopes, (recorded actor).2, List.filterMap_map, List.filterMap_filter]
  apply List.filterMap_congr
  intro event _
  simp [ReplayEvent.shown]

/-- What an attempt puts into its event. -/
theorem attempt_shown (recorded : nodes.Recorded past)
    (made : nodes.attempt action = some attempt) :
    ∃ envelope sequence, nodes.due action.actor = some (envelope, sequence) ∧
      ∀ {α : Type} (pick : Envelope → Option α),
        attempt.event.shown action.actor.role pick = pick envelope := by
  obtain ⟨⟨envelope, sequence⟩, due, rfl⟩ := Option.map_eq_some_iff.mp made
  refine ⟨envelope, sequence, due, fun pick => ?_⟩
  simp [ReplayEvent.shown, ReplayLog.eventFor, (recorded action.actor).1]

section Effects

variable {updates : List MarketDataUpdate} {taken : List Signal}
variable {conversation : Conversation} {consumed : List NewOrder} {event : ReplayEvent}
variable (recorded : nodes.Recorded past)
include recorded

theorem caused_signal (follows : nodes.Follows updates taken) (signal : Signal)
    (phase : nodes.strategy.phase = .recording signal)
    (effect : event.shown .strategy Envelope.signal? = some signal) :
    Timeline.Caused past event := by
  have single : ∀ engine update, (StrategyEngine.untimedStage engine update).2.length ≤ 1 := by
    intro engine update
    rw [StrategyEngine.untimedStage_length]
    split <;> omega
  have fed : updates <+: Timeline.updates past := by
    have shown : nodes.marketData.recorded = Timeline.updates past :=
      recorded.shown .marketData Envelope.marketData?
    exact shown ▸ follows.marketDataSends.prefix_consumed
  have emits := follows.strategy.signals
  rw [StrategyNode.unrecorded, phase, List.map_append] at emits
  obtain ⟨earlier, update, within, -, last⟩ := cause StrategyEngine.untimedStage single
    { nodeId := 2 } (Timeline.updates past) _ signal.untimed
    (emits ▸ prefix_emitted _ _ fed)
  obtain ⟨before, origin, first, same, source⟩ :=
    Timeline.shown_by _ past earlier update within
  refine .signal signal effect before origin first update source ?_
  rw [Timeline.strategy, Timeline.updates, same]
  exact last

theorem caused_order (follows : nodes.Follows updates taken) (order : NewOrder)
    (phase : nodes.oms.phase = .recording order)
    (effect : event.shown .oms Envelope.newOrder? = some order) :
    Timeline.Caused past event := by
  have single : ∀ manager signal, (OrderManager.untimedStage manager signal).2.length ≤ 1 := by
    intro manager signal
    by_cases accepted : manager.Accepts signal
    · simp [OrderManager.untimedStage, OrderManager.stage_accept _ _ _ _ accepted]
    · simp [OrderManager.untimedStage, OrderManager.stage_refuse _ _ _ _ accepted]
  have fed : taken <+: Timeline.signals past := by
    have shown : nodes.strategy.recorded = Timeline.signals past :=
      recorded.shown .strategy Envelope.signal?
    exact shown ▸ follows.strategySends.prefix_consumed
  have emits := follows.oms.orders
  rw [OmsNode.unrecorded, phase, List.map_append] at emits
  obtain ⟨earlier, bare, within, -, last⟩ := cause OrderManager.untimedStage single
    (.new 3 OmsNode.limits) ((Timeline.signals past).map Signal.untimed) _ order.untimed
    (emits ▸ prefix_emitted _ _ (fed.map Signal.untimed))
  rw [Timeline.signals, List.map_filterMap] at within
  obtain ⟨before, origin, first, same, source⟩ := Timeline.shown_by _ past earlier bare within
  obtain ⟨signal, shown, rfl⟩ := Option.map_eq_some_iff.mp source
  refine .order order effect before origin first signal shown ?_
  rw [Timeline.manager, Timeline.signals, List.map_filterMap, same]
  exact last

/-- The gateway records nothing but responses. -/
theorem Recorded.given (agreed : nodes.exchange.Agreed conversation consumed) :
    nodes.gateway.replayWriter.envelopes = Timeline.answers .gateway past := by
  have shown := recorded.shown .gateway Envelope.answer?
  rw [ReplayLog.filterMap_answer] at shown
  exact agreed.gateway_responses.symm.trans shown

theorem caused_response (agreed : nodes.exchange.Agreed conversation consumed)
    (response : Envelope) (phase : nodes.gateway.phase = .recording response)
    (effect : event.shown .gateway Envelope.answer? = some response) :
    Timeline.Caused past event := by
  have answers := agreed.answers
  have unrecorded : nodes.exchange.gateway.unrecorded = [response] := by
    simp [GatewayNode.unrecorded, exchange, phase]
  rw [GatewayNode.Answers, unrecorded, List.map_append, List.map_singleton] at answers
  -- the last of the orders that the gateway has taken is the one it answers
  obtain ⟨earlier, rest, rfl, before, last⟩ := List.map_eq_append_iff.mp answers.symm
  obtain ⟨order, rfl, answered⟩ := List.map_eq_singleton_iff.mp last
  have placed : earlier ++ [order] <+: Timeline.orders past := by
    have shown : nodes.oms.recorded = Timeline.orders past :=
      recorded.shown .oms Envelope.newOrder?
    have same : nodes.oms.recorded = conversation.orders := agreed.oms_orders
    rw [← shown, same]
    exact agreed.orders.prefix_consumed
  have given := recorded.given agreed
  obtain ⟨front, origin, first, same, source⟩ :=
    Timeline.shown_by _ past earlier order placed
  refine .response response effect front origin first order source answered.symm ?_
  have count : earlier.length = nodes.exchange.gateway.replayWriter.envelopes.length := by
    simpa using congrArg List.length before
  rw [Timeline.orders, same, ← given]
  exact count

theorem caused_copy (agreed : nodes.exchange.Agreed conversation consumed)
    (response : Envelope) (phase : nodes.oms.phase = .recordingResponse response)
    (effect : event.shown .oms Envelope.answer? = some response) :
    Timeline.Caused past event := by
  have holds : nodes.exchange.oms.holds = [response] := by
    simp [OmsNode.holds, exchange, phase]
  have none : OrderExchange.unprocessed nodes.exchange.oms = [] := by
    simp [OrderExchange.unprocessed, exchange, phase]
  have given := recorded.given agreed
  have copied : conversation.completed.map Prod.snd = Timeline.answers .oms past := by
    have shown := recorded.shown .oms Envelope.answer?
    rw [ReplayLog.filterMap_answer] at shown
    have copies := agreed.oms_responses
    rw [none, List.append_nil] at copies
    exact copies.symm.trans shown
  have heard := agreed.responses.prefix_consumed
  rw [holds, copied] at heard
  obtain ⟨front, origin, first, same, source⟩ :=
    Timeline.shown_by _ past _ response (given ▸ heard)
  exact .copy response effect front origin first source same

/-- Whatever a step records has its cause in the past. -/
theorem caused_attempt (follows : nodes.Follows updates taken)
    (agreed : nodes.exchange.Agreed conversation consumed)
    (made : nodes.attempt action = some attempt) : Timeline.Caused past attempt.event := by
  obtain ⟨envelope, sequence, due, shown⟩ := attempt_shown recorded made
  have answer : ∀ response : Envelope, response.answeredId.isSome →
      response.answer? = some response := by
    intro response answered
    simp [Envelope.answer?, answered]
  cases actor : action.actor with
  | marketData =>
      rw [actor] at due shown
      obtain ⟨update, -, rfl⟩ := nodes.marketData.due_cases due
      exact .update update (shown Envelope.marketData?)
  | strategy =>
      rw [actor] at due shown
      obtain ⟨signal, phase, rfl⟩ := nodes.strategy.due_cases due
      exact caused_signal recorded follows signal phase (shown Envelope.signal?)
  | oms =>
      rw [actor] at due shown
      rcases nodes.oms.due_cases due with ⟨order, phase, rfl⟩ | phase
      · exact caused_order recorded follows order phase (shown Envelope.newOrder?)
      · have answered := agreed.answered envelope
          (List.mem_append_right _ (by simp [OmsNode.holds, exchange, phase]))
        exact caused_copy recorded agreed envelope phase
          ((shown Envelope.answer?).trans (answer envelope answered))
  | gateway =>
      rw [actor] at due shown
      have phase := nodes.gateway.due_cases due
      have answered := OrderExchange.answers_isSome nodes.exchange.gateway consumed
        agreed.answers envelope
        (List.mem_append_right _ (by simp [GatewayNode.unrecorded, exchange, phase]))
      exact caused_response recorded agreed envelope phase
        ((shown Envelope.answer?).trans (answer envelope answered))

end Effects
end Attempt

/-! ### Runs -/

section Run

variable (journal : JournalLog) (io : JournalIo) (mode : GatewayMode)

/-- If all writes work the files hold everything that the run has recorded. -/
theorem reached_recorded (actions : List NodeAction)
    (writes : ∀ action ∈ actions, action.input.replay.writes = true) :
    (reached journal io mode actions).Recorded
      (((start journal io mode).history actions).map ReplayAttempt.event) := by
  intro actor
  refine ⟨(reached_writer actions journal io mode actor).1, ?_⟩
  rw [reached_events, writtenBy, List.filter_map]
  congr 1
  apply List.filter_congr
  intro attempt member
  obtain ⟨role, -, -, written⟩ := history_attempt actions journal io mode attempt member
  have same : attempt.actor.role.code = actor.role.code ↔ attempt.actor = actor := by
    cases attempt.actor <;> cases actor <;> decide
  simp [written writes, role, same]

/-- In any run, what is recorded at some moment has its cause in what has been
recorded before. -/
theorem history_caused (actions : List NodeAction) (past : List ReplayAttempt)
    (attempt : ReplayAttempt)
    (within : past ++ [attempt] <+: (start journal io mode).history actions) :
    Timeline.Caused (past.map ReplayAttempt.event) attempt.event := by
  have view : past.map ReplayAttempt.event ++ [attempt.event] <+:
      ((start journal io mode).history actions).map ReplayAttempt.event := by
    have mapped := within.map ReplayAttempt.event
    rwa [List.map_append] at mapped
  rw [history_recording] at view
  -- the same moment of the run in which all writes work
  obtain ⟨before, twin, made, past', event⟩ := Timeline.mapped_by _ _ _ _ view
  obtain ⟨earlier, action, taken, history, made⟩ := history_cause
    (actions.map NodeAction.recording) journal io mode before twin made
  have writes : ∀ action ∈ earlier, action.input.replay.writes = true := by
    intro action member
    obtain ⟨original, -, rfl⟩ := List.mem_map.mp
      (taken.subset (List.mem_append_left _ member))
    rfl
  obtain ⟨updates, signals, follows⟩ :=
    follows_run _ earlier writes [] [] (follows_start journal io mode)
  obtain ⟨conversation, consumed, agreed⟩ := reached_agreed journal io mode earlier writes
  have recorded := reached_recorded journal io mode earlier writes
  rw [history, past'] at recorded
  rw [← event]
  exact caused_attempt recorded follows agreed made

/-- The orders that are recorded have increasing numbers. -/
theorem history_ids (actions : List NodeAction) :
    ((Timeline.orders (((start journal io mode).history actions).map
      ReplayAttempt.event)).map NewOrder.clientOrderId).Pairwise (· < ·) := by
  rw [history_recording]
  have writes : ∀ action ∈ actions.map NodeAction.recording,
      action.input.replay.writes = true := by
    intro action member
    obtain ⟨original, -, rfl⟩ := List.mem_map.mp member
    rfl
  obtain ⟨updates, signals, follows⟩ :=
    follows_run _ (actions.map NodeAction.recording) writes [] [] (follows_start journal io mode)
  have recorded := reached_recorded journal io mode (actions.map NodeAction.recording) writes
  have shown : (reached journal io mode (actions.map NodeAction.recording)).oms.recorded =
      Timeline.orders _ := recorded.shown .oms Envelope.newOrder?
  have placed := follows.oms.orders
  have ids := (OrderManager.emitted_ids (.new 3 OmsNode.limits)
    (signals.map Signal.untimed)).2
  rw [← placed, List.map_map, List.map_append] at ids
  rw [← shown]
  exact (List.pairwise_append.mp ids).1

end Run
end DistributedNodes
end TradingPlatform
