import TradingPlatform.Causality
import TradingPlatform.LiveAgreement

set_option autoImplicit false

/- Schedules of the four nodes in which every node gets its turn and nothing fails:
no node waits for ever, and all messages reach the end of their way. -/
namespace TradingPlatform

/-! ### The steps still ahead of a message, at the node that has it and all behind -/

theorem Connection.send_delivered (connection : Connection) (sent : List Envelope) :
    (connection.send true sent).broken = connection.broken ∧
      (connection.send true sent).inflight.length =
        connection.inflight.length + sent.length := by
  unfold Connection.send
  split
  · next nothing => simp [nothing]
  · simp

/-- A receiver whose peer is there waits for a message, or takes the first. -/
theorem Connection.recv_cases (connection : Connection) :
    (connection.recv true = none ∧ connection.inflight = []) ∨
      ∃ envelope next, connection.recv true = some (next, some envelope) ∧
        next.broken = connection.broken ∧
        next.inflight.length + 1 = connection.inflight.length := by
  unfold Connection.recv
  cases waiting : connection.inflight with
  | nil => exact Or.inl ⟨rfl, rfl⟩
  | cons envelope rest => exact Or.inr ⟨envelope, _, rfl, rfl, by simp⟩

namespace MarketDataNode

def ahead (node : MarketDataNode) : Nat :=
  match node.phase with
  | .idle => 0
  | .recording _ => 15
  | .sending _ => 14

theorem ahead_idle (node : MarketDataNode) (input : NodeInput) (idle : node.phase = .idle) :
    (node.step input).1.ahead ≤ 15 ∧ (node.step input).2 = [] := by
  simp only [step, idle]
  cases input.received with
  | none => simp [ahead, idle]
  | some envelope => cases envelope <;> simp [ahead, idle]

theorem ahead_step (node : MarketDataNode) (input : NodeInput) (busy : node.phase ≠ .idle) :
    (node.step input).1.ahead + 13 * (node.step input).2.length < node.ahead := by
  cases phase : node.phase with
  | idle => exact absurd phase busy
  | recording update => simp [step, ahead, phase]
  | sending update => simp [step, ahead, phase]

end MarketDataNode

namespace StrategyNode

def ahead (node : StrategyNode) : Nat :=
  match node.phase with
  | .recording _ => 12
  | .sending _ => 11
  | _ => 0

theorem ahead_receiving (node : StrategyNode) (input : NodeInput) (envelope : Envelope)
    (receiving : node.phase = .receiving) (received : input.received = some envelope) :
    (node.step input).1.ahead ≤ 12 ∧ (node.step input).1.phase ≠ .stopped := by
  simp only [step, receiving, received]
  cases envelope with
  | marketData md =>
      cases result : node.strategy.onMarketData md input.now with
      | mk strategy maybeSignal => cases maybeSignal <;> simp [result, ahead]
  | _ => simp [ahead, receiving]

theorem ahead_step (node : StrategyNode) (input : NodeInput) (sends : input.sends = true)
    (working : node.phase ≠ .receiving) (running : node.phase ≠ .stopped) :
    (node.step input).1.ahead + 10 * (node.step input).2.length < node.ahead ∧
      (node.step input).1.phase ≠ .stopped := by
  cases phase : node.phase with
  | receiving => exact absurd phase working
  | recording signal => simp [step, ahead, phase]
  | sending signal => simp [step, ahead, phase, sends]
  | stopped => exact absurd phase running

end StrategyNode

namespace OmsNode

def ahead (node : OmsNode) : Nat :=
  match node.phase with
  | .journaling _ => 9
  | .recording _ => 8
  | .sending _ => 7
  | .recordingResponse _ => 2
  | .processing _ => 1
  | _ => 0

theorem ahead_awaitingSignal (node : OmsNode) (input : NodeInput) (envelope : Envelope)
    (awaiting : node.phase = .awaitingSignal) (received : input.received = some envelope) :
    (node.step input).1.ahead ≤ 9 ∧ (node.step input).1.phase ≠ .stopped := by
  simp only [step, awaiting, received]
  cases envelope with
  | signal signal =>
      by_cases accepted : node.manager.Accepts signal
      · simp [OrderManager.onSignal_accept _ _ _ _ accepted, ahead]
      · simp [OrderManager.onSignal_refuse _ _ _ _ accepted, ahead]
  | _ => simp [ahead, awaiting]

theorem ahead_awaitingResponse (node : OmsNode) (input : NodeInput) (envelope : Envelope)
    (awaiting : node.phase = .awaitingResponse) (received : input.received = some envelope) :
    (node.step input).1.ahead ≤ 2 ∧ (node.step input).1.phase ≠ .stopped := by
  simp [step, awaiting, received, ahead]

theorem ahead_step (node : OmsNode) (input : NodeInput) (sends : input.sends = true)
    (noSignal : node.phase ≠ .awaitingSignal) (noResponse : node.phase ≠ .awaitingResponse)
    (running : node.phase ≠ .stopped) :
    (node.step input).1.ahead + 6 * (node.step input).2.length < node.ahead ∧
      (node.step input).1.phase ≠ .stopped := by
  cases phase : node.phase with
  | awaitingSignal => exact absurd phase noSignal
  | awaitingResponse => exact absurd phase noResponse
  | stopped => exact absurd phase running
  | sending order => simp [step, ahead, phase, sends]
  | _ => simp [step, ahead, phase]

end OmsNode

namespace GatewayNode

def ahead (node : GatewayNode) : Nat :=
  match node.phase with
  | .recording _ => 5
  | .sending _ => 4
  | _ => 0

theorem ahead_receiving (node : GatewayNode) (input : NodeInput) (envelope : Envelope)
    (receiving : node.phase = .receiving) (received : input.received = some envelope) :
    (node.step input).1.ahead ≤ 5 ∧ (node.step input).1.phase ≠ .stopped := by
  simp only [step, receiving, received]
  cases envelope <;> simp [ahead, receiving]

theorem ahead_step (node : GatewayNode) (input : NodeInput) (sends : input.sends = true)
    (working : node.phase ≠ .receiving) (running : node.phase ≠ .stopped) :
    (node.step input).1.ahead + 3 * (node.step input).2.length < node.ahead ∧
      (node.step input).1.phase ≠ .stopped := by
  cases phase : node.phase with
  | receiving => exact absurd phase working
  | recording response => simp [step, ahead, phase]
  | sending response => simp [step, ahead, phase, sends]
  | stopped => exact absurd phase running

end GatewayNode

namespace DistributedNodes

def ahead (nodes : DistributedNodes) : Nat :=
  nodes.marketData.ahead + 13 * nodes.marketDataToStrategy.inflight.length +
    nodes.strategy.ahead + 10 * nodes.strategyToOms.inflight.length +
    nodes.oms.ahead + 6 * nodes.omsToGateway.inflight.length +
    nodes.gateway.ahead + 3 * nodes.gatewayToOms.inflight.length

/-- Nothing has failed so far. -/
structure Intact (nodes : DistributedNodes) : Prop where
  marketDataToStrategy : nodes.marketDataToStrategy.broken = false
  strategyToOms : nodes.strategyToOms.broken = false
  omsToGateway : nodes.omsToGateway.broken = false
  gatewayToOms : nodes.gatewayToOms.broken = false
  strategy : nodes.strategy.phase ≠ .stopped
  oms : nodes.oms.phase ≠ .stopped
  gateway : nodes.gateway.phase ≠ .stopped

/-- Nothing for the node to do. -/
def Waits (nodes : DistributedNodes) : Actor → Prop
  | .marketData => nodes.marketData.phase = .idle
  | .strategy => nodes.strategy.phase = .receiving ∧ nodes.marketDataToStrategy.inflight = []
  | .oms =>
      (nodes.oms.phase = .awaitingSignal ∧ nodes.strategyToOms.inflight = []) ∨
        (nodes.oms.phase = .awaitingResponse ∧ nodes.gatewayToOms.inflight = [])
  | .gateway => nodes.gateway.phase = .receiving ∧ nodes.omsToGateway.inflight = []

section Moves

variable {nodes : DistributedNodes} (intact : nodes.Intact) (input : NodeInput)
variable (sends : input.sends = true)

theorem delivers_whole {connection : Connection} (sends : input.sends = true)
    (whole : connection.broken = false) : connection.delivers input = true := by
  simp [Connection.delivers, sends, whole]

include intact sends

theorem stepMarketData_moves :
    (nodes.stepMarketData input).Intact ∧
      (nodes.stepMarketData input).ahead ≤ nodes.ahead + 15 ∧
        (input.received = none →
          (nodes.stepMarketData input).ahead < nodes.ahead ∨
            (nodes.stepMarketData input = nodes ∧ nodes.Waits .marketData)) := by
  unfold stepMarketData
  rw [delivers_whole input sends intact.marketDataToStrategy]
  dsimp only
  cases made : nodes.marketData.step { input with sends := true } with
  | mk marketData sent =>
      obtain ⟨broken, length⟩ := nodes.marketDataToStrategy.send_delivered sent
      refine ⟨{ intact with
        marketDataToStrategy := broken.trans intact.marketDataToStrategy }, ?_, ?_⟩
      · by_cases idle : nodes.marketData.phase = .idle
        · obtain ⟨bound, silent⟩ := nodes.marketData.ahead_idle { input with sends := true } idle
          rw [made] at bound silent
          dsimp only at bound silent
          have nothing : sent.length = 0 := congrArg List.length silent
          simp only [ahead, length]
          omega
        · have lower := nodes.marketData.ahead_step { input with sends := true } idle
          rw [made] at lower
          dsimp only at lower
          simp only [ahead, length]
          omega
      · intro silent
        by_cases idle : nodes.marketData.phase = .idle
        · right
          simp only [MarketDataNode.step, idle, silent, Prod.mk.injEq] at made
          obtain ⟨rfl, rfl⟩ := made
          exact ⟨rfl, idle⟩
        · left
          have lower := nodes.marketData.ahead_step { input with sends := true } idle
          rw [made] at lower
          dsimp only at lower
          simp only [ahead, length]
          omega

theorem stepStrategy_moves :
    (nodes.stepStrategy true input).Intact ∧
      ((nodes.stepStrategy true input).ahead < nodes.ahead ∨
        (nodes.stepStrategy true input = nodes ∧ nodes.Waits .strategy)) := by
  unfold stepStrategy
  by_cases receiving : nodes.strategy.phase = .receiving
  · rw [if_pos receiving]
    rcases nodes.marketDataToStrategy.recv_cases with
      ⟨taken, empty⟩ | ⟨envelope, next, taken, broken, length⟩
    · rw [taken]
      exact ⟨intact, Or.inr ⟨rfl, receiving, empty⟩⟩
    · obtain ⟨bound, running⟩ := nodes.strategy.ahead_receiving
        { input with received := some envelope } envelope receiving rfl
      rw [taken]
      refine ⟨{ intact with
        marketDataToStrategy := broken.trans intact.marketDataToStrategy
        strategy := running }, Or.inl ?_⟩
      simp only [ahead]
      omega
  · rw [if_neg receiving, delivers_whole input sends intact.strategyToOms]
    dsimp only
    obtain ⟨lower, running⟩ := nodes.strategy.ahead_step { input with sends := true } rfl receiving
      intact.strategy
    cases made : nodes.strategy.step { input with sends := true } with
    | mk strategy sent =>
        obtain ⟨broken, length⟩ := nodes.strategyToOms.send_delivered sent
        rw [made] at lower running
        dsimp only at lower running
        refine ⟨{ intact with
          strategyToOms := broken.trans intact.strategyToOms
          strategy := running }, Or.inl ?_⟩
        simp only [ahead, length]
        omega

theorem stepOms_moves :
    (nodes.stepOms true input).Intact ∧
      ((nodes.stepOms true input).ahead < nodes.ahead ∨
        (nodes.stepOms true input = nodes ∧ nodes.Waits .oms)) := by
  unfold stepOms
  by_cases awaiting : nodes.oms.phase = .awaitingSignal
  · rw [if_pos awaiting]
    rcases nodes.strategyToOms.recv_cases with
      ⟨taken, empty⟩ | ⟨envelope, next, taken, broken, length⟩
    · rw [taken]
      exact ⟨intact, Or.inr ⟨rfl, Or.inl ⟨awaiting, empty⟩⟩⟩
    · obtain ⟨bound, running⟩ := nodes.oms.ahead_awaitingSignal
        { input with received := some envelope } envelope awaiting rfl
      rw [taken]
      refine ⟨{ intact with
        strategyToOms := broken.trans intact.strategyToOms
        oms := running }, Or.inl ?_⟩
      simp only [ahead]
      omega
  · rw [if_neg awaiting]
    by_cases response : nodes.oms.phase = .awaitingResponse
    · rw [if_pos response]
      rcases nodes.gatewayToOms.recv_cases with
        ⟨taken, empty⟩ | ⟨envelope, next, taken, broken, length⟩
      · rw [taken]
        exact ⟨intact, Or.inr ⟨rfl, Or.inr ⟨response, empty⟩⟩⟩
      · obtain ⟨bound, running⟩ := nodes.oms.ahead_awaitingResponse
          { input with received := some envelope } envelope response rfl
        rw [taken]
        refine ⟨{ intact with
          gatewayToOms := broken.trans intact.gatewayToOms
          oms := running }, Or.inl ?_⟩
        simp only [ahead]
        omega
    · rw [if_neg response, delivers_whole input sends intact.omsToGateway]
      dsimp only
      obtain ⟨lower, running⟩ := nodes.oms.ahead_step { input with sends := true } rfl awaiting
        response intact.oms
      cases made : nodes.oms.step { input with sends := true } with
      | mk oms sent =>
          obtain ⟨broken, length⟩ := nodes.omsToGateway.send_delivered sent
          rw [made] at lower running
          dsimp only at lower running
          refine ⟨{ intact with
            omsToGateway := broken.trans intact.omsToGateway
            oms := running }, Or.inl ?_⟩
          simp only [ahead, length]
          omega

theorem stepGateway_moves :
    (nodes.stepGateway true input).Intact ∧
      ((nodes.stepGateway true input).ahead < nodes.ahead ∨
        (nodes.stepGateway true input = nodes ∧ nodes.Waits .gateway)) := by
  unfold stepGateway
  by_cases receiving : nodes.gateway.phase = .receiving
  · rw [if_pos receiving]
    rcases nodes.omsToGateway.recv_cases with
      ⟨taken, empty⟩ | ⟨envelope, next, taken, broken, length⟩
    · rw [taken]
      exact ⟨intact, Or.inr ⟨rfl, receiving, empty⟩⟩
    · obtain ⟨bound, running⟩ := nodes.gateway.ahead_receiving
        { input with received := some envelope } envelope receiving rfl
      rw [taken]
      refine ⟨{ intact with
        omsToGateway := broken.trans intact.omsToGateway
        gateway := running }, Or.inl ?_⟩
      simp only [ahead]
      omega
  · rw [if_neg receiving, delivers_whole input sends intact.gatewayToOms]
    dsimp only
    obtain ⟨lower, running⟩ := nodes.gateway.ahead_step { input with sends := true } rfl receiving
      intact.gateway
    cases made : nodes.gateway.step { input with sends := true } with
    | mk gateway sent =>
        obtain ⟨broken, length⟩ := nodes.gatewayToOms.send_delivered sent
        rw [made] at lower running
        dsimp only at lower running
        refine ⟨{ intact with
          gatewayToOms := broken.trans intact.gatewayToOms
          gateway := running }, Or.inl ?_⟩
        simp only [ahead, length]
        omega

end Moves

/-! ### What holds all along -/

/-- A step that finds its peer, and whose send and replay write work. -/
structure Healthy (action : NodeAction) : Prop where
  connected : action.connected = true
  sends : action.input.sends = true
  writes : action.input.replay.writes = true

/-- A step in which the venue has an update for the market data node, perhaps. -/
def Arrives (action : NodeAction) : Prop :=
  action.actor = .marketData ∧ action.input.received ≠ none

instance (action : NodeAction) : Decidable (Arrives action) :=
  inferInstanceAs (Decidable (_ ∧ _))

/-- The invariants of the runs without failures. -/
structure Ongoing (nodes : DistributedNodes) : Prop where
  intact : nodes.Intact
  follows : ∃ updates signals, nodes.Follows updates signals
  agreed : ∃ conversation consumed, nodes.exchange.Agreed conversation consumed ∧
    nodes.oms.Tracks conversation

theorem tracked_step (nodes : DistributedNodes) (action : NodeAction)
    (conversation : Conversation) (consumed : List NewOrder)
    (writes : action.input.replay.writes = true)
    (agreed : nodes.exchange.Agreed conversation consumed)
    (tracks : nodes.oms.Tracks conversation) :
    ∃ conversation consumed, (nodes.step action).exchange.Agreed conversation consumed ∧
      (nodes.step action).oms.Tracks conversation := by
  unfold step
  cases action.actor with
  | marketData => exact ⟨_, _, agreed, tracks⟩
  | strategy =>
      have same : (nodes.stepStrategy action.connected action.input).exchange =
          nodes.exchange := by
        unfold stepStrategy
        split
        · cases nodes.marketDataToStrategy.recv action.connected <;> rfl
        · rfl
      have oms : (nodes.stepStrategy action.connected action.input).oms = nodes.oms :=
        congrArg OrderExchange.oms same
      exact ⟨_, _, same ▸ agreed, oms ▸ tracks⟩
  | oms =>
      rcases nodes.exchange_stepOms action.connected action.input with same | ⟨received, same⟩
      · have oms : (nodes.stepOms action.connected action.input).oms = nodes.oms :=
          congrArg OrderExchange.oms same
        exact ⟨_, _, same ▸ agreed, oms ▸ tracks⟩
      · obtain ⟨_, _, next, tracked⟩ := nodes.exchange.tracked_step
          (.oms action.connected { action.input with received }) conversation consumed writes
          agreed tracks
        rw [OrderExchange.step, ← same] at next tracked
        exact ⟨_, _, next, tracked⟩
  | gateway =>
      have same := nodes.exchange_stepGateway action.connected action.input
      obtain ⟨_, _, next, tracked⟩ := nodes.exchange.tracked_step
        (.gateway action.connected action.input) conversation consumed writes agreed tracks
      rw [OrderExchange.step, ← same] at next tracked
      exact ⟨_, _, next, tracked⟩

theorem ongoing_start (journal : JournalLog) (io : JournalIo) (mode : GatewayMode) :
    (start journal io mode).Ongoing where
  intact := ⟨rfl, rfl, rfl, rfl, nofun, nofun, nofun⟩
  follows := ⟨[], [], follows_start journal io mode⟩
  agreed := by
    refine ⟨{}, [], ⟨rfl, rfl, rfl, rfl, .start, .start⟩, ?_⟩
    constructor <;> simp [OmsNode.numbers, OmsNode.underWay, start, OmsNode.start,
      OrderManager.new]

/-- A step without a new update gets something done, or finds nothing to do. -/
theorem step_moves {nodes : DistributedNodes} (intact : nodes.Intact) (action : NodeAction)
    (healthy : Healthy action) :
    (nodes.step action).Intact ∧
      (nodes.step action).ahead ≤ nodes.ahead + 15 ∧
      (¬ Arrives action →
        (nodes.step action).ahead < nodes.ahead ∨
          (nodes.step action = nodes ∧ nodes.Waits action.actor)) := by
  have bound : ∀ next : DistributedNodes, ∀ actor : Actor,
      next.ahead < nodes.ahead ∨ (next = nodes ∧ nodes.Waits actor) →
        next.ahead ≤ nodes.ahead + 15 := by
    rintro next actor (lower | ⟨same, -⟩)
    · omega
    · rw [same]
      omega
  unfold step Arrives
  rw [healthy.connected]
  cases action.actor with
  | marketData =>
      obtain ⟨next, more, silent⟩ := stepMarketData_moves intact action.input healthy.sends
      refine ⟨next, more, fun quiet => silent ?_⟩
      by_contra received
      exact quiet ⟨rfl, received⟩
  | strategy =>
      obtain ⟨next, moves⟩ := stepStrategy_moves intact action.input healthy.sends
      exact ⟨next, bound _ .strategy moves, fun _ => moves⟩
  | oms =>
      obtain ⟨next, moves⟩ := stepOms_moves intact action.input healthy.sends
      exact ⟨next, bound _ .oms moves, fun _ => moves⟩
  | gateway =>
      obtain ⟨next, moves⟩ := stepGateway_moves intact action.input healthy.sends
      exact ⟨next, bound _ .gateway moves, fun _ => moves⟩

theorem ongoing_step {nodes : DistributedNodes} (ongoing : nodes.Ongoing) (action : NodeAction)
    (healthy : Healthy action) : (nodes.step action).Ongoing where
  intact := (step_moves ongoing.intact action healthy).1
  follows := by
    have ⟨updates, signals, follows⟩ := ongoing.follows
    exact nodes.follows_step action updates signals healthy.writes follows
  agreed := by
    have ⟨conversation, consumed, agreed, tracks⟩ := ongoing.agreed
    exact nodes.tracked_step action conversation consumed healthy.writes agreed tracks

theorem ongoing_run {nodes : DistributedNodes} (ongoing : nodes.Ongoing)
    (actions : List NodeAction) (healthy : ∀ action ∈ actions, Healthy action) :
    (actions.foldl step nodes).Ongoing ∧
      (actions.foldl step nodes).ahead ≤
        nodes.ahead + 15 * actions.countP fun action => Arrives action := by
  induction actions generalizing nodes with
  | nil => exact ⟨ongoing, by simp⟩
  | cons action actions ih =>
      obtain ⟨now, later⟩ := List.forall_mem_cons.mp healthy
      obtain ⟨-, more, moves⟩ := step_moves ongoing.intact action now
      obtain ⟨final, bound⟩ := ih (ongoing_step ongoing action now) later
      refine ⟨final, bound.trans ?_⟩
      rw [List.countP_cons]
      by_cases arrives : Arrives action
      · rw [decide_eq_true arrives, if_pos rfl]
        omega
      · rcases moves arrives with lower | ⟨same, -⟩
        · omega
        · rw [same]
          omega

/-! ### No node waits for ever -/

/-- The end of all messages. -/
structure Quiet (nodes : DistributedNodes) : Prop where
  marketData : nodes.marketData.phase = .idle
  marketDataToStrategy : nodes.marketDataToStrategy.inflight = []
  strategy : nodes.strategy.phase = .receiving
  strategyToOms : nodes.strategyToOms.inflight = []
  oms : nodes.oms.phase = .awaitingSignal
  omsToGateway : nodes.omsToGateway.inflight = []
  gateway : nodes.gateway.phase = .receiving
  gatewayToOms : nodes.gatewayToOms.inflight = []

/-- While the gateway has nothing to do, a response is on its way exactly if the
order manager waits for one. -/
theorem responses_on_way {nodes : DistributedNodes} {conversation : Conversation}
    {consumed : List NewOrder} (agreed : nodes.exchange.Agreed conversation consumed)
    (intact : nodes.Intact) (gateway : nodes.Waits .gateway)
    (oms : nodes.oms.phase = .awaitingSignal ∨ nodes.oms.phase = .awaitingResponse) :
    nodes.gatewayToOms.inflight.length = conversation.current.toList.length := by
  have taken := agreed.orders.complete intact.omsToGateway
  have answered := congrArg List.length agreed.answers
  have given := congrArg List.length (agreed.responses.complete intact.gatewayToOms)
  have unsent : nodes.exchange.oms.unsent = [] ∧ nodes.exchange.oms.holds = [] := by
    rcases oms with phase | phase <;> simp [exchange, OmsNode.unsent, OmsNode.holds, phase]
  have idle : nodes.exchange.gateway.unrecorded = [] ∧ nodes.exchange.gateway.unsent = [] := by
    simp [exchange, GatewayNode.unrecorded, GatewayNode.unsent, gateway.1]
  have orders : nodes.exchange.omsToGateway.inflight = [] := gateway.2
  rw [unsent.1, orders, List.filterMap_nil, List.append_nil, List.append_nil] at taken
  have size := congrArg List.length taken
  simp only [Conversation.orders, List.length_append, List.length_map] at size
  simp only [idle.1, List.append_nil, List.length_map] at answered
  simp only [unsent.2, idle.2, List.append_nil, List.length_append, List.length_map,
    List.filterMap_some] at given
  show nodes.exchange.gatewayToOms.inflight.length = _
  omega

/-- Only the end leaves all nodes waiting. -/
theorem quiet_of_waits {nodes : DistributedNodes} (ongoing : nodes.Ongoing)
    (waits : ∀ actor, nodes.Waits actor) : nodes.Quiet := by
  obtain ⟨conversation, consumed, agreed, -⟩ := ongoing.agreed
  have gateway := waits .gateway
  rcases waits .oms with ⟨phase, empty⟩ | ⟨phase, empty⟩
  · have length := responses_on_way agreed ongoing.intact gateway (Or.inl phase)
    have nothing : conversation.current = none := by
      cases current : conversation.current with
      | none => rfl
      | some order =>
          have shows_ : nodes.oms.Shows conversation := agreed.shows_
          simp [OmsNode.Shows, phase, current] at shows_
    rw [nothing] at length
    exact {
      marketData := waits .marketData
      marketDataToStrategy := (waits .strategy).2
      strategy := (waits .strategy).1
      strategyToOms := empty
      oms := phase
      omsToGateway := gateway.2
      gateway := gateway.1
      gatewayToOms := List.length_eq_zero_iff.mp length }
  · -- the order manager would wait for a response that nobody owes it
    have length := responses_on_way agreed ongoing.intact gateway (Or.inr phase)
    have shows_ : nodes.oms.Shows conversation := agreed.shows_
    cases current : conversation.current with
    | none => simp [OmsNode.Shows, phase, current] at shows_
    | some order => simp [empty, current] at length

theorem waits_of_ahead {nodes : DistributedNodes} (intact : nodes.Intact)
    (done : nodes.ahead = 0) (actor : Actor) : nodes.Waits actor := by
  simp only [ahead] at done
  have empty : ∀ connection : Connection, connection.inflight.length = 0 →
      connection.inflight = [] := fun _ length => List.length_eq_zero_iff.mp length
  cases actor with
  | marketData =>
      have idle : nodes.marketData.ahead = 0 := by omega
      cases phase : nodes.marketData.phase with
      | idle => exact phase
      | _ => simp [MarketDataNode.ahead, phase] at idle
  | strategy =>
      have idle : nodes.strategy.ahead = 0 := by omega
      refine ⟨?_, empty _ (by omega)⟩
      cases phase : nodes.strategy.phase with
      | receiving => rfl
      | stopped => exact absurd phase intact.strategy
      | _ => simp [StrategyNode.ahead, phase] at idle
  | oms =>
      have idle : nodes.oms.ahead = 0 := by omega
      cases phase : nodes.oms.phase with
      | awaitingSignal => exact Or.inl ⟨phase, empty _ (by omega)⟩
      | awaitingResponse => exact Or.inr ⟨phase, empty _ (by omega)⟩
      | stopped => exact absurd phase intact.oms
      | _ => simp [OmsNode.ahead, phase] at idle
  | gateway =>
      have idle : nodes.gateway.ahead = 0 := by omega
      refine ⟨?_, empty _ (by omega)⟩
      cases phase : nodes.gateway.phase with
      | receiving => rfl
      | stopped => exact absurd phase intact.gateway
      | _ => simp [GatewayNode.ahead, phase] at idle

theorem Quiet.ahead_eq {nodes : DistributedNodes} (quiet : nodes.Quiet) : nodes.ahead = 0 := by
  simp [ahead, MarketDataNode.ahead, StrategyNode.ahead, OmsNode.ahead, GatewayNode.ahead,
    quiet.marketData, quiet.marketDataToStrategy, quiet.strategy, quiet.strategyToOms, quiet.oms,
    quiet.omsToGateway, quiet.gateway, quiet.gatewayToOms]

/-! ### Rounds -/

/-- Every node gets its turn, in any order, nothing fails, and no update comes in. -/
structure Turns (round : List NodeAction) : Prop where
  healthy : ∀ action ∈ round, Healthy action
  silent : ∀ action ∈ round, ¬ Arrives action
  turns : ∀ actor, ∃ action ∈ round, action.actor = actor

/-- Steps that get nothing done have found nothing to do. -/
theorem run_moves {nodes : DistributedNodes} (intact : nodes.Intact) (actions : List NodeAction)
    (healthy : ∀ action ∈ actions, Healthy action)
    (silent : ∀ action ∈ actions, ¬ Arrives action) :
    (actions.foldl step nodes).ahead < nodes.ahead ∨
      (actions.foldl step nodes = nodes ∧ ∀ action ∈ actions, nodes.Waits action.actor) := by
  induction actions generalizing nodes with
  | nil => exact Or.inr ⟨rfl, by simp⟩
  | cons action actions ih =>
      obtain ⟨now, later⟩ := List.forall_mem_cons.mp healthy
      obtain ⟨quiet, rest⟩ := List.forall_mem_cons.mp silent
      obtain ⟨next, -, moves⟩ := step_moves intact action now
      rw [List.foldl_cons]
      rcases moves quiet with lower | ⟨same, waits⟩
      · left
        rcases ih next later rest with final | ⟨final, -⟩
        · exact final.trans lower
        · rwa [final]
      · rw [same] at next ⊢
        rcases ih next later rest with final | ⟨final, idle⟩
        · exact Or.inl final
        · exact Or.inr ⟨final, List.forall_mem_cons.mpr ⟨waits, idle⟩⟩

/-- A round gets something done, unless nothing is left to do. -/
theorem round_ahead {nodes : DistributedNodes} (ongoing : nodes.Ongoing)
    (round : List NodeAction) (turns : Turns round) :
    (round.foldl step nodes).ahead ≤ nodes.ahead - 1 := by
  rcases run_moves ongoing.intact round turns.healthy turns.silent with lower | ⟨same, waits⟩
  · omega
  · have quiet : nodes.Quiet := by
      apply quiet_of_waits ongoing
      intro actor
      have ⟨action, member, own⟩ := turns.turns actor
      exact own ▸ waits action member
    rw [same, quiet.ahead_eq]

/-! ### Whole runs -/

section Quiet

variable {nodes : DistributedNodes}

/-- At the end every recorded update and signal has been worked on. -/
theorem Quiet.consumed (quiet : nodes.Quiet) (intact : nodes.Intact)
    {updates : List MarketDataUpdate} {signals : List Signal}
    (follows : nodes.Follows updates signals) :
    updates = nodes.marketData.recorded ∧ signals = nodes.strategy.recorded := by
  have taken := follows.marketDataSends.complete intact.marketDataToStrategy
  have given := follows.strategySends.complete intact.strategyToOms
  rw [quiet.marketDataToStrategy, MarketDataNode.unsent, quiet.marketData] at taken
  rw [quiet.strategyToOms, StrategyNode.unsent, quiet.strategy] at given
  simp only [List.filterMap_nil, List.append_nil] at taken given
  exact ⟨taken, given⟩

/-- At the end the recorded orders are those the gateway has answered. -/
theorem Quiet.answered (quiet : nodes.Quiet) (intact : nodes.Intact)
    {conversation : Conversation} {consumed : List NewOrder}
    (agreed : nodes.exchange.Agreed conversation consumed) :
    nodes.gateway.replayWriter.envelopes.map Envelope.answeredId =
      nodes.oms.recorded.map fun order => some order.clientOrderId := by
  have recorded : nodes.oms.recorded = conversation.orders := agreed.oms_orders
  have taken := agreed.orders.complete intact.omsToGateway
  have unsent : nodes.exchange.oms.unsent = [] := by
    simp [exchange, OmsNode.unsent, quiet.oms]
  have empty : nodes.exchange.omsToGateway.inflight = [] := quiet.omsToGateway
  have unrecorded : nodes.exchange.gateway.unrecorded = [] := by
    simp [exchange, GatewayNode.unrecorded, quiet.gateway]
  have answers := agreed.answers
  rw [unsent, empty, List.filterMap_nil, List.append_nil, List.append_nil] at taken
  rw [GatewayNode.Answers, unrecorded, List.append_nil, taken, ← recorded] at answers
  exact answers

/-- At the end the files and the live orders say the same. -/
theorem Quiet.complete (quiet : nodes.Quiet) (ongoing : nodes.Ongoing)
    (clock : Nat → TurnClock) :
    nodes.strategy.recorded.map Signal.untimed =
        (ReplayRun.signals nodes.marketData.replayWriter clock).map Signal.untimed ∧
      nodes.oms.recorded.map NewOrder.untimed =
        (ReplayRun.orders nodes.marketData.replayWriter clock).map NewOrder.untimed ∧
      nodes.gateway.replayWriter.envelopes.map Envelope.answeredId =
        nodes.oms.recorded.map (fun order => some order.clientOrderId) ∧
      ∀ id, id ∈ nodes.oms.manager.liveOrders ↔
        id ∈ OrderExchange.acknowledged nodes.gateway.replayWriter := by
  obtain ⟨updates, signals, follows⟩ := ongoing.follows
  obtain ⟨conversation, consumed, agreed, tracks⟩ := ongoing.agreed
  obtain ⟨rfl, rfl⟩ := quiet.consumed ongoing.intact follows
  have noSignal : nodes.strategy.unrecorded = [] := by
    simp [StrategyNode.unrecorded, quiet.strategy]
  have noOrder : nodes.oms.unrecorded = [] := by
    simp [OmsNode.unrecorded, quiet.oms]
  have idle : nodes.oms.underWay conversation = [] :=
    (OmsNode.underWay_single agreed.shows_).2.2 quiet.oms
  have produced := follows.strategy.signals
  have orders := follows.oms.orders
  rw [noSignal, List.append_nil] at produced
  rw [noOrder, List.append_nil] at orders
  have generated : nodes.strategy.recorded.map Signal.untimed =
      (ReplayRun.signals nodes.marketData.replayWriter clock).map Signal.untimed := by
    rw [ReplayRun.signals_untimed nodes.marketData.replayWriter clock follows.marketDataSound]
    exact produced
  refine ⟨generated, ?_, quiet.answered ongoing.intact agreed, ?_⟩
  · rw [ReplayRun.orders_untimed nodes.marketData.replayWriter clock follows.marketDataSound,
      ← generated]
    exact orders
  · intro id
    have absent : id ∉ (nodes.oms.underWay conversation).map NewOrder.clientOrderId := by
      simp [idle]
    rw [tracks.live id]
    have acknowledged := agreed.acknowledged_iff id absent
    exact (or_iff_left absent).trans acknowledged.symm

end Quiet

/-- Updates come in and the nodes work on them, in any order and at any pace, without
failures; then no more come in, and every node gets its turn again and again. After
fifteen rounds for every update no message is on its way and no node waits for
another; the signals and orders recorded, up to timestamps, are all those that a
replay of the recorded market data generates; the gateway has answered every order,
and the live orders are those it has acknowledged. -/
theorem fair_schedule_drains (journal : JournalLog) (io : JournalIo) (mode : GatewayMode)
    (actions : List NodeAction) (rounds : List (List NodeAction))
    (healthy : ∀ action ∈ actions, Healthy action) (turns : ∀ round ∈ rounds, Turns round)
    (enough : 15 * actions.countP (fun action => Arrives action) ≤ rounds.length)
    (clock : Nat → TurnClock) :
    let nodes := reached journal io mode (actions ++ rounds.flatten)
    nodes.Quiet ∧
      nodes.strategy.recorded.map Signal.untimed =
        (ReplayRun.signals nodes.marketData.replayWriter clock).map Signal.untimed ∧
      nodes.oms.recorded.map NewOrder.untimed =
        (ReplayRun.orders nodes.marketData.replayWriter clock).map NewOrder.untimed ∧
      nodes.gateway.replayWriter.envelopes.map Envelope.answeredId =
        nodes.oms.recorded.map (fun order => some order.clientOrderId) ∧
      ∀ id, id ∈ nodes.oms.manager.liveOrders ↔
        id ∈ OrderExchange.acknowledged nodes.gateway.replayWriter := by
  intro nodes
  obtain ⟨begun, bound⟩ := ongoing_run (ongoing_start journal io mode) actions healthy
  obtain ⟨ongoing, left⟩ := Transducer.foldl_rounds step
    (fun _ round ongoing turns =>
      ⟨(ongoing_run ongoing round turns.healthy).1, round_ahead ongoing round turns⟩)
    rounds turns _ begun
  have empty : (start journal io mode).ahead = 0 := rfl
  rw [← List.foldl_append] at ongoing left
  have done : nodes.ahead = 0 := by
    show ((actions ++ rounds.flatten).foldl step (start journal io mode)).ahead = 0
    omega
  have quiet : nodes.Quiet := quiet_of_waits ongoing (waits_of_ahead ongoing.intact done)
  exact ⟨quiet, quiet.complete ongoing clock⟩

/-- One turn of every node, against the direction of the messages. -/
def oneRound : List NodeAction :=
  [{ actor := .gateway }, { actor := .oms }, { actor := .strategy }, { actor := .marketData }]

theorem fair_schedule_drains_oneTrade :
    let nodes := reached {} {} .sim (oneTrade ++ (List.replicate 15 oneRound).flatten)
    nodes.Quiet ∧ nodes.oms.manager.liveOrders = {1} ∧
      ∀ id, id ∈ nodes.oms.manager.liveOrders ↔
        id ∈ OrderExchange.acknowledged nodes.gateway.replayWriter := by
  have turns : Turns oneRound := by
    constructor
    · intro action member
      simp only [oneRound, List.mem_cons, List.not_mem_nil, or_false] at member
      rcases member with rfl | rfl | rfl | rfl <;> exact ⟨rfl, rfl, rfl⟩
    · decide
    · intro actor
      cases actor <;> simp [oneRound]
  obtain ⟨quiet, -, -, -, live⟩ := fair_schedule_drains {} {} .sim oneTrade
    (List.replicate 15 oneRound) (by
      intro action member
      simp only [oneTrade, List.mem_cons, List.not_mem_nil, or_false] at member
      rcases member with rfl | rfl | rfl | rfl | rfl | rfl | rfl | rfl | rfl <;>
        exact ⟨rfl, rfl, rfl⟩) (by
      intro round member
      exact List.eq_of_mem_replicate member ▸ turns) (by decide) fun _ => {}
  exact ⟨quiet, by decide +kernel, live⟩

end DistributedNodes
end TradingPlatform
