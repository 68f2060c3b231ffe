import TradingPlatform.DistributedNodes
import TradingPlatform.WireLink

set_option autoImplicit false

/- The four nodes over the bytes of their connections, and that they do what the
nodes over channels of whole messages do. -/
namespace TradingPlatform

open StreamSocket (Kernel)

structure WireNodes where
  marketData : MarketDataNode
  strategy : StrategyNode
  oms : OmsNode
  gateway : GatewayNode
  marketDataToStrategy : WireLink := .connected
  strategyToOms : WireLink := .connected
  omsToGateway : WireLink := .connected
  gatewayToOms : WireLink := .connected

/-- As over channels, with the answers of the system to the calls of the step. -/
structure WireAction where
  actor : Actor
  connected : Bool := true
  input : NodeInput := {}
  kernel : Kernel

namespace WireNodes

def start (journal : JournalLog) (io : JournalIo) (mode : GatewayMode) : WireNodes where
  marketData := .start [] true
  strategy := .start [] true
  oms := .start journal io [] true
  gateway := .start mode [] true

def stepMarketData (nodes : WireNodes) (kernel : Kernel) (input : NodeInput) : WireNodes :=
  let (sends, marketDataToStrategy) := nodes.marketDataToStrategy.send kernel
    nodes.marketData.outboundSeq (nodes.marketData.step input).2
  { nodes with
    marketData := (nodes.marketData.step { input with sends }).1, marketDataToStrategy }

def stepStrategy (nodes : WireNodes) (connected : Bool) (kernel : Kernel) (input : NodeInput) :
    WireNodes :=
  if nodes.strategy.phase = .receiving then
    match nodes.marketDataToStrategy.recv kernel connected with
    | none => nodes
    | some (marketDataToStrategy, received) =>
        { nodes with
          strategy := (nodes.strategy.step { input with received }).1, marketDataToStrategy }
  else
    let (sends, strategyToOms) := nodes.strategyToOms.send kernel nodes.strategy.signalSeq
      (nodes.strategy.step input).2
    { nodes with strategy := (nodes.strategy.step { input with sends }).1, strategyToOms }

def stepOms (nodes : WireNodes) (connected : Bool) (kernel : Kernel) (input : NodeInput) :
    WireNodes :=
  if nodes.oms.phase = .awaitingSignal then
    match nodes.strategyToOms.recv kernel connected with
    | none => nodes
    | some (strategyToOms, received) =>
        { nodes with oms := (nodes.oms.step { input with received }).1, strategyToOms }
  else if nodes.oms.phase = .awaitingResponse then
    match nodes.gatewayToOms.recv kernel connected with
    | none => nodes
    | some (gatewayToOms, received) =>
        { nodes with oms := (nodes.oms.step { input with received }).1, gatewayToOms }
  else
    let (sends, omsToGateway) := nodes.omsToGateway.send kernel (nodes.oms.gatewaySeq + 1)
      (nodes.oms.step input).2
    { nodes with oms := (nodes.oms.step { input with sends }).1, omsToGateway }

def stepGateway (nodes : WireNodes) (connected : Bool) (kernel : Kernel) (input : NodeInput) :
    WireNodes :=
  if nodes.gateway.phase = .receiving then
    match nodes.omsToGateway.recv kernel connected with
    | none => nodes
    | some (omsToGateway, received) =>
        { nodes with gateway := (nodes.gateway.step { input with received }).1, omsToGateway }
  else
    let (sends, gatewayToOms) := nodes.gatewayToOms.send kernel nodes.gateway.responseSeq
      (nodes.gateway.step input).2
    { nodes with gateway := (nodes.gateway.step { input with sends }).1, gatewayToOms }

def step (nodes : WireNodes) (action : WireAction) : WireNodes :=
  match action.actor with
  | .marketData => nodes.stepMarketData action.kernel action.input
  | .strategy => nodes.stepStrategy action.connected action.kernel action.input
  | .oms => nodes.stepOms action.connected action.kernel action.input
  | .gateway => nodes.stepGateway action.connected action.kernel action.input

def reached (journal : JournalLog) (io : JournalIo) (mode : GatewayMode)
    (actions : List WireAction) : WireNodes :=
  actions.foldl step (start journal io mode)

/-- What a step hands to `send_envelope`. -/
def sent (nodes : WireNodes) (action : WireAction) : List Envelope :=
  match action.actor with
  | .marketData => (nodes.marketData.step action.input).2
  | .strategy => (nodes.strategy.step action.input).2
  | .oms => (nodes.oms.step action.input).2
  | .gateway => (nodes.gateway.step action.input).2

/-- No message of the run has a counter too large for its word. -/
def FitsAlong (nodes : WireNodes) : List WireAction → Prop
  | [] => True
  | action :: rest =>
      (∀ envelope ∈ nodes.sent action, envelope.Fits) ∧ (nodes.step action).FitsAlong rest

instance decidableFitsAlong (nodes : WireNodes) :
    (actions : List WireAction) → Decidable (nodes.FitsAlong actions)
  | [] => isTrue trivial
  | action :: rest =>
      have := decidableFitsAlong (nodes.step action) rest
      inferInstanceAs (Decidable (_ ∧ _))

end WireNodes

/-! ### What the nodes send -/

theorem MarketDataNode.step_sent (node : MarketDataNode) (input : NodeInput) :
    ((node.step input).2 = [] ∨ ∃ update, (node.step input).2 = [.marketData update]) ∧
      ∀ sends, (node.step { input with sends }).2 = (node.step input).2 := by
  unfold MarketDataNode.step
  cases node.phase with
  | idle =>
      cases input.received with
      | none => exact ⟨Or.inl rfl, fun _ => rfl⟩
      | some envelope => cases envelope <;> exact ⟨Or.inl rfl, fun _ => rfl⟩
  | recording update => exact ⟨Or.inl rfl, fun _ => rfl⟩
  | sending update => exact ⟨Or.inr ⟨update, rfl⟩, fun _ => rfl⟩

theorem StrategyNode.step_sent (node : StrategyNode) (input : NodeInput) :
    ((node.step input).2 = [] ∨ ∃ signal, (node.step input).2 = [.signal signal]) ∧
      ∀ sends, (node.step { input with sends }).2 = (node.step input).2 := by
  unfold StrategyNode.step
  cases node.phase with
  | receiving =>
      cases input.received with
      | none => exact ⟨Or.inl rfl, fun _ => rfl⟩
      | some envelope =>
          cases envelope with
          | marketData update =>
              dsimp only
              split <;> exact ⟨Or.inl rfl, fun _ => rfl⟩
          | _ => exact ⟨Or.inl rfl, fun _ => rfl⟩
  | recording signal => exact ⟨Or.inl rfl, fun _ => rfl⟩
  | sending signal =>
      refine ⟨Or.inr ⟨signal, ?_⟩, fun sends => ?_⟩
      · cases input.sends <;> rfl
      · cases sends <;> cases input.sends <;> rfl
  | stopped => exact ⟨Or.inl rfl, fun _ => rfl⟩

theorem OmsNode.step_sent (node : OmsNode) (input : NodeInput) :
    ((node.step input).2 = [] ∨ ∃ order, (node.step input).2 = [.newOrder order]) ∧
      ∀ sends, (node.step { input with sends }).2 = (node.step input).2 := by
  unfold OmsNode.step
  cases node.phase with
  | awaitingSignal =>
      cases input.received with
      | none => exact ⟨Or.inl rfl, fun _ => rfl⟩
      | some envelope =>
          cases envelope with
          | signal signal =>
              dsimp only
              split <;> exact ⟨Or.inl rfl, fun _ => rfl⟩
          | _ => exact ⟨Or.inl rfl, fun _ => rfl⟩
  | sending order =>
      refine ⟨Or.inr ⟨order, ?_⟩, fun sends => ?_⟩
      · cases input.sends <;> rfl
      · cases sends <;> cases input.sends <;> rfl
  | awaitingResponse => cases input.received <;> exact ⟨Or.inl rfl, fun _ => rfl⟩
  | _ => exact ⟨Or.inl rfl, fun _ => rfl⟩

theorem GatewayNode.step_sent (node : GatewayNode) (input : NodeInput) :
    ((node.step input).2 = [] ∨ ∃ response ∈ node.pending, (node.step input).2 = [response]) ∧
      ∀ sends, (node.step { input with sends }).2 = (node.step input).2 := by
  unfold GatewayNode.step
  cases phase : node.phase with
  | receiving =>
      cases input.received with
      | none => exact ⟨Or.inl rfl, fun _ => rfl⟩
      | some envelope => cases envelope <;> exact ⟨Or.inl rfl, fun _ => rfl⟩
  | recording response => exact ⟨Or.inl rfl, fun _ => rfl⟩
  | sending response =>
      refine ⟨Or.inr ⟨response, ?_, ?_⟩, fun sends => ?_⟩
      · simp [GatewayNode.pending, phase]
      · cases input.sends <;> rfl
      · cases sends <;> cases input.sends <;> rfl
  | stopped => exact ⟨Or.inl rfl, fun _ => rfl⟩

/-! ### Where the nodes stop -/

theorem StrategyNode.step_lost (node : StrategyNode) (input : NodeInput)
    (receiving : node.phase = .receiving) (lost : input.received = none) :
    (node.step input).1.phase = .stopped := by
  simp [step, receiving, lost]

theorem StrategyNode.step_running (node : StrategyNode) (input : NodeInput)
    (running : (node.step input).1.phase ≠ .stopped) : node.phase ≠ .stopped := by
  intro stopped
  apply running
  simp [step, stopped]

theorem OmsNode.step_lost (node : OmsNode) (input : NodeInput)
    (receiving : node.phase = .awaitingSignal ∨ node.phase = .awaitingResponse)
    (lost : input.received = none) : (node.step input).1.phase = .stopped := by
  rcases receiving with signal | response
  · simp [step, signal, lost]
  · simp [step, response, lost]

theorem OmsNode.step_running (node : OmsNode) (input : NodeInput)
    (running : (node.step input).1.phase ≠ .stopped) : node.phase ≠ .stopped := by
  intro stopped
  apply running
  simp [step, stopped]

theorem GatewayNode.step_lost (node : GatewayNode) (input : NodeInput)
    (receiving : node.phase = .receiving) (lost : input.received = none) :
    (node.step input).1.phase = .stopped := by
  simp [step, receiving, lost]

theorem GatewayNode.step_running (node : GatewayNode) (input : NodeInput)
    (running : (node.step input).1.phase ≠ .stopped) : node.phase ≠ .stopped := by
  intro stopped
  apply running
  simp [step, stopped]

/-! ### Refinement -/

namespace WireNodes

/-- The nodes are in the states of those over channels, and each connection whose
receiver has not stopped carries the frames of the messages in its channel. -/
structure Refines (nodes : WireNodes) (channels : DistributedNodes) : Prop where
  marketData : nodes.marketData = channels.marketData
  strategy : nodes.strategy = channels.strategy
  oms : nodes.oms = channels.oms
  gateway : nodes.gateway = channels.gateway
  marketDataToStrategy : nodes.marketDataToStrategy.Serves channels.marketDataToStrategy
    (nodes.strategy.phase ≠ .stopped)
  strategyToOms : nodes.strategyToOms.Serves channels.strategyToOms (nodes.oms.phase ≠ .stopped)
  omsToGateway : nodes.omsToGateway.Serves channels.omsToGateway (nodes.gateway.phase ≠ .stopped)
  gatewayToOms : nodes.gatewayToOms.Serves channels.gatewayToOms (nodes.oms.phase ≠ .stopped)
  answers : ∀ response ∈ nodes.gateway.pending, response.answeredId ≠ none

theorem start_refines (journal : JournalLog) (io : JournalIo) (mode : GatewayMode) :
    (start journal io mode).Refines (.start journal io mode) where
  marketData := rfl
  strategy := rfl
  oms := rfl
  gateway := rfl
  marketDataToStrategy := WireLink.connected_serves _
  strategyToOms := WireLink.connected_serves _
  omsToGateway := WireLink.connected_serves _
  gatewayToOms := WireLink.connected_serves _
  answers := fun _ member => absurd member List.not_mem_nil

section Steps

variable {nodes : WireNodes} {channels : DistributedNodes}

/-- A step that sends at most one message of a type that has a payload. -/
theorem send_matched {link : WireLink} {connection : Connection} {reading : Prop}
    (serves : link.Serves connection reading) (kernel : Kernel) (sequence : Sequence)
    (input : NodeInput) (sent : List Envelope) (fits : ∀ envelope ∈ sent, envelope.Fits)
    (kinds : sent = [] ∨
      ∃ envelope, sent = [envelope] ∧ Wire.payloadSizeForType envelope.type.code ≠ 0) :
    ∃ sends next, link.send kernel sequence sent = (sends, next) ∧
      connection.delivers { input with sends } = sends ∧
      next.Serves (connection.send sends sent) reading := by
  have single : sent.length ≤ 1 := by
    rcases kinds with none | ⟨envelope, one, -⟩ <;> simp [*]
  have supported : ∀ envelope ∈ sent, Wire.payloadSizeForType envelope.type.code ≠ 0 := by
    rcases kinds with none | ⟨envelope, one, sized⟩
    · simp [none]
    · rwa [one, List.forall_mem_singleton]
  obtain ⟨intact, joins⟩ :=
    WireLink.send_joins serves.toJoins kernel sequence sent single supported
  have realizes := fun on : reading =>
    WireLink.send_realizes (serves.realizes on) kernel sequence sent single supported fits
  generalize made : link.send kernel sequence sent = result at intact joins realizes
  obtain ⟨sends, link'⟩ := result
  refine ⟨sends, link', rfl, ?_, joins, realizes⟩
  cases sends with
  | false => rfl
  | true => simp [Connection.delivers, intact rfl]

theorem stepMarketData_refines (refines : nodes.Refines channels) (kernel : Kernel)
    (input : NodeInput) (fits : ∀ envelope ∈ (nodes.marketData.step input).2, envelope.Fits) :
    ∃ sends, (nodes.stepMarketData kernel input).Refines
      (channels.stepMarketData { input with sends }) := by
  obtain ⟨kinds, same⟩ := nodes.marketData.step_sent input
  obtain ⟨sends, link, outcome, delivers, serves⟩ := send_matched refines.marketDataToStrategy
    kernel nodes.marketData.outboundSeq input _ fits
    (kinds.imp id fun ⟨update, one⟩ => ⟨_, one, of_decide_eq_true rfl⟩)
  refine ⟨sends, ?_⟩
  unfold stepMarketData DistributedNodes.stepMarketData
  rw [outcome, delivers, ← refines.marketData]
  dsimp only
  rw [same sends]
  exact { refines with marketData := rfl, marketDataToStrategy := serves }

theorem stepStrategy_refines (refines : nodes.Refines channels) (connected : Bool)
    (kernel : Kernel) (input : NodeInput)
    (fits : ∀ envelope ∈ (nodes.strategy.step input).2, envelope.Fits) :
    ∃ found sends, (nodes.stepStrategy connected kernel input).Refines
      (channels.stepStrategy found { input with sends }) := by
  unfold stepStrategy DistributedNodes.stepStrategy
  rw [← refines.strategy]
  by_cases receiving : nodes.strategy.phase = .receiving
  · simp only [if_pos receiving]
    rcases WireLink.recv_serves refines.marketDataToStrategy (by simp [receiving]) kernel
        connected with ⟨waits, idle⟩ | ⟨found, next, received, link, taken, same, serves⟩
    · refine ⟨true, input.sends, ?_⟩
      rw [waits, idle]
      exact refines
    · refine ⟨found, input.sends, ?_⟩
      rw [taken, same]
      exact { refines with
        strategy := rfl
        marketDataToStrategy := serves _ fun lost => not_not.mpr
          (nodes.strategy.step_lost { input with received } receiving lost) }
  · simp only [if_neg receiving]
    obtain ⟨kinds, same⟩ := nodes.strategy.step_sent input
    obtain ⟨sends, link, outcome, delivers, serves⟩ := send_matched refines.strategyToOms
      kernel nodes.strategy.signalSeq input _ fits
      (kinds.imp id fun ⟨signal, one⟩ => ⟨_, one, of_decide_eq_true rfl⟩)
    refine ⟨true, sends, ?_⟩
    rw [outcome, delivers]
    dsimp only
    rw [same sends]
    exact { refines with
      strategy := rfl
      marketDataToStrategy := refines.marketDataToStrategy.mono
        (nodes.strategy.step_running { input with sends })
      strategyToOms := serves }

theorem stepOms_refines (refines : nodes.Refines channels) (connected : Bool) (kernel : Kernel)
    (input : NodeInput) (fits : ∀ envelope ∈ (nodes.oms.step input).2, envelope.Fits) :
    ∃ found sends, (nodes.stepOms connected kernel input).Refines
      (channels.stepOms found { input with sends }) := by
  unfold stepOms DistributedNodes.stepOms
  rw [← refines.oms]
  by_cases signal : nodes.oms.phase = .awaitingSignal
  · simp only [if_pos signal]
    rcases WireLink.recv_serves refines.strategyToOms (by simp [signal]) kernel connected with
      ⟨waits, idle⟩ | ⟨found, next, received, link, taken, same, serves⟩
    · refine ⟨true, input.sends, ?_⟩
      rw [waits, idle]
      exact refines
    · refine ⟨found, input.sends, ?_⟩
      rw [taken, same]
      exact { refines with
        oms := rfl
        strategyToOms := serves _ fun lost => not_not.mpr
          (nodes.oms.step_lost { input with received } (Or.inl signal) lost)
        gatewayToOms := refines.gatewayToOms.mono
          (nodes.oms.step_running { input with received }) }
  · by_cases response : nodes.oms.phase = .awaitingResponse
    · simp only [if_neg signal, if_pos response]
      rcases WireLink.recv_serves refines.gatewayToOms (by simp [response]) kernel connected with
        ⟨waits, idle⟩ | ⟨found, next, received, link, taken, same, serves⟩
      · refine ⟨true, input.sends, ?_⟩
        rw [waits, idle]
        exact refines
      · refine ⟨found, input.sends, ?_⟩
        rw [taken, same]
        exact { refines with
          oms := rfl
          strategyToOms := refines.strategyToOms.mono
            (nodes.oms.step_running { input with received })
          gatewayToOms := serves _ fun lost => not_not.mpr
            (nodes.oms.step_lost { input with received } (Or.inr response) lost) }
    · simp only [if_neg signal, if_neg response]
      obtain ⟨kinds, same⟩ := nodes.oms.step_sent input
      obtain ⟨sends, link, outcome, delivers, serves⟩ := send_matched refines.omsToGateway
        kernel (nodes.oms.gatewaySeq + 1) input _ fits
        (kinds.imp id fun ⟨order, one⟩ => ⟨_, one, of_decide_eq_true rfl⟩)
      refine ⟨true, sends, ?_⟩
      rw [outcome, delivers]
      dsimp only
      rw [same sends]
      exact { refines with
        oms := rfl
        strategyToOms := refines.strategyToOms.mono (nodes.oms.step_running { input with sends })
        omsToGateway := serves
        gatewayToOms := refines.gatewayToOms.mono (nodes.oms.step_running { input with sends }) }

theorem answered_sized (response : Envelope) (answers : response.answeredId ≠ none) :
    Wire.payloadSizeForType response.type.code ≠ 0 := by
  cases response with
  | ack ack => exact of_decide_eq_true rfl
  | reject reject => exact of_decide_eq_true rfl
  | _ => exact absurd rfl answers

theorem stepGateway_refines (refines : nodes.Refines channels) (connected : Bool)
    (kernel : Kernel) (input : NodeInput)
    (fits : ∀ envelope ∈ (nodes.gateway.step input).2, envelope.Fits) :
    ∃ found sends, (nodes.stepGateway connected kernel input).Refines
      (channels.stepGateway found { input with sends }) := by
  unfold stepGateway DistributedNodes.stepGateway
  rw [← refines.gateway]
  by_cases receiving : nodes.gateway.phase = .receiving
  · simp only [if_pos receiving]
    rcases WireLink.recv_serves refines.omsToGateway (by simp [receiving]) kernel connected with
      ⟨waits, idle⟩ | ⟨found, next, received, link, taken, same, serves⟩
    · refine ⟨true, input.sends, ?_⟩
      rw [waits, idle]
      exact refines
    · refine ⟨found, input.sends, ?_⟩
      rw [taken, same]
      exact { refines with
        gateway := rfl
        omsToGateway := serves _ fun lost => not_not.mpr
          (nodes.gateway.step_lost { input with received } receiving lost)
        answers := (nodes.gateway.step_answers _ refines.answers).1 }
  · simp only [if_neg receiving]
    obtain ⟨kinds, same⟩ := nodes.gateway.step_sent input
    obtain ⟨sends, link, outcome, delivers, serves⟩ := send_matched refines.gatewayToOms
      kernel nodes.gateway.responseSeq input _ fits
      (kinds.imp id fun ⟨response, pending, one⟩ =>
        ⟨_, one, answered_sized response (refines.answers response pending)⟩)
    refine ⟨true, sends, ?_⟩
    rw [outcome, delivers]
    dsimp only
    rw [same sends]
    exact { refines with
      gateway := rfl
      omsToGateway := refines.omsToGateway.mono
        (nodes.gateway.step_running { input with sends })
      gatewayToOms := serves
      answers := (nodes.gateway.step_answers _ refines.answers).1 }

end Steps

/-- The same step over channels: the surroundings are those of the action, but
for what the connections make of it. -/
def Matches (action : WireAction) (channelled : NodeAction) : Prop :=
  channelled.actor = action.actor ∧ ∃ sends, channelled.input = { action.input with sends }

theorem step_refines (nodes : WireNodes) (channels : DistributedNodes) (action : WireAction)
    (refines : nodes.Refines channels)
    (fits : ∀ envelope ∈ nodes.sent action, envelope.Fits) :
    ∃ channelled, Matches action channelled ∧
      (nodes.step action).Refines (channels.step channelled) := by
  obtain ⟨actor, connected, input, kernel⟩ := action
  unfold step DistributedNodes.step
  cases actor with
  | marketData =>
      obtain ⟨sends, next⟩ := stepMarketData_refines refines kernel input fits
      exact ⟨⟨.marketData, connected, _⟩, ⟨rfl, sends, rfl⟩, next⟩
  | strategy =>
      obtain ⟨found, sends, next⟩ := stepStrategy_refines refines connected kernel input fits
      exact ⟨⟨.strategy, found, _⟩, ⟨rfl, sends, rfl⟩, next⟩
  | oms =>
      obtain ⟨found, sends, next⟩ := stepOms_refines refines connected kernel input fits
      exact ⟨⟨.oms, found, _⟩, ⟨rfl, sends, rfl⟩, next⟩
  | gateway =>
      obtain ⟨found, sends, next⟩ := stepGateway_refines refines connected kernel input fits
      exact ⟨⟨.gateway, found, _⟩, ⟨rfl, sends, rfl⟩, next⟩

theorem run_refines (nodes : WireNodes) (channels : DistributedNodes) (actions : List WireAction)
    (refines : nodes.Refines channels) (fits : nodes.FitsAlong actions) :
    ∃ channelled, List.Forall₂ Matches actions channelled ∧
      (actions.foldl step nodes).Refines (channelled.foldl DistributedNodes.step channels) := by
  induction actions generalizing nodes channels with
  | nil => exact ⟨[], .nil, refines⟩
  | cons action actions ih =>
      obtain ⟨first, same, next⟩ := step_refines nodes channels action refines fits.1
      obtain ⟨rest, aligned, final⟩ := ih _ _ next fits.2
      exact ⟨first :: rest, .cons same aligned, final⟩

/-- Whatever the system makes of the sends and receives of the nodes, however
they interleave and wherever they fail, also in the middle of a frame, the nodes
over the bytes of their connections are at every moment in the states of nodes
over channels of whole messages, and every connection that is still read carries
the frames of the messages in its channel. -/
theorem reached_channelled (journal : JournalLog) (io : JournalIo) (mode : GatewayMode)
    (actions : List WireAction) (fits : (start journal io mode).FitsAlong actions) :
    ∃ channelled, List.Forall₂ Matches actions channelled ∧
      (reached journal io mode actions).Refines
        (DistributedNodes.reached journal io mode channelled) :=
  run_refines _ _ actions (start_refines journal io mode) fits

/-- One byte for every call, until a receive fails behind the header of the second
frame. -/
def failingReceive : Kernel :=
  { TcpTransport.trickle with
    recv := fun call length available => if call = 160 then -1 else min 1 (min length available) }

/-- Two updates of the venue reach the connection, one byte at a time and behind a
receive that waits. The strategy receives one and then loses its connection in
the middle of the other. -/
def trickledUpdates : List WireAction :=
  let update (bidPx : Price) : WireAction :=
    { actor := .marketData, kernel := TcpTransport.trickle,
      input := { received := some (.marketData { bidPx, askPx := 101 }) } }
  let next : WireAction := { actor := .marketData, kernel := TcpTransport.trickle }
  [{ actor := .strategy, kernel := TcpTransport.trickle },
    update 100, next, next, update 99, next, next,
    { actor := .strategy, kernel := TcpTransport.trickle },
    { actor := .strategy, kernel := failingReceive }]

theorem reached_channelled_trickledUpdates :
    (reached {} {} .sim trickledUpdates).strategy.metrics.counter .marketDataReceived = 1 ∧
      (reached {} {} .sim trickledUpdates).strategy.phase = .stopped ∧
      ∃ channelled, List.Forall₂ Matches trickledUpdates channelled ∧
        (reached {} {} .sim trickledUpdates).Refines
          (DistributedNodes.reached {} {} .sim channelled) :=
  ⟨by decide +kernel, by decide +kernel,
    reached_channelled {} {} .sim trickledUpdates (by decide +kernel)⟩

end WireNodes
end TradingPlatform
