import TradingPlatform.DistributedNodes
import TradingPlatform.OrderExchange

set_option autoImplicit false

/- The appends to the replay files, in the order in which a run makes them. -/
namespace TradingPlatform

open Transducer

/-! ### What a step appends -/

/-- An envelope and its sequence, if the next step appends one. -/
abbrev Due := Option (Envelope × Sequence)

def ReplayLog.appendDue (log : ReplayLog) (io : ReplayIo) : Due → ReplayLog
  | none => log
  | some (envelope, sequence) => (log.append io envelope sequence).1

theorem ReplayLog.append_events (log : ReplayLog) (io : ReplayIo) (envelope : Envelope)
    (sequence : Sequence) :
    (log.append io envelope sequence).1.events =
      log.events ++
        if (log.append io envelope sequence).2 then [log.eventFor envelope sequence io.now]
        else [] := by
  unfold append
  cases log.opened <;> cases io.writes <;> simp

@[simp] theorem ReplayLog.appendDue_nodeRole (log : ReplayLog) (io : ReplayIo) (due : Due) :
    (log.appendDue io due).nodeRole = log.nodeRole := by
  cases due with
  | none => rfl
  | some pair =>
      unfold appendDue append
      cases log.opened <;> cases io.writes <;> rfl

@[simp] theorem ReplayLog.appendDue_opened (log : ReplayLog) (io : ReplayIo) (due : Due) :
    (log.appendDue io due).opened = log.opened := by
  cases due with
  | none => rfl
  | some pair => exact log.record_opened {} io pair.1 pair.2

theorem ReplayLog.appendDue_intact (log : ReplayLog) (io : ReplayIo) (due : Due)
    (intact : log.Intact) (writes : io.writes = true) : (log.appendDue io due).Intact := by
  cases due with
  | none => exact intact
  | some pair => exact log.append_intact io pair.1 pair.2 intact writes

def MarketDataNode.due (node : MarketDataNode) : Due :=
  match node.phase with
  | .recording update => some (.marketData update, node.outboundSeq + 1)
  | _ => none

def StrategyNode.due (node : StrategyNode) : Due :=
  match node.phase with
  | .recording signal => some (.signal signal, node.signalSeq + 1)
  | _ => none

def OmsNode.due (node : OmsNode) : Due :=
  match node.phase with
  | .recording order => some (.newOrder order, node.replaySeq + 1)
  | .recordingResponse response => some (response, node.replaySeq + 1)
  | _ => none

def GatewayNode.due (node : GatewayNode) : Due :=
  match node.phase with
  | .recording response => some (response, node.responseSeq)
  | _ => none

section Due

variable {envelope : Envelope} {sequence : Sequence}

theorem MarketDataNode.due_cases (node : MarketDataNode)
    (due : node.due = some (envelope, sequence)) :
    ∃ update, node.phase = .recording update ∧ envelope = .marketData update := by
  cases phase : node.phase with
  | recording update =>
      rw [MarketDataNode.due, phase] at due
      cases due
      exact ⟨update, rfl, rfl⟩
  | _ => simp [MarketDataNode.due, phase] at due

theorem StrategyNode.due_cases (node : StrategyNode)
    (due : node.due = some (envelope, sequence)) :
    ∃ signal, node.phase = .recording signal ∧ envelope = .signal signal := by
  cases phase : node.phase with
  | recording signal =>
      rw [StrategyNode.due, phase] at due
      cases due
      exact ⟨signal, rfl, rfl⟩
  | _ => simp [StrategyNode.due, phase] at due

theorem OmsNode.due_cases (node : OmsNode) (due : node.due = some (envelope, sequence)) :
    (∃ order, node.phase = .recording order ∧ envelope = .newOrder order) ∨
      node.phase = .recordingResponse envelope := by
  cases phase : node.phase with
  | recording order =>
      rw [OmsNode.due, phase] at due
      cases due
      exact Or.inl ⟨order, rfl, rfl⟩
  | recordingResponse response =>
      rw [OmsNode.due, phase] at due
      cases due
      exact Or.inr rfl
  | _ => simp [OmsNode.due, phase] at due

theorem GatewayNode.due_cases (node : GatewayNode) (due : node.due = some (envelope, sequence)) :
    node.phase = .recording envelope := by
  cases phase : node.phase with
  | recording response =>
      rw [GatewayNode.due, phase] at due
      cases due
      rfl
  | _ => simp [GatewayNode.due, phase] at due

end Due

theorem MarketDataNode.step_log (node : MarketDataNode) (input : NodeInput) :
    (node.step input).1.replayWriter = node.replayWriter.appendDue input.replay node.due := by
  unfold step due
  cases node.phase with
  | idle =>
      cases input.received with
      | none => rfl
      | some envelope => cases envelope <;> rfl
  | recording update => rfl
  | sending update => rfl

theorem StrategyNode.step_log (node : StrategyNode) (input : NodeInput) :
    (node.step input).1.replayWriter = node.replayWriter.appendDue input.replay node.due := by
  unfold step due
  cases node.phase with
  | receiving =>
      cases input.received with
      | none => rfl
      | some envelope =>
          cases envelope with
          | marketData md =>
              cases result : node.strategy.onMarketData md input.now with
              | mk strategy maybeSignal =>
                  cases maybeSignal <;> simp [result, ReplayLog.appendDue]
          | _ => rfl
  | recording signal => rfl
  | sending signal => cases input.sends <;> rfl
  | stopped => rfl

theorem OmsNode.step_log (node : OmsNode) (input : NodeInput) :
    (node.step input).1.replayWriter = node.replayWriter.appendDue input.replay node.due := by
  cases phase : node.phase with
  | awaitingSignal =>
      rw [due, phase]
      exact (node.awaiting_files input phase).2
  | sending order =>
      cases sends : input.sends <;> simp [step, due, phase, sends, ReplayLog.appendDue]
  | awaitingResponse =>
      cases received : input.received <;> simp [step, due, phase, received, ReplayLog.appendDue]
  | processing response => simp [step, due, phase, ReplayLog.appendDue]
  | _ => simp [step, due, phase, ReplayLog.appendDue, ReplayLog.record]

theorem GatewayNode.step_log (node : GatewayNode) (input : NodeInput) :
    (node.step input).1.replayWriter = node.replayWriter.appendDue input.replay node.due := by
  unfold step due
  cases node.phase with
  | receiving =>
      cases input.received with
      | none => rfl
      | some envelope => cases envelope <;> simp [ReplayLog.appendDue]
  | recording response => rfl
  | sending response => cases input.sends <;> rfl
  | stopped => rfl

/-! ### The nodes together -/

/-- The role that a node's writer puts into its events. -/
def Actor.role : Actor → NodeRole
  | .marketData => .marketData
  | .strategy => .strategy
  | .oms => .oms
  | .gateway => .gateway

/-- One append to a replay file, whether or not it works. -/
structure ReplayAttempt where
  actor : Actor
  /-- The reading of the clock for it. -/
  now : TimestampNs
  event : ReplayEvent
  written : Bool
  deriving DecidableEq, Repr

namespace DistributedNodes

def log (nodes : DistributedNodes) : Actor → ReplayLog
  | .marketData => nodes.marketData.replayWriter
  | .strategy => nodes.strategy.replayWriter
  | .oms => nodes.oms.replayWriter
  | .gateway => nodes.gateway.replayWriter

def due (nodes : DistributedNodes) : Actor → Due
  | .marketData => nodes.marketData.due
  | .strategy => nodes.strategy.due
  | .oms => nodes.oms.due
  | .gateway => nodes.gateway.due

/-- The append that a step makes. -/
def attempt (nodes : DistributedNodes) (action : NodeAction) : Option ReplayAttempt :=
  let log := nodes.log action.actor
  let io := action.input.replay
  (nodes.due action.actor).map fun (envelope, sequence) =>
    { actor := action.actor
      now := io.now
      event := log.eventFor envelope sequence io.now
      written := (log.append io envelope sequence).2 }

def recordingStep (nodes : DistributedNodes) (action : NodeAction) :
    DistributedNodes × List ReplayAttempt :=
  (nodes.step action, (nodes.attempt action).toList)

/-- The appends of a run, in its order. -/
def history (nodes : DistributedNodes) (actions : List NodeAction) : List ReplayAttempt :=
  emitted recordingStep nodes actions

section Step

variable (nodes : DistributedNodes) (action : NodeAction)

/-- A step appends what is due to the file of its node and leaves the others
alone. -/
theorem step_log (actor : Actor) :
    (nodes.step action).log actor =
      if actor = action.actor then
        (nodes.log actor).appendDue action.input.replay (nodes.due actor)
      else nodes.log actor := by
  obtain ⟨mover, connected, input⟩ := action
  cases mover with
  | marketData =>
      cases actor with
      | marketData => exact nodes.marketData.step_log _
      | _ => rfl
  | strategy =>
      simp only [step, stepStrategy]
      by_cases receiving : nodes.strategy.phase = .receiving
      · have idle : nodes.strategy.due = none := by rw [StrategyNode.due, receiving]
        rw [if_pos receiving]
        cases nodes.marketDataToStrategy.recv connected with
        | none => cases actor <;> simp [log, due, idle, ReplayLog.appendDue]
        | some result =>
            cases actor with
            | strategy => exact nodes.strategy.step_log _
            | _ => rfl
      · rw [if_neg receiving]
        cases actor with
        | strategy => exact nodes.strategy.step_log _
        | _ => rfl
  | oms =>
      simp only [step, stepOms]
      by_cases awaiting : nodes.oms.phase = .awaitingSignal
      · have idle : nodes.oms.due = none := by rw [OmsNode.due, awaiting]
        rw [if_pos awaiting]
        cases nodes.strategyToOms.recv connected with
        | none => cases actor <;> simp [log, due, idle, ReplayLog.appendDue]
        | some result =>
            cases actor with
            | oms => exact nodes.oms.step_log _
            | _ => rfl
      · rw [if_neg awaiting]
        by_cases response : nodes.oms.phase = .awaitingResponse
        · have idle : nodes.oms.due = none := by rw [OmsNode.due, response]
          rw [if_pos response]
          cases nodes.gatewayToOms.recv connected with
          | none => cases actor <;> simp [log, due, idle, ReplayLog.appendDue]
          | some result =>
              cases actor with
              | oms => exact nodes.oms.step_log _
              | _ => rfl
        · rw [if_neg response]
          cases actor with
          | oms => exact nodes.oms.step_log _
          | _ => rfl
  | gateway =>
      simp only [step, stepGateway]
      by_cases receiving : nodes.gateway.phase = .receiving
      · have idle : nodes.gateway.due = none := by rw [GatewayNode.due, receiving]
        rw [if_pos receiving]
        cases nodes.omsToGateway.recv connected with
        | none => cases actor <;> simp [log, due, idle, ReplayLog.appendDue]
        | some result =>
            cases actor with
            | gateway => exact nodes.gateway.step_log _
            | _ => rfl
      · rw [if_neg receiving]
        cases actor with
        | gateway => exact nodes.gateway.step_log _
        | _ => rfl

/-- The complete events that a history leaves in the file of a node. -/
def writtenBy (actor : Actor) (history : List ReplayAttempt) : List ReplayEvent :=
  (history.filter fun attempt => attempt.written ∧ attempt.actor = actor).map ReplayAttempt.event

theorem step_events (actor : Actor) :
    ((nodes.step action).log actor).events =
      (nodes.log actor).events ++ writtenBy actor (nodes.attempt action).toList := by
  rw [nodes.step_log action actor]
  by_cases own : actor = action.actor
  · subst own
    rw [if_pos rfl]
    cases due : nodes.due action.actor with
    | none => simp [attempt, due, writtenBy, ReplayLog.appendDue]
    | some pair =>
        have written :=
          (nodes.log action.actor).append_events action.input.replay pair.1 pair.2
        cases done : ((nodes.log action.actor).append action.input.replay pair.1 pair.2).2 <;>
          simpa [attempt, due, writtenBy, ReplayLog.appendDue, done] using written
  · rw [if_neg own]
    cases due : nodes.due action.actor with
    | none => simp [attempt, due, writtenBy]
    | some pair => simp [attempt, due, writtenBy, Ne.symm own]

/-- The writers keep their roles, and stay open. -/
theorem step_writer (actor : Actor) :
    ((nodes.step action).log actor).nodeRole = (nodes.log actor).nodeRole ∧
      ((nodes.step action).log actor).opened = (nodes.log actor).opened := by
  rw [nodes.step_log action actor]
  split <;> simp

theorem step_intact (actor : Actor) (intact : (nodes.log actor).Intact)
    (writes : action.input.replay.writes = true) : ((nodes.step action).log actor).Intact := by
  rw [nodes.step_log action actor]
  split
  · exact (nodes.log actor).appendDue_intact _ _ intact writes
  · exact intact

end Step

/-! ### A run -/

section Run

variable (actions : List NodeAction)

/-- A replay file holds the appends of its node that have worked, in the order in
which they were made. -/
theorem run_events (nodes : DistributedNodes) (actor : Actor) :
    ((actions.foldl step nodes).log actor).events =
      (nodes.log actor).events ++ writtenBy actor (nodes.history actions) := by
  induction actions generalizing nodes with
  | nil => simp [history, writtenBy]
  | cons action actions ih =>
      have first := nodes.step_events action actor
      rw [List.foldl_cons, ih, first, List.append_assoc]
      simp [history, writtenBy, recordingStep]

theorem run_writer (nodes : DistributedNodes) (actor : Actor) :
    ((actions.foldl step nodes).log actor).nodeRole = (nodes.log actor).nodeRole ∧
      ((actions.foldl step nodes).log actor).opened = (nodes.log actor).opened := by
  induction actions generalizing nodes with
  | nil => exact ⟨rfl, rfl⟩
  | cons action actions ih =>
      obtain ⟨role, opened⟩ := nodes.step_writer action actor
      obtain ⟨roles, still⟩ := ih (nodes.step action)
      exact ⟨roles.trans role, still.trans opened⟩

theorem run_intact (nodes : DistributedNodes) (actor : Actor)
    (intact : (nodes.log actor).Intact)
    (writes : ∀ action ∈ actions, action.input.replay.writes = true) :
    ((actions.foldl step nodes).log actor).Intact := by
  induction actions generalizing nodes with
  | nil => exact intact
  | cons action actions ih =>
      obtain ⟨now, later⟩ := List.forall_mem_cons.mp writes
      exact ih _ (nodes.step_intact action actor intact now) later

variable (journal : JournalLog) (io : JournalIo) (mode : GatewayMode)

/-- As long as all writes succeed, the replay files hold the events and nothing else. -/
theorem reached_intact (actor : Actor)
    (writes : ∀ action ∈ actions, action.input.replay.writes = true) :
    ((reached journal io mode actions).log actor).Intact := by
  apply run_intact actions _ actor _ writes
  cases actor <;> rfl

theorem reached_events (actor : Actor) :
    ((reached journal io mode actions).log actor).events =
      writtenBy actor ((start journal io mode).history actions) := by
  have events := run_events actions (start journal io mode) actor
  have fresh : ((start journal io mode).log actor).events = [] := by cases actor <;> rfl
  rw [fresh, List.nil_append] at events
  exact events

theorem reached_writer (actor : Actor) :
    ((reached journal io mode actions).log actor).nodeRole = actor.role ∧
      ((reached journal io mode actions).log actor).opened = true := by
  obtain ⟨role, opened⟩ := run_writer actions (start journal io mode) actor
  have fresh : ((start journal io mode).log actor).nodeRole = actor.role ∧
      ((start journal io mode).log actor).opened = true := by
    cases actor <;> exact ⟨rfl, rfl⟩
  exact ⟨role.trans fresh.1, opened.trans fresh.2⟩

/-- An attempt of a run is the step that some moment of the run takes. -/
theorem history_cause (past : List ReplayAttempt) (attempt : ReplayAttempt)
    (within : past ++ [attempt] <+: (start journal io mode).history actions) :
    ∃ earlier action, earlier ++ [action] <+: actions ∧
      (start journal io mode).history earlier = past ∧
      (reached journal io mode earlier).attempt action = some attempt := by
  have single : ∀ nodes action, (recordingStep nodes action).2.length ≤ 1 := by
    intro nodes action
    cases made : nodes.attempt action <;> simp [recordingStep, made]
  obtain ⟨earlier, action, taken, same, last⟩ :=
    cause recordingStep single (start journal io mode) actions past attempt within
  refine ⟨earlier, action, taken, same, ?_⟩
  exact Option.toList_eq_singleton_iff.mp last

/-- What every attempt of a run is. -/
theorem history_attempt (attempt : ReplayAttempt)
    (member : attempt ∈ (start journal io mode).history actions) :
    attempt.event.header.nodeRole = attempt.actor.role.code ∧
      attempt.event.header.timestampNs = UInt64.ofNat attempt.now ∧ attempt.event.Sound ∧
      ((∀ action ∈ actions, action.input.replay.writes = true) → attempt.written = true) := by
  obtain ⟨past, future, split⟩ := List.append_of_mem member
  obtain ⟨earlier, action, taken, -, made⟩ :=
    history_cause actions journal io mode past attempt ⟨future, by simp [split]⟩
  obtain ⟨role, opened⟩ := reached_writer earlier journal io mode action.actor
  obtain ⟨⟨envelope, sequence⟩, due, rfl⟩ := Option.map_eq_some_iff.mp made
  refine ⟨congrArg NodeRole.code role, rfl, ReplayLog.eventFor_sound _ _ _ _, ?_⟩
  intro writes
  have works := writes action (taken.subset (by simp))
  dsimp only
  rw [ReplayLog.append_writes _ _ _ _ opened works]

end Run
end DistributedNodes
end TradingPlatform
