import TradingPlatform.Library.Transducer
import TradingPlatform.Risk

set_option autoImplicit false

namespace TradingPlatform

structure OrderManager where
  nodeId : NodeId
  risk : RiskEngine
  nextClientOrderId : ClientOrderId := 1
  sequence : Sequence := 0
  liveOrders : Finset ClientOrderId := ∅
  deriving DecidableEq

namespace OrderManager

def new (nodeId : NodeId) (limits : RiskLimits) : OrderManager :=
  { nodeId, risk := { limits } }

/-- The order a signal turns into, before the risk check. -/
def orderFor (manager : OrderManager) (signal : Signal) (now : TimestampNs) : NewOrder where
  header := {
    type := .newOrder
    sourceNode := manager.nodeId
    destinationNode := 4
    sequence := manager.sequence + 1
    sendTsNs := now }
  clientOrderId := manager.nextClientOrderId
  symbolId := signal.symbolId
  side := signal.side
  limitPx := signal.limitPx
  qty := signal.qty

/-- The reject of a signal that the risk check refused. -/
def rejectFor (manager : OrderManager) (signal : Signal) (reason : RejectReason)
    (now : TimestampNs) : Reject where
  header := {
    type := .reject
    sourceNode := manager.nodeId
    destinationNode := signal.header.sourceNode
    sequence := manager.sequence + 2
    sendTsNs := now }
  clientOrderId := manager.nextClientOrderId
  reason := reason

/-- `now` is read for the order, `rejectNow` only when it is refused. A refused
order has used up its client order id and one sequence number. -/
def onSignal (manager : OrderManager) (signal : Signal) (now rejectNow : TimestampNs) :
    OrderManager × Option Envelope :=
  let order := manager.orderFor signal now
  let rejectReason := manager.risk.check order
  if rejectReason ≠ .none then
    ({ manager with
        nextClientOrderId := manager.nextClientOrderId + 1
        sequence := manager.sequence + 2 },
      some (.reject (manager.rejectFor signal rejectReason rejectNow)))
  else
    ({ manager with
        nextClientOrderId := manager.nextClientOrderId + 1
        sequence := manager.sequence + 1
        liveOrders := insert order.clientOrderId manager.liveOrders },
      some (.newOrder order))

def onGatewayAck (manager : OrderManager) (ack : Ack) : OrderManager × Option Envelope :=
  (manager, some (.ack ack))

def onGatewayReject (manager : OrderManager) (reject : Reject) : OrderManager × Option Envelope :=
  ({ manager with liveOrders := manager.liveOrders.erase reject.clientOrderId },
    some (.reject reject))

/-- The risk check lets the signal through. -/
def Accepts (manager : OrderManager) (signal : Signal) : Prop :=
  manager.risk.Admits signal.side signal.limitPx signal.qty

instance (manager : OrderManager) (signal : Signal) : Decidable (manager.Accepts signal) :=
  inferInstanceAs (Decidable (RiskEngine.Admits _ _ _ _))

theorem onSignal_accept (manager : OrderManager) (signal : Signal) (now rejectNow : TimestampNs)
    (accepted : manager.Accepts signal) :
    manager.onSignal signal now rejectNow =
      ({ manager with
          nextClientOrderId := manager.nextClientOrderId + 1
          sequence := manager.sequence + 1
          liveOrders := insert manager.nextClientOrderId manager.liveOrders },
        some (.newOrder (manager.orderFor signal now))) := by
  have passed : manager.risk.check (manager.orderFor signal now) = .none := accepted
  simp only [onSignal, passed, ne_eq, not_true_eq_false, ↓reduceIte]
  rfl

theorem onSignal_refuse (manager : OrderManager) (signal : Signal) (now rejectNow : TimestampNs)
    (refused : ¬ manager.Accepts signal) :
    manager.onSignal signal now rejectNow =
      ({ manager with
          nextClientOrderId := manager.nextClientOrderId + 1
          sequence := manager.sequence + 2 },
        some (.reject (manager.rejectFor signal
          (manager.risk.check (manager.orderFor signal now)) rejectNow))) := by
  have failed : manager.risk.check (manager.orderFor signal now) ≠ .none := refused
  simp only [onSignal, failed, ne_eq, not_false_eq_true, ↓reduceIte]

section Frame

variable (manager : OrderManager) (signal : Signal) (now rejectNow : TimestampNs)

@[simp] theorem onSignal_nodeId : (manager.onSignal signal now rejectNow).1.nodeId =
    manager.nodeId := by
  unfold onSignal
  dsimp only
  split <;> rfl

/-- No signal moves the position the risk engine checks against. -/
@[simp] theorem onSignal_risk : (manager.onSignal signal now rejectNow).1.risk =
    manager.risk := by
  unfold onSignal
  dsimp only
  split <;> rfl

/-- Accepted or not, a signal takes the next client order id. -/
@[simp] theorem onSignal_nextClientOrderId :
    (manager.onSignal signal now rejectNow).1.nextClientOrderId =
      manager.nextClientOrderId + 1 := by
  unfold onSignal
  dsimp only
  split <;> rfl

end Frame

/-! ### Signals as inputs of a stage, answers on the side -/

/-- The order of an accepted signal, as the output of a stage. -/
def stage (manager : OrderManager) (input : Signal × TimestampNs × TimestampNs) :
    OrderManager × List NewOrder :=
  let result := manager.onSignal input.1 input.2.1 input.2.2
  match result.2 with
  | some (.newOrder order) => (result.1, [order])
  | _ => (result.1, [])

def untimedStage (manager : OrderManager) (signal : Signal) : OrderManager × List NewOrder :=
  manager.stage (signal, 0, 0)

theorem stage_accept (manager : OrderManager) (signal : Signal) (now rejectNow : TimestampNs)
    (accepted : manager.Accepts signal) :
    manager.stage (signal, now, rejectNow) =
      ({ manager with
          nextClientOrderId := manager.nextClientOrderId + 1
          sequence := manager.sequence + 1
          liveOrders := insert manager.nextClientOrderId manager.liveOrders },
        [manager.orderFor signal now]) := by
  simp only [stage, onSignal_accept manager signal now rejectNow accepted]

theorem stage_refuse (manager : OrderManager) (signal : Signal) (now rejectNow : TimestampNs)
    (refused : ¬ manager.Accepts signal) :
    manager.stage (signal, now, rejectNow) =
      ({ manager with
          nextClientOrderId := manager.nextClientOrderId + 1
          sequence := manager.sequence + 2 }, []) := by
  simp only [stage, onSignal_refuse manager signal now rejectNow refused]

/-- Neither the clock nor the timestamps of the signal decide anything. -/
theorem stage_untimed (manager : OrderManager) (signal : Signal) (now rejectNow : TimestampNs) :
    (manager.stage (signal, now, rejectNow)).1 = (manager.untimedStage signal.untimed).1 ∧
      (manager.stage (signal, now, rejectNow)).2.map NewOrder.untimed =
        (manager.untimedStage signal.untimed).2 := by
  unfold untimedStage
  by_cases accepted : manager.Accepts signal
  · have same : manager.Accepts signal.untimed := accepted
    rw [stage_accept _ _ _ _ accepted, stage_accept _ _ _ _ same]
    exact ⟨rfl, rfl⟩
  · have same : ¬ manager.Accepts signal.untimed := accepted
    rw [stage_refuse _ _ _ _ accepted, stage_refuse _ _ _ _ same]
    exact ⟨rfl, rfl⟩

@[simp] theorem stage_nextClientOrderId (manager : OrderManager)
    (input : Signal × TimestampNs × TimestampNs) :
    (manager.stage input).1.nextClientOrderId = manager.nextClientOrderId + 1 := by
  obtain ⟨signal, now, rejectNow⟩ := input
  by_cases accepted : manager.Accepts signal
  · rw [stage_accept _ _ _ _ accepted]
  · rw [stage_refuse _ _ _ _ accepted]

/-- An order carries the identifier that was next. -/
theorem stage_order_id (manager : OrderManager) (input : Signal × TimestampNs × TimestampNs) :
    ∀ order ∈ (manager.stage input).2, order.clientOrderId = manager.nextClientOrderId := by
  obtain ⟨signal, now, rejectNow⟩ := input
  intro order member
  by_cases accepted : manager.Accepts signal
  · rw [stage_accept _ _ _ _ accepted] at member
    rw [List.mem_singleton.mp member]
    rfl
  · rw [stage_refuse _ _ _ _ accepted] at member
    exact absurd member List.not_mem_nil

/-- The numbers of the orders that a history of signals leads to increase. -/
theorem emitted_ids (manager : OrderManager) (signals : List Signal) :
    let ids := (Transducer.emitted untimedStage manager signals).map NewOrder.clientOrderId
    (∀ id ∈ ids, manager.nextClientOrderId ≤ id) ∧ ids.Pairwise (· < ·) := by
  induction signals generalizing manager with
  | nil => exact ⟨fun _ member => absurd member List.not_mem_nil, .nil⟩
  | cons signal signals ih =>
      obtain ⟨later, ordered⟩ := ih (manager.untimedStage signal).1
      have next : (manager.untimedStage signal).1.nextClientOrderId =
          manager.nextClientOrderId + 1 := manager.stage_nextClientOrderId (signal, 0, 0)
      rw [next] at later
      dsimp only
      rw [Transducer.emitted_cons]
      by_cases accepted : manager.Accepts signal
      · have own : (manager.untimedStage signal).2.map NewOrder.clientOrderId =
            [manager.nextClientOrderId] := by
          rw [untimedStage, stage_accept _ _ _ _ accepted]
          rfl
        rw [List.map_append, own, List.singleton_append]
        refine ⟨?_, List.pairwise_cons.mpr ⟨fun id member => later id member, ordered⟩⟩
        intro id member
        rcases List.mem_cons.mp member with rfl | member
        · exact le_rfl
        · exact Nat.le_of_succ_le (later id member)
      · have none : (manager.untimedStage signal).2 = [] := by
          rw [untimedStage, stage_refuse _ _ _ _ accepted]
        rw [none, List.nil_append]
        refine ⟨?_, ordered⟩
        exact fun id member => Nat.le_of_succ_le (later id member)

/-- What the OMS does with a gateway response. -/
def settle (manager : OrderManager) : Envelope → OrderManager
  | .ack ack => (manager.onGatewayAck ack).1
  | .reject reject => (manager.onGatewayReject reject).1
  | _ => manager

@[simp] theorem settle_nextClientOrderId (manager : OrderManager) (answer : Envelope) :
    (manager.settle answer).nextClientOrderId = manager.nextClientOrderId := by
  cases answer <;> rfl

theorem settle_untimed (manager : OrderManager) (answer : Envelope) :
    manager.settle answer.untimed = manager.settle answer := by
  cases answer <;> rfl

/-- The response to an order already issued can be handled before or after the
next signal. -/
theorem stage_settle (manager : OrderManager) (answer : Envelope)
    (input : Signal × TimestampNs × TimestampNs)
    (issued : ∀ id ∈ answer.answeredId, id < manager.nextClientOrderId) :
    (manager.settle answer).stage input =
      ((manager.stage input).1.settle answer, (manager.stage input).2) := by
  obtain ⟨signal, now, rejectNow⟩ := input
  cases answer with
  | reject reject =>
      have older : reject.clientOrderId < manager.nextClientOrderId :=
        issued reject.clientOrderId rfl
      by_cases accepted : manager.Accepts signal
      · have same : (manager.settle (.reject reject)).Accepts signal := accepted
        rw [stage_accept _ _ _ _ accepted, stage_accept _ _ _ _ same]
        have apart : manager.nextClientOrderId ≠ reject.clientOrderId :=
            Nat.ne_of_gt older
        simp only [settle, onGatewayReject, Finset.erase_insert_of_ne apart, Prod.mk.injEq,
          true_and]
        rfl
      · have same : ¬ (manager.settle (.reject reject)).Accepts signal := accepted
        rw [stage_refuse _ _ _ _ accepted, stage_refuse _ _ _ _ same]
        rfl
  | _ => rfl

/-- The same for a whole stream of signals. -/
theorem after_settle (manager : OrderManager) (answer : Envelope) (signals : List Signal)
    (issued : ∀ id ∈ answer.answeredId, id < manager.nextClientOrderId) :
    Transducer.after untimedStage (manager.settle answer) signals =
        (Transducer.after untimedStage manager signals).settle answer ∧
      Transducer.emitted untimedStage (manager.settle answer) signals =
        Transducer.emitted untimedStage manager signals := by
  induction signals generalizing manager with
  | nil => exact ⟨rfl, rfl⟩
  | cons signal rest ih =>
      have swap : (manager.settle answer).untimedStage signal =
          ((manager.untimedStage signal).1.settle answer, (manager.untimedStage signal).2) :=
        stage_settle manager answer (signal, 0, 0) issued
      have later : ∀ id ∈ answer.answeredId,
          id < (manager.untimedStage signal).1.nextClientOrderId := by
        intro id member
        rw [untimedStage, stage_nextClientOrderId]
        exact Nat.lt_succ_of_lt (issued id member)
      obtain ⟨final, same⟩ := ih (manager.untimedStage signal).1 later
      rw [Transducer.after_cons, Transducer.after_cons, Transducer.emitted_cons,
        Transducer.emitted_cons, swap]
      exact ⟨final, congrArg ((manager.untimedStage signal).2 ++ ·) same⟩

/-! ### Decisions do not depend on the live orders -/

/-- The managers differ in their live orders at most. -/
def Agrees (first second : OrderManager) : Prop :=
  { first with liveOrders := ∅ } = { second with liveOrders := ∅ }

theorem Agrees.refl (manager : OrderManager) : manager.Agrees manager := rfl

theorem Agrees.trans {first second third : OrderManager} (left : first.Agrees second)
    (right : second.Agrees third) : first.Agrees third := Eq.trans left right

theorem settle_agrees (manager : OrderManager) (answer : Envelope) :
    (manager.settle answer).Agrees manager := by
  cases answer <;> rfl

theorem Agrees.stage {first second : OrderManager} (agrees : first.Agrees second)
    (input : Signal × TimestampNs × TimestampNs) :
    (first.stage input).1.Agrees (second.stage input).1 ∧
      (first.stage input).2 = (second.stage input).2 := by
  obtain ⟨signal, now, rejectNow⟩ := input
  obtain ⟨nodeId, risk, next, sequence, live⟩ := first
  obtain ⟨otherNodeId, otherRisk, otherNext, otherSequence, otherLive⟩ := second
  obtain ⟨rfl, rfl, rfl, rfl, -⟩ := OrderManager.mk.inj agrees
  by_cases accepted : (OrderManager.mk nodeId risk next sequence live).Accepts signal
  · have same : (OrderManager.mk nodeId risk next sequence otherLive).Accepts signal := accepted
    rw [stage_accept _ _ _ _ accepted, stage_accept _ _ _ _ same]
    exact ⟨rfl, rfl⟩
  · have same : ¬ (OrderManager.mk nodeId risk next sequence otherLive).Accepts signal := accepted
    rw [stage_refuse _ _ _ _ accepted, stage_refuse _ _ _ _ same]
    exact ⟨rfl, rfl⟩

end OrderManager
end TradingPlatform
