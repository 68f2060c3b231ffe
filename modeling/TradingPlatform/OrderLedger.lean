import TradingPlatform.Library.History
import TradingPlatform.Oms

set_option autoImplicit false

/- Whole runs of one order manager. The ledger keeps, next to the manager, the
orders it has emitted and the gateway has not rejected since. -/
namespace TradingPlatform

inductive OmsOperation where
  | signal (signal : Signal) (now rejectNow : TimestampNs)
  | gatewayAck (ack : Ack)
  | gatewayReject (reject : Reject)
  deriving DecidableEq, Repr

/-- An operation that only the gateway can cause. -/
def OmsOperation.IsAnswer : OmsOperation → Prop
  | .signal .. => False
  | .gatewayAck _ => True
  | .gatewayReject _ => True

structure OrderLedger where
  manager : OrderManager
  outstanding : List NewOrder

namespace OrderLedger

def step (ledger : OrderLedger) : OmsOperation → OrderLedger
  | .signal signal now rejectNow =>
      let result := ledger.manager.onSignal signal now rejectNow
      match result.2 with
      | some (.newOrder order) =>
          { manager := result.1, outstanding := ledger.outstanding ++ [order] }
      | _ => { ledger with manager := result.1 }
  | .gatewayAck ack => { ledger with manager := (ledger.manager.onGatewayAck ack).1 }
  | .gatewayReject reject => {
      manager := (ledger.manager.onGatewayReject reject).1
      outstanding := ledger.outstanding.filter
        (fun order => order.clientOrderId ≠ reject.clientOrderId) }

def run (nodeId : NodeId) (limits : RiskLimits) (operations : List OmsOperation) : OrderLedger :=
  operations.foldl step { manager := .new nodeId limits, outstanding := [] }

theorem run_append (nodeId : NodeId) (limits : RiskLimits) (first second : List OmsOperation) :
    run nodeId limits (first ++ second) = second.foldl step (run nodeId limits first) :=
  List.foldl_append

theorem run_concat (nodeId : NodeId) (limits : RiskLimits) (operations : List OmsOperation)
    (last : OmsOperation) :
    run nodeId limits (operations ++ [last]) = (run nodeId limits operations).step last := by
  rw [run_append]
  rfl

theorem step_accept (ledger : OrderLedger) (signal : Signal) (now rejectNow : TimestampNs)
    (accepted : ledger.manager.Accepts signal) :
    ledger.step (.signal signal now rejectNow) = {
      manager := (ledger.manager.onSignal signal now rejectNow).1
      outstanding := ledger.outstanding ++ [ledger.manager.orderFor signal now] } := by
  simp only [step, OrderManager.onSignal_accept _ _ _ _ accepted]

theorem step_refuse (ledger : OrderLedger) (signal : Signal) (now rejectNow : TimestampNs)
    (refused : ¬ ledger.manager.Accepts signal) :
    ledger.step (.signal signal now rejectNow) =
      { ledger with manager := (ledger.manager.onSignal signal now rejectNow).1 } := by
  simp only [step, OrderManager.onSignal_refuse _ _ _ _ refused]

/-- What every run keeps: the risk engine of the start, outstanding orders with
distinct identifiers that were all issued already, and positive quantities. -/
structure Valid (limits : RiskLimits) (ledger : OrderLedger) : Prop where
  risk : ledger.manager.risk = { limits }
  issued : ∀ order ∈ ledger.outstanding,
    order.clientOrderId < ledger.manager.nextClientOrderId
  distinct : (ledger.outstanding.map NewOrder.clientOrderId).Nodup
  positive : ∀ order ∈ ledger.outstanding, 0 < order.qty.toInt

theorem valid_step (limits : RiskLimits) (ledger : OrderLedger) (operation : OmsOperation)
    (valid : ledger.Valid limits) : (ledger.step operation).Valid limits := by
  cases operation with
  | signal signal now rejectNow =>
      by_cases accepted : ledger.manager.Accepts signal
      · rw [step_accept ledger signal now rejectNow accepted]
        constructor
        · simpa using valid.risk
        · rw [List.forall_mem_append, List.forall_mem_singleton,
            OrderManager.onSignal_nextClientOrderId]
          constructor
          · exact fun order member => Nat.lt_succ_of_lt (valid.issued order member)
          · exact Nat.lt_succ_self _
        · rw [List.map_append]
          apply History.pairwise_concat valid.distinct
          rw [List.forall_mem_map]
          exact fun order member => Nat.ne_of_lt (valid.issued order member)
        · rw [List.forall_mem_append, List.forall_mem_singleton]
          exact ⟨valid.positive, RiskEngine.Admits.qty_pos accepted⟩
      · rw [step_refuse ledger signal now rejectNow accepted]
        refine ⟨by simpa using valid.risk, fun order member => ?_, valid.distinct, valid.positive⟩
        rw [OrderManager.onSignal_nextClientOrderId]
        exact Nat.lt_succ_of_lt (valid.issued order member)
  | gatewayAck ack => exact valid
  | gatewayReject reject =>
      refine ⟨valid.risk, fun order member => valid.issued order (List.mem_of_mem_filter member),
        ?_, fun order member => valid.positive order (List.mem_of_mem_filter member)⟩
      exact valid.distinct.sublist ((List.filter_sublist).map _)

theorem valid_run (nodeId : NodeId) (limits : RiskLimits) (operations : List OmsOperation) :
    (run nodeId limits operations).Valid limits := by
  induction operations using List.reverseRecOn with
  | nil => exact ⟨rfl, by simp [run], by simp [run], by simp [run]⟩
  | append_singleton operations last ih =>
      rw [run_concat]
      exact valid_step limits _ last ih

/-- Acceptance never depends on the history: the position stays at zero. -/
theorem accepts_iff (nodeId : NodeId) (limits : RiskLimits) (operations : List OmsOperation)
    (signal : Signal) :
    (run nodeId limits operations).manager.Accepts signal ↔
      RiskEngine.Admits { limits } signal.side signal.limitPx signal.qty := by
  unfold OrderManager.Accepts
  rw [(valid_run nodeId limits operations).risk]

end OrderLedger
end TradingPlatform
