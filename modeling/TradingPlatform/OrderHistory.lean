import Mathlib.Algebra.Group.Nat.Defs
import TradingPlatform.Library.History
import TradingPlatform.OrderLedger

set_option autoImplicit false

/- The order manager over whole runs: which orders are live, and the numbers it
has given out. -/
namespace TradingPlatform

open Transducer

def Envelope.header : Envelope → MessageHeader
  | .marketData update => update.header
  | .signal message => message.header
  | .newOrder order => order.header
  | .ack answer => answer.header
  | .fill answer => answer.header
  | .reject answer => answer.header
  | .heartbeat message => message.header
  | .riskState state => state.header
  | _ => {}

/-- The identifier of an order, or of a refused one. -/
def Envelope.clientOrderId : Envelope → Option ClientOrderId
  | .newOrder order => some order.clientOrderId
  | .reject answer => some answer.clientOrderId
  | _ => none

def OmsOperation.isSignal : OmsOperation → Bool
  | .signal .. => true
  | _ => false

/-- The gateway rejects an order of this identifier, whether there is one or not. -/
def OmsOperation.Rejects (id : ClientOrderId) : OmsOperation → Prop
  | .gatewayReject reject => reject.clientOrderId = id
  | _ => False

namespace OrderManager

/-- One operation and what the manager builds in it; the handlers of gateway
messages hand back the message they were given. -/
def handle (manager : OrderManager) : OmsOperation → OrderManager × List Envelope
  | .signal signal now rejectNow =>
      let result := manager.onSignal signal now rejectNow
      (result.1, result.2.toList)
  | .gatewayAck ack => ((manager.onGatewayAck ack).1, [])
  | .gatewayReject reject => ((manager.onGatewayReject reject).1, [])

/-- The operation sends out a new order with this identifier. -/
def Issues (manager : OrderManager) (id : ClientOrderId) (operation : OmsOperation) : Prop :=
  ∃ order, .newOrder order ∈ (manager.handle operation).2 ∧ order.clientOrderId = id

/-! ### One operation -/

theorem handle_accept (manager : OrderManager) (signal : Signal) (now rejectNow : TimestampNs)
    (accepted : manager.Accepts signal) :
    manager.handle (.signal signal now rejectNow) =
      ({ manager with
          nextClientOrderId := manager.nextClientOrderId + 1
          sequence := manager.sequence + 1
          liveOrders := insert manager.nextClientOrderId manager.liveOrders },
        [.newOrder (manager.orderFor signal now)]) := by
  simp only [handle, onSignal_accept manager signal now rejectNow accepted, Option.toList_some]

theorem handle_refuse (manager : OrderManager) (signal : Signal) (now rejectNow : TimestampNs)
    (refused : ¬ manager.Accepts signal) :
    manager.handle (.signal signal now rejectNow) =
      ({ manager with
          nextClientOrderId := manager.nextClientOrderId + 1
          sequence := manager.sequence + 2 },
        [.reject (manager.rejectFor signal
          (manager.risk.check (manager.orderFor signal now)) rejectNow)]) := by
  simp only [handle, onSignal_refuse manager signal now rejectNow refused, Option.toList_some]

/-- An identifier becomes live when its order is sent out, and is live no longer
once the gateway has rejected it. -/
theorem mem_liveOrders_handle (manager : OrderManager) (operation : OmsOperation)
    (id : ClientOrderId) :
    id ∈ (manager.handle operation).1.liveOrders ↔
      manager.Issues id operation ∨ (id ∈ manager.liveOrders ∧ ¬ operation.Rejects id) := by
  unfold Issues
  cases operation with
  | signal signal now rejectNow =>
      by_cases accepted : manager.Accepts signal
      · have number : (manager.orderFor signal now).clientOrderId = manager.nextClientOrderId := rfl
        rw [handle_accept _ _ _ _ accepted]
        simp [OmsOperation.Rejects, number, eq_comm]
      · rw [handle_refuse _ _ _ _ accepted]
        simp [OmsOperation.Rejects]
  | gatewayAck ack => simp [handle, onGatewayAck, OmsOperation.Rejects]
  | gatewayReject reject =>
      simp [handle, onGatewayReject, OmsOperation.Rejects, and_comm, eq_comm]

/-- The numbers given out for so many signals. -/
structure Numbered (manager : OrderManager) (signals : Nat) (built : List Envelope) : Prop where
  nextClientOrderId : manager.nextClientOrderId = signals + 1
  ids : built.map Envelope.clientOrderId = (List.range' 1 signals).map some
  increasing : (built.map fun envelope => envelope.header.sequence).Pairwise (· < ·)
  behind : ∀ envelope ∈ built, envelope.header.sequence ≤ manager.sequence
  small : manager.sequence ≤ 2 * signals

/-- A further message with the next identifier and a larger sequence number. -/
theorem Numbered.concat {manager next : OrderManager} {signals : Nat} {built : List Envelope}
    (numbered : manager.Numbered signals built) (envelope : Envelope)
    (id : envelope.clientOrderId = some manager.nextClientOrderId)
    (above : manager.sequence < envelope.header.sequence)
    (advanced : next.nextClientOrderId = manager.nextClientOrderId + 1)
    (reached : next.sequence = envelope.header.sequence)
    (few : envelope.header.sequence ≤ manager.sequence + 2) :
    next.Numbered (signals + 1) (built ++ [envelope]) := by
  refine ⟨?_, ?_, ?_, ?_, ?_⟩
  · rw [advanced, numbered.nextClientOrderId]
  · rw [List.map_append, numbered.ids, List.range'_concat, List.map_append, List.map_singleton, id,
      numbered.nextClientOrderId, Nat.one_mul, Nat.add_comm 1]
    simp
  · rw [List.map_append]
    apply History.pairwise_concat numbered.increasing
    rw [List.forall_mem_map]
    exact fun sent member => Nat.lt_of_le_of_lt (numbered.behind sent member) above
  · rw [List.forall_mem_append, List.forall_mem_singleton, reached]
    constructor
    · intro sent member
      apply Nat.le_of_lt
      exact Nat.lt_of_le_of_lt (numbered.behind sent member) above
    · exact Nat.le_refl _
  · rw [reached]
    exact Nat.le_trans few (Nat.add_le_add_right numbered.small 2)

theorem numbered_handle (manager : OrderManager) (operation : OmsOperation) (signals : Nat)
    (built : List Envelope) (numbered : manager.Numbered signals built) :
    (manager.handle operation).1.Numbered
      (signals + if operation.isSignal then 1 else 0)
      (built ++ (manager.handle operation).2) := by
  cases operation with
  | signal signal now rejectNow =>
      by_cases accepted : manager.Accepts signal
      · rw [handle_accept _ _ _ _ accepted]
        apply numbered.concat (.newOrder (manager.orderFor signal now)) rfl
        · exact Nat.lt_succ_self _
        · rfl
        · rfl
        · exact Nat.le_succ _
      · rw [handle_refuse _ _ _ _ accepted]
        apply numbered.concat (.reject _) rfl
        · exact Nat.lt_add_of_pos_right (by omega)
        · rfl
        · rfl
        · exact Nat.le_refl _
  | gatewayAck ack =>
      show manager.Numbered signals (built ++ [])
      rw [List.append_nil]
      exact numbered
  | gatewayReject reject =>
      show Numbered { manager with liveOrders := _ } signals (built ++ [])
      rw [List.append_nil]
      exact ⟨numbered.nextClientOrderId, numbered.ids, numbered.increasing, numbered.behind,
        numbered.small⟩

/-! ### Whole runs -/

theorem numbered_run (nodeId : NodeId) (limits : RiskLimits) (operations : List OmsOperation) :
    (after handle (new nodeId limits) operations).Numbered
      (operations.countP OmsOperation.isSignal)
      (emitted handle (new nodeId limits) operations) := by
  induction operations using List.reverseRecOn with
  | nil => exact ⟨rfl, rfl, List.Pairwise.nil, by simp, Nat.le_refl _⟩
  | append_singleton operations last ih =>
      rw [after_concat, emitted_concat, List.countP_append, List.countP_singleton]
      exact numbered_handle _ last _ _ ih

theorem mem_liveOrders_run (nodeId : NodeId) (limits : RiskLimits)
    (operations : List OmsOperation) (id : ClientOrderId) :
    id ∈ (after handle (new nodeId limits) operations).liveOrders ↔
      History.Standing
        (fun before operation => (after handle (new nodeId limits) before).Issues id operation)
        (OmsOperation.Rejects id) operations := by
  induction operations using List.reverseRecOn with
  | nil => exact iff_of_false (Finset.notMem_empty id) (History.standing_nil _ _)
  | append_singleton operations last ih =>
      rw [after_concat, mem_liveOrders_handle, ih, History.standing_concat]

/-- After any run the live orders are those sent out and not rejected since, the
k-th signal has used identifier k, and the sequence numbers of what the manager
built go up. Neither counter has left its 64 bits. -/
theorem run_numbers (nodeId : NodeId) (limits : RiskLimits) (operations : List OmsOperation)
    (short : operations.length < 2 ^ 63) :
    let manager := after handle (new nodeId limits) operations
    let built := emitted handle (new nodeId limits) operations
    (∀ id, id ∈ manager.liveOrders ↔
      History.Standing
        (fun before operation => (after handle (new nodeId limits) before).Issues id operation)
        (OmsOperation.Rejects id) operations) ∧
      built.map Envelope.clientOrderId =
        (List.range' 1 (operations.countP OmsOperation.isSignal)).map some ∧
      (built.map fun envelope => envelope.header.sequence).Pairwise (· < ·) ∧
      manager.nextClientOrderId < 2 ^ 64 ∧ manager.sequence < 2 ^ 64 := by
  intro manager built
  have numbered : manager.Numbered _ built := numbered_run nodeId limits operations
  have signals : operations.countP OmsOperation.isSignal ≤ operations.length :=
    List.countP_le_length
  refine ⟨mem_liveOrders_run nodeId limits operations, numbered.ids, numbered.increasing, ?_, ?_⟩
  · rw [numbered.nextClientOrderId]
    exact Nat.lt_of_le_of_lt (Nat.succ_le_succ signals) (by omega)
  · exact Nat.lt_of_le_of_lt numbered.small (by omega)

/-- A reject that comes before its order, a signal that passes and one that does not. -/
def earlyReject : List OmsOperation := [
  .gatewayReject { clientOrderId := 1 },
  .signal { side := .sell, limitPx := 100, qty := 1 } 10 11,
  .signal { side := .buy, limitPx := 100, qty := 50 } 20 21,
  .gatewayAck { clientOrderId := 2 }]

theorem run_numbers_earlyReject :
    (emitted handle (new 3 {}) earlyReject).map Envelope.clientOrderId = [some 1, some 2] ∧
      1 ∈ (after handle (new 3 {}) earlyReject).liveOrders := by
  obtain ⟨live, ids, -⟩ := run_numbers 3 {} earlyReject (by decide)
  refine ⟨ids, (live 1).mpr ⟨[.gatewayReject { clientOrderId := 1 }], _, _, rfl, ?_, ?_⟩⟩
  · exact ⟨_, List.mem_singleton_self _, rfl⟩
  · simp [OmsOperation.Rejects]

end OrderManager
end TradingPlatform
