import Mathlib
import TradingPlatform.OrderLedger

set_option autoImplicit false

/- The position limit over whole runs. The risk engine compares each order
against a position that only `onFill` would move, and the order manager never
reports a fill, so the limit bounds single orders and not their sum. -/
namespace TradingPlatform

/-- Buys count up, sells count down, in exact arithmetic. -/
def NewOrder.signedQty (order : NewOrder) : Int :=
  match order.side with
  | .buy => order.qty.toInt
  | .sell => -order.qty.toInt

namespace PositionLimit

open OrderLedger

def netQty (orders : List NewOrder) : Int :=
  (orders.map NewOrder.signedQty).sum

/-- The quantity outstanding on one side. -/
def sideQty (side : Side) (orders : List NewOrder) : Int :=
  ((orders.filter (fun order => order.side = side)).map (fun order => order.qty.toInt)).sum

def WithinLimit (limits : RiskLimits) (ledger : OrderLedger) : Prop :=
  |netQty ledger.outstanding| ≤ limits.maxPosition.toInt

/-- The net outstanding quantity respects the limit after every step. -/
def WithinLimitThroughout (nodeId : NodeId) (limits : RiskLimits)
    (operations : List OmsOperation) : Prop :=
  ∀ done rest, operations = done ++ rest → WithinLimit limits (run nodeId limits done)

/-- Every admitted signal still fits under the limit together with what is
outstanding on its own side, whatever is outstanding on the other. -/
def ExposureFits (nodeId : NodeId) (limits : RiskLimits) (operations : List OmsOperation) : Prop :=
  ∀ done signal now rejectNow rest,
    operations = done ++ .signal signal now rejectNow :: rest →
    RiskEngine.Admits { limits } signal.side signal.limitPx signal.qty →
    sideQty signal.side (run nodeId limits done).outstanding + signal.qty.toInt ≤
      limits.maxPosition.toInt

/-- The same of one operation behind the others. -/
def FitsNext (limits : RiskLimits) (ledger : OrderLedger) : OmsOperation → Prop
  | .signal signal _ _ =>
      RiskEngine.Admits { limits } signal.side signal.limitPx signal.qty →
        sideQty signal.side ledger.outstanding + signal.qty.toInt ≤ limits.maxPosition.toInt
  | _ => True

instance (limits : RiskLimits) (ledger : OrderLedger) (operation : OmsOperation) :
    Decidable (FitsNext limits ledger operation) :=
  match operation with
  | .signal .. => inferInstanceAs (Decidable (_ → _))
  | .gatewayAck _ => inferInstanceAs (Decidable True)
  | .gatewayReject _ => inferInstanceAs (Decidable True)

theorem exposureFits_concat {nodeId : NodeId} {limits : RiskLimits}
    {operations : List OmsOperation} {operation : OmsOperation}
    (fits : ExposureFits nodeId limits operations)
    (next : FitsNext limits (run nodeId limits operations) operation) :
    ExposureFits nodeId limits (operations ++ [operation]) := by
  intro done signal now rejectNow rest split admitted
  rcases List.eq_nil_or_concat rest with rfl | ⟨front, last, rfl⟩
  · obtain ⟨rfl, same⟩ := List.append_inj' split rfl
    obtain rfl := List.cons.inj same |>.1
    exact next admitted
  · rw [List.concat_eq_append, ← List.cons_append, ← List.append_assoc] at split
    obtain ⟨shorter, -⟩ := List.append_inj' split rfl
    exact fits done signal now rejectNow front shorter admitted

theorem netQty_cons (order : NewOrder) (orders : List NewOrder) :
    netQty (order :: orders) = order.signedQty + netQty orders := by
  simp only [netQty, List.map_cons, List.sum_cons]

theorem sideQty_cons (side : Side) (order : NewOrder) (orders : List NewOrder) :
    sideQty side (order :: orders) =
      (if order.side = side then order.qty.toInt else 0) + sideQty side orders := by
  by_cases same : order.side = side <;> simp [sideQty, same]

theorem sideQty_concat (side : Side) (orders : List NewOrder) (order : NewOrder) :
    sideQty side (orders ++ [order]) =
      sideQty side orders + (if order.side = side then order.qty.toInt else 0) := by
  by_cases same : order.side = side <;> simp [sideQty, List.filter_append, same]

theorem netQty_eq (orders : List NewOrder) :
    netQty orders = sideQty .buy orders - sideQty .sell orders := by
  induction orders with
  | nil => rfl
  | cons order orders ih =>
      rw [netQty_cons, sideQty_cons, sideQty_cons, ih]
      cases side : order.side
      · simp only [NewOrder.signedQty, side, ↓reduceIte, reduceCtorEq, zero_add]
        omega
      · simp only [NewOrder.signedQty, side, ↓reduceIte, reduceCtorEq, zero_add]
        omega

theorem sideQty_nonneg (side : Side) (orders : List NewOrder)
    (positive : ∀ order ∈ orders, 0 < order.qty.toInt) : 0 ≤ sideQty side orders := by
  apply List.sum_nonneg
  intro qty member
  obtain ⟨order, held, rfl⟩ := List.mem_map.mp member
  exact (positive order (List.mem_of_mem_filter held)).le

theorem sideQty_filter_le (side : Side) (orders : List NewOrder) (keep : NewOrder → Bool)
    (positive : ∀ order ∈ orders, 0 < order.qty.toInt) :
    sideQty side (orders.filter keep) ≤ sideQty side orders := by
  induction orders with
  | nil => exact le_refl _
  | cons order orders ih =>
      have rest := ih (fun other member => positive other (List.mem_cons_of_mem _ member))
      have head := positive order List.mem_cons_self
      cases kept : keep order with
      | true =>
          rw [List.filter_cons_of_pos kept, sideQty_cons, sideQty_cons]
          omega
      | false =>
          rw [List.filter_cons_of_neg (by simp [kept]), sideQty_cons]
          split <;> omega

/-- Neither side alone exceeds the limit. -/
def Fits (limits : RiskLimits) (ledger : OrderLedger) : Prop :=
  ∀ side, sideQty side ledger.outstanding ≤ limits.maxPosition.toInt

theorem Fits.withinLimit {limits : RiskLimits} {ledger : OrderLedger}
    (fits : Fits limits ledger) (valid : ledger.Valid limits) : WithinLimit limits ledger := by
  have bought := sideQty_nonneg .buy ledger.outstanding valid.positive
  have sold := sideQty_nonneg .sell ledger.outstanding valid.positive
  have buys := fits .buy
  have sells := fits .sell
  rw [WithinLimit, netQty_eq, abs_le]
  omega

theorem Fits.answer {limits : RiskLimits} {ledger : OrderLedger} (fits : Fits limits ledger)
    (valid : ledger.Valid limits) (operation : OmsOperation) (answer : operation.IsAnswer) :
    Fits limits (ledger.step operation) := by
  intro side
  cases operation with
  | signal => exact answer.elim
  | gatewayAck => exact fits side
  | gatewayReject reject =>
      exact (sideQty_filter_le side ledger.outstanding _ valid.positive).trans (fits side)

theorem Fits.answers (nodeId : NodeId) (limits : RiskLimits) (done answers : List OmsOperation)
    (fits : Fits limits (run nodeId limits done))
    (only : ∀ operation ∈ answers, operation.IsAnswer) :
    Fits limits (run nodeId limits (done ++ answers)) := by
  induction answers using List.reverseRecOn with
  | nil => simpa using fits
  | append_singleton answers last ih =>
      have before := ih (fun operation member => only operation (by simp [member]))
      rw [← List.append_assoc, run_concat]
      exact before.answer (valid_run nodeId limits _) last (only last (by simp))

theorem fits_run (nodeId : NodeId) (limits : RiskLimits)
    (nonneg : 0 ≤ limits.maxPosition.toInt) (done rest operations : List OmsOperation)
    (split : operations = done ++ rest) (exposure : ExposureFits nodeId limits operations) :
    Fits limits (run nodeId limits done) := by
  induction done using List.reverseRecOn generalizing rest with
  | nil =>
      intro side
      simpa [run, sideQty] using nonneg
  | append_singleton done last ih =>
      have split : operations = done ++ last :: rest := by simpa using split
      have before := ih (last :: rest) split
      have valid := valid_run nodeId limits done
      rw [run_concat]
      cases last with
      | gatewayAck ack => exact before.answer valid _ trivial
      | gatewayReject reject => exact before.answer valid _ trivial
      | signal signal now rejectNow =>
          intro side
          by_cases accepted : (run nodeId limits done).manager.Accepts signal
          · rw [step_accept _ signal now rejectNow accepted, sideQty_concat]
            have room := exposure done signal now rejectNow rest split
              ((accepts_iff nodeId limits done signal).mp accepted)
            by_cases same : signal.side = side
            · subst same
              simpa [OrderManager.orderFor] using room
            · simpa [OrderManager.orderFor, same] using before side
          · rw [step_refuse _ signal now rejectNow accepted]
            exact before side

/-- The gateway rejects one order after another. -/
def rejectAll (ids : List ClientOrderId) : List OmsOperation :=
  ids.map fun id => .gatewayReject { clientOrderId := id }

theorem rejectAll_isAnswer (ids : List ClientOrderId) :
    ∀ operation ∈ rejectAll ids, operation.IsAnswer := by
  intro operation member
  obtain ⟨id, -, rfl⟩ := List.mem_map.mp member
  trivial

theorem outstanding_rejectAll (ids : List ClientOrderId) (ledger : OrderLedger) :
    ((rejectAll ids).foldl step ledger).outstanding =
      ledger.outstanding.filter (fun order => order.clientOrderId ∉ ids) := by
  induction ids generalizing ledger with
  | nil => simp [rejectAll]
  | cons id ids ih =>
      rw [rejectAll, List.map_cons, List.foldl_cons]
      refine (ih _).trans ?_
      simp only [step, List.filter_filter]
      congr 1
      funext order
      simp only [List.mem_cons, not_or, ne_eq, Bool.decide_and, decide_not]
      exact Bool.and_comm _ _

/-- Identifiers are distinct, so the gateway can reject one side alone. -/
theorem outstanding_reject_side (limits : RiskLimits) (ledger : OrderLedger)
    (valid : ledger.Valid limits) (side : Side) :
    ((rejectAll ((ledger.outstanding.filter (fun order => order.side ≠ side)).map
        NewOrder.clientOrderId)).foldl step ledger).outstanding =
      ledger.outstanding.filter (fun order => order.side = side) := by
  rw [outstanding_rejectAll]
  apply List.filter_congr
  intro order member
  have unique : ∀ other ∈ ledger.outstanding, other.clientOrderId = order.clientOrderId →
      other = order := fun other held same =>
    List.inj_on_of_nodup_map valid.distinct held member same
  rw [decide_eq_decide]
  constructor
  · intro kept
    by_contra differs
    exact kept (List.mem_map.mpr ⟨order, by simp [member, differs], rfl⟩)
  · intro same listed
    obtain ⟨other, held, equal⟩ := List.mem_map.mp listed
    obtain ⟨held, differs⟩ := List.mem_filter.mp held
    rw [unique other held equal, same] at differs
    simp at differs

theorem netQty_one_side (side : Side) (orders : List NewOrder) :
    |netQty (orders.filter (fun order => order.side = side))| = |sideQty side orders| := by
  have self : ∀ chosen, sideQty chosen (orders.filter (fun order => order.side = side)) =
      if chosen = side then sideQty side orders else 0 := by
    intro chosen
    by_cases same : chosen = side
    · subst same
      simp [sideQty, List.filter_filter]
    · have empty : (orders.filter (fun order => order.side = side)).filter
          (fun order => order.side = chosen) = [] := by
        simp only [List.filter_filter, List.filter_eq_nil_iff]
        intro order _
        simp only [Bool.and_eq_true, decide_eq_true_eq, not_and]
        rintro rfl
        exact same
      simp [sideQty, empty, same]
  rw [netQty_eq, self, self]
  cases side <;> simp

/-- The limit survives every behaviour of the gateway exactly when no admitted
signal takes its own side past it. -/
theorem positionLimit_iff (nodeId : NodeId) (limits : RiskLimits)
    (nonneg : 0 ≤ limits.maxPosition.toInt) (operations : List OmsOperation) :
    (∀ done rest answers, operations = done ++ rest →
        (∀ operation ∈ answers, operation.IsAnswer) →
        WithinLimitThroughout nodeId limits (done ++ answers)) ↔
      ExposureFits nodeId limits operations := by
  constructor
  · intro within done signal now rejectNow rest split admitted
    have accepted := (accepts_iff nodeId limits done signal).mpr admitted
    let after := run nodeId limits (done ++ [.signal signal now rejectNow])
    have stepped : after = (run nodeId limits done).step (.signal signal now rejectNow) :=
      run_concat nodeId limits done _
    let others := (after.outstanding.filter (fun order => order.side ≠ signal.side)).map
      NewOrder.clientOrderId
    have limit := within (done ++ [.signal signal now rejectNow]) rest (rejectAll others)
      (by simpa using split) (rejectAll_isAnswer others) _ [] (List.append_nil _).symm
    rw [WithinLimit, run_append,
      outstanding_reject_side limits _ (valid_run nodeId limits _) signal.side,
      netQty_one_side] at limit
    have total : sideQty signal.side after.outstanding =
        sideQty signal.side (run nodeId limits done).outstanding + signal.qty.toInt := by
      rw [stepped, step_accept _ signal now rejectNow accepted, sideQty_concat]
      simp [OrderManager.orderFor]
    rw [← total]
    exact (le_abs_self _).trans limit
  · intro exposure done rest answers split only taken left parts
    have valid := valid_run nodeId limits taken
    refine Fits.withinLimit ?_ valid
    rcases List.append_eq_append_iff.mp parts with ⟨more, rfl, more_left⟩ | ⟨more, rfl, -⟩
    · refine Fits.answers nodeId limits done more
        (fits_run nodeId limits nonneg done rest operations split exposure) ?_
      intro operation member
      exact only operation (by rw [more_left]; exact List.mem_append_left _ member)
    · exact fits_run nodeId limits nonneg taken (more ++ rest) operations
        (by rw [split, List.append_assoc]) exposure

def buyOne : OmsOperation := .signal { side := .buy, limitPx := 100, qty := 1 } 0 0

def sellOne : OmsOperation := .signal { side := .sell, limitPx := 101, qty := 1 } 0 0

def buyTwo : OmsOperation := .signal { side := .buy, limitPx := 100, qty := 2 } 0 0

/-- An order on each side, of which the gateway rejects the first; then a signal that
the risk check refuses, and one that takes the place of the rejected order. -/
def bothSides : List OmsOperation :=
  [buyOne, sellOne, .gatewayReject { clientOrderId := 1 }, buyTwo, buyOne]

theorem positionLimit_bothSides :
    WithinLimitThroughout 3 { maxPosition := 1 } (bothSides ++ []) ∧
      (run 3 { maxPosition := 1 } bothSides).outstanding.map
        (fun order => (order.clientOrderId, order.side)) = [(2, .sell), (4, .buy)] := by
  refine ⟨(positionLimit_iff 3 { maxPosition := 1 } (by decide) bothSides).mpr ?_ bothSides [] []
    rfl (by simp), by decide⟩
  have empty : ExposureFits 3 { maxPosition := 1 } [] := by
    intro done signal now rejectNow rest split
    simp at split
  have first : ExposureFits 3 { maxPosition := 1 } [buyOne] :=
    exposureFits_concat empty (by decide)
  have second : ExposureFits 3 { maxPosition := 1 } [buyOne, sellOne] :=
    exposureFits_concat first (by decide)
  have third : ExposureFits 3 { maxPosition := 1 }
      [buyOne, sellOne, .gatewayReject { clientOrderId := 1 }] :=
    exposureFits_concat second (by decide)
  have fourth : ExposureFits 3 { maxPosition := 1 }
      [buyOne, sellOne, .gatewayReject { clientOrderId := 1 }, buyTwo] :=
    exposureFits_concat third (by decide)
  exact exposureFits_concat fourth (by decide)

/-- Two buys of one lot each pass a limit of one. -/
theorem positionLimit_exceeded :
    0 ≤ ({ maxPosition := 1 } : RiskLimits).maxPosition.toInt ∧
      ¬ WithinLimitThroughout 3 { maxPosition := 1 } [buyOne, buyOne] := by
  refine ⟨by decide, fun within => ?_⟩
  have net : netQty (run 3 { maxPosition := 1 } [buyOne, buyOne]).outstanding = 2 := by decide
  have limit := within [buyOne, buyOne] [] rfl
  rw [WithinLimit, net] at limit
  exact absurd limit (by decide)

end PositionLimit
end TradingPlatform
