import TradingPlatform.Library.SignedWord
import TradingPlatform.Oms

set_option autoImplicit false

/- The arithmetic of the risk check against exact integers. -/
namespace TradingPlatform

open SignedWord (Fits)

namespace RiskEngine

/-- The side's sign on a quantity, as the check computes it. -/
def signedQty (side : Side) (qty : Quantity) : Quantity := if side = .buy then qty else -qty

/-- The position after the order, as an exact integer. -/
def exactProjected (engine : RiskEngine) (side : Side) (qty : Quantity) : Int :=
  if side = .buy then engine.position.toInt + qty.toInt else engine.position.toInt - qty.toInt

def Sized (engine : RiskEngine) (qty : Quantity) : Prop :=
  0 < qty.toInt ∧ qty.toInt ≤ engine.limits.maxOrderQty.toInt

/-- The limits, in exact integers. -/
structure Within (engine : RiskEngine) (side : Side) (limitPx : Price) (qty : Quantity) :
    Prop where
  sized : engine.Sized qty
  notional : qty.toInt * limitPx.toInt ≤ engine.limits.maxNotional.toInt
  position : ((engine.exactProjected side qty).natAbs : Int) ≤ engine.limits.maxPosition.toInt

/-- The exact results of the operations that `check` comes to, in order. -/
def checkResults (engine : RiskEngine) (order : NewOrder) : List Int :=
  if order.qty ≤ 0 ∨ order.qty > engine.limits.maxOrderQty then []
  else if order.qty * order.limitPx > engine.limits.maxNotional then
    [order.qty.toInt * order.limitPx.toInt]
  else
    let signedQty := if order.side = .buy then order.qty else -order.qty
    let negation := if order.side = .buy then [] else [-order.qty.toInt]
    order.qty.toInt * order.limitPx.toInt ::
      (negation ++ [engine.position.toInt + signedQty.toInt,
        ((engine.position + signedQty).toInt.natAbs : Int)])

/-- No operation that `check` comes to leaves the range of a word. -/
def Defined (engine : RiskEngine) (order : NewOrder) : Prop :=
  ∀ result ∈ engine.checkResults order, Fits result

/-- The size is refused, or the notional fits a word and is refused, or it fits
and so does the magnitude of the projected position. -/
def InRange (engine : RiskEngine) (side : Side) (limitPx : Price) (qty : Quantity) : Prop :=
  ¬ engine.Sized qty ∨
    (Fits (qty.toInt * limitPx.toInt) ∧
      (engine.limits.maxNotional.toInt < qty.toInt * limitPx.toInt ∨
        (engine.exactProjected side qty).natAbs < 2 ^ 63))

/-- What the check can come to. -/
theorem check_cases (engine : RiskEngine) (order : NewOrder) :
    (¬ engine.Sized order.qty ∧ engine.check order ≠ .none ∧ engine.checkResults order = []) ∨
      (engine.Sized order.qty ∧
        engine.limits.maxNotional.toInt < (order.qty * order.limitPx).toInt ∧
        engine.check order ≠ .none ∧
        engine.checkResults order = [order.qty.toInt * order.limitPx.toInt]) ∨
      (engine.Sized order.qty ∧
        (order.qty * order.limitPx).toInt ≤ engine.limits.maxNotional.toInt ∧
        (engine.check order = .none ↔
          (engine.position + signedQty order.side order.qty).abs.toInt ≤
            engine.limits.maxPosition.toInt) ∧
        engine.checkResults order =
          order.qty.toInt * order.limitPx.toInt ::
            ((if order.side = .buy then [] else [-order.qty.toInt]) ++
              [engine.position.toInt + (signedQty order.side order.qty).toInt,
                ((engine.position + signedQty order.side order.qty).toInt.natAbs : Int)])) := by
  have size : (order.qty ≤ 0 ∨ order.qty > engine.limits.maxOrderQty) ↔
      ¬ engine.Sized order.qty := by
    have zero : (0 : Int64).toInt = 0 := rfl
    rw [Int64.le_iff_toInt_le, gt_iff_lt, Int64.lt_iff_toInt_lt, Sized]
    omega
  by_cases sized : engine.Sized order.qty
  · have taken : ¬ (order.qty ≤ 0 ∨ order.qty > engine.limits.maxOrderQty) :=
      fun refused => size.mp refused sized
    by_cases large : order.qty * order.limitPx > engine.limits.maxNotional
    · refine Or.inr (Or.inl ⟨sized, Int64.lt_iff_toInt_lt.mp large, ?_, ?_⟩)
      · simp only [check, taken, large, ↓reduceIte]
        decide
      · simp only [checkResults, taken, large, ↓reduceIte]
    · have bound := large
      rw [gt_iff_lt, Int64.lt_iff_toInt_lt, Int.not_lt] at bound
      have answer : engine.check order =
          if engine.limits.maxPosition < (engine.position + signedQty order.side order.qty).abs then
            .riskLimit
          else
            .none := by
        simp only [check, taken, large, ↓reduceIte]
        exact rfl
      refine Or.inr (Or.inr ⟨sized, bound, ?_, ?_⟩)
      · rw [answer, ← Int.not_lt, ← Int64.lt_iff_toInt_lt]
        by_cases exceeded : engine.limits.maxPosition <
            (engine.position + signedQty order.side order.qty).abs
        · rw [if_pos exceeded]
          exact iff_of_false (by decide) fun inside => inside exceeded
        · rw [if_neg exceeded]
          exact iff_of_true rfl exceeded
      · simp only [checkResults, taken, large, ↓reduceIte]
        exact rfl
  · have refused := size.mpr sized
    refine Or.inl ⟨sized, ?_, ?_⟩
    · simp only [check, refused, ↓reduceIte]
      decide
    · simp only [checkResults, refused, ↓reduceIte]

/-- The sign of a positive quantity can be changed. -/
theorem toInt_signedQty (engine : RiskEngine) (side : Side) (qty : Quantity)
    (positive : 0 < qty.toInt) :
    engine.position.toInt + (signedQty side qty).toInt = engine.exactProjected side qty := by
  have bounds := SignedWord.fits_toInt qty
  unfold SignedWord.Fits at bounds
  have negated := SignedWord.toInt_neg qty ⟨by omega, by omega⟩
  unfold signedQty exactProjected
  split
  · exact rfl
  · rw [negated]
    omega

/-- The magnitude of the projected position, when nothing on the way overflows. -/
theorem abs_projected (engine : RiskEngine) (side : Side) (qty : Quantity)
    (positive : 0 < qty.toInt) (small : (engine.exactProjected side qty).natAbs < 2 ^ 63) :
    (engine.position + signedQty side qty).toInt = engine.exactProjected side qty ∧
      (engine.position + signedQty side qty).abs.toInt =
        (engine.exactProjected side qty).natAbs := by
  have sum := toInt_signedQty engine side qty positive
  have projected := SignedWord.toInt_add engine.position (signedQty side qty)
    (sum ▸ ⟨by omega, by omega⟩)
  rw [sum] at projected
  have magnitude := SignedWord.toInt_abs (engine.position + signedQty side qty)
    (projected ▸ ⟨by omega, by omega⟩)
  rw [projected] at magnitude
  exact ⟨projected, magnitude⟩

/-- The operations stay in range exactly when the exact values do. -/
theorem defined_iff (engine : RiskEngine) (order : NewOrder) :
    engine.Defined order ↔ engine.InRange order.side order.limitPx order.qty := by
  unfold Defined InRange
  rcases engine.check_cases order with ⟨refused, -, none⟩ | ⟨sized, large, -, one⟩ |
    ⟨sized, small, -, all⟩
  · rw [none]
    exact iff_of_true (by simp) (Or.inl refused)
  · rw [one, List.forall_mem_singleton]
    constructor
    · intro fits
      rw [SignedWord.toInt_mul _ _ fits] at large
      exact Or.inr ⟨fits, Or.inl large⟩
    · rintro (refused | ⟨fits, -⟩)
      · exact absurd sized refused
      · exact fits
  · have sum := toInt_signedQty engine order.side order.qty sized.1
    have bounds := SignedWord.fits_toInt order.qty
    unfold SignedWord.Fits at bounds
    rw [all]
    constructor
    · intro fits
      have product := fits _ (List.mem_cons_self ..)
      have added := fits (engine.position.toInt + (signedQty order.side order.qty).toInt)
        (by simp)
      have magnitude := fits
        ((engine.position + signedQty order.side order.qty).toInt.natAbs : Int) (by simp)
      rw [SignedWord.toInt_add _ _ added, sum] at magnitude
      unfold SignedWord.Fits at magnitude
      exact Or.inr ⟨product, Or.inr (by omega)⟩
    · rintro (refused | ⟨product, large | projected⟩)
      · exact absurd sized refused
      · rw [SignedWord.toInt_mul _ _ product] at small
        omega
      · obtain ⟨exactly, -⟩ := abs_projected engine order.side order.qty sized.1 projected
        rw [sum, exactly]
        intro result member
        rcases List.mem_cons.mp member with rfl | member
        · exact product
        rcases List.mem_append.mp member with negation | member
        · split at negation
          · cases negation
          · rw [List.mem_singleton.mp negation]
            have positive := sized.1
            exact ⟨by omega, by omega⟩
        · rcases List.mem_pair.mp member with rfl | rfl
          · exact ⟨by omega, by omega⟩
          · exact ⟨by omega, by omega⟩

/-- In range, the check decides what the exact limits decide. -/
theorem InRange.decision {engine : RiskEngine} {order : NewOrder}
    (inRange : engine.InRange order.side order.limitPx order.qty) :
    engine.check order = .none ↔ engine.Within order.side order.limitPx order.qty := by
  rcases engine.check_cases order with ⟨refused, rejects, -⟩ | ⟨sized, large, rejects, -⟩ |
    ⟨sized, small, decides, -⟩
  · exact iff_of_false rejects fun within => refused within.sized
  · rcases inRange with refused | ⟨product, -⟩
    · exact absurd sized refused
    · rw [SignedWord.toInt_mul _ _ product] at large
      exact iff_of_false rejects fun within => by
        have bound := within.notional
        omega
  · rcases inRange with refused | ⟨product, large | projected⟩
    · exact absurd sized refused
    · rw [SignedWord.toInt_mul _ _ product] at small
      omega
    · rw [SignedWord.toInt_mul _ _ product] at small
      rw [decides, (abs_projected engine order.side order.qty sized.1 projected).2]
      exact ⟨fun position => ⟨sized, small, position⟩, fun within => within.position⟩

end RiskEngine

namespace OrderManager

/-- The decision on a signal agrees with the exact limits, and is made without
an overflow. -/
structure DecidesExactly (manager : OrderManager) (signal : Signal) (now rejectNow : TimestampNs) :
    Prop where
  emits : (∃ order, (manager.onSignal signal now rejectNow).2 = some (.newOrder order)) ↔
    manager.risk.Within signal.side signal.limitPx signal.qty
  rejects : ¬ manager.risk.Within signal.side signal.limitPx signal.qty →
    ∃ reject, (manager.onSignal signal now rejectNow).2 = some (.reject reject)
  defined : manager.risk.Defined (manager.orderFor signal now)

/-- The decision is exact exactly when the notional and the projected position
stay in range, as far as the check looks at them. -/
theorem onSignal_exact (manager : OrderManager) (signal : Signal) (now rejectNow : TimestampNs) :
    manager.DecidesExactly signal now rejectNow ↔
      manager.risk.InRange signal.side signal.limitPx signal.qty := by
  have order := manager.risk.defined_iff (manager.orderFor signal now)
  constructor
  · intro exactly
    exact order.mp exactly.defined
  · intro inRange
    have decision : manager.Accepts signal ↔
        manager.risk.Within signal.side signal.limitPx signal.qty :=
      @RiskEngine.InRange.decision manager.risk (manager.orderFor signal now) inRange
    refine ⟨?_, ?_, order.mpr inRange⟩
    · rw [← decision]
      constructor
      · rintro ⟨order, emitted⟩
        by_contra refused
        rw [onSignal_refuse manager signal now rejectNow refused] at emitted
        cases emitted
      · intro accepted
        rw [onSignal_accept manager signal now rejectNow accepted]
        exact ⟨_, rfl⟩
    · intro outside
      rw [onSignal_refuse manager signal now rejectNow (fun accepted => outside (decision.mp accepted))]
      exact ⟨_, rfl⟩

/-- An order for two at the highest price passes with a notional of minus two. -/
theorem wrapped_notional_passes :
    ¬ ∀ (manager : OrderManager) (signal : Signal) (now rejectNow : TimestampNs),
      manager.DecidesExactly signal now rejectNow := by
  intro exactly
  let limits : RiskLimits := { maxPosition := 10, maxOrderQty := 2, maxNotional := 1000000 }
  let signal : Signal := { side := .buy, limitPx := 9223372036854775807, qty := 2 }
  have decided := exactly (.new 3 limits) signal 0 0
  have passed : (OrderManager.new 3 limits).Accepts signal := by decide
  have within := decided.emits.mp ⟨_, by rw [onSignal_accept _ _ _ _ passed]⟩
  have bound := within.notional
  exact absurd bound (by decide)

end OrderManager
end TradingPlatform
