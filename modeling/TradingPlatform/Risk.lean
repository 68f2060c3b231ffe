import TradingPlatform.Types

set_option autoImplicit false

namespace TradingPlatform

structure RiskLimits where
  maxPosition : Quantity := 100
  maxOrderQty : Quantity := 10
  maxNotional : Price := 1000000
  deriving DecidableEq, Repr, Inhabited

structure RiskEngine where
  limits : RiskLimits
  position : Quantity := 0
  deriving DecidableEq, Repr, Inhabited

namespace RiskEngine

/-- Every operation is the 64-bit one, `abs` of the least value included. -/
def check (engine : RiskEngine) (order : NewOrder) : RejectReason :=
  if order.qty ≤ 0 ∨ order.qty > engine.limits.maxOrderQty then
    .riskLimit
  else
    let notional := order.qty * order.limitPx
    if notional > engine.limits.maxNotional then
      .riskLimit
    else
      let signedQty := if order.side = .buy then order.qty else -order.qty
      let projected := engine.position + signedQty
      if projected.abs > engine.limits.maxPosition then
        .riskLimit
      else
        .none

def onFill (engine : RiskEngine) (fill : Fill) (side : Side) : RiskEngine :=
  let filled := if side = .buy then fill.fillQty else -fill.fillQty
  { engine with position := engine.position + filled }

/-- The check passes an order with these terms. -/
def Admits (engine : RiskEngine) (side : Side) (limitPx : Price) (qty : Quantity) : Prop :=
  engine.check { side, limitPx, qty } = .none

instance (engine : RiskEngine) (side : Side) (limitPx : Price) (qty : Quantity) :
    Decidable (engine.Admits side limitPx qty) :=
  inferInstanceAs (Decidable (_ = _))

theorem Admits.qty_pos {engine : RiskEngine} {side : Side} {limitPx : Price} {qty : Quantity}
    (admitted : engine.Admits side limitPx qty) : 0 < qty.toInt := by
  unfold Admits check at admitted
  split at admitted
  · cases admitted
  · rename_i sized
    rw [not_or] at sized
    have positive := sized.1
    rw [Int64.not_le, Int64.lt_iff_toInt_lt] at positive
    exact positive

end RiskEngine
end TradingPlatform
