import TradingPlatform.Types

set_option autoImplicit false

namespace TradingPlatform

inductive KillSwitchReason where
  | none
  | manualOperatorHalt
  | maxRoutesExceeded
  | maxRejectsExceeded
  | gatewayDisconnect
  | unknown
  deriving DecidableEq, Repr, Inhabited

structure KillSwitchLimits where
  maxRoutesPerRun : UInt64 := 100000
  maxRejectsPerRun : UInt64 := 100
  maxGatewayDisconnects : UInt64 := 5
  deriving DecidableEq, Repr

structure KillSwitchState where
  tradingEnabled : Bool := true
  reason : KillSwitchReason := .none
  triggeredTsNs : TimestampNs := 0
  routesSeen : UInt64 := 0
  rejectsSeen : UInt64 := 0
  gatewayDisconnects : UInt64 := 0
  deriving DecidableEq, Repr

structure KillSwitch where
  limits : KillSwitchLimits := {}
  state : KillSwitchState := {}
  deriving DecidableEq, Repr

namespace KillSwitch

/-- Only the first trigger since the last reset leaves its reason and its time,
`now`. -/
def trigger (killSwitch : KillSwitch) (reason : KillSwitchReason) (now : TimestampNs) :
    KillSwitch :=
  if killSwitch.state.tradingEnabled then
    { killSwitch with
      state := { killSwitch.state with
        tradingEnabled := false
        reason := reason
        triggeredTsNs := now } }
  else killSwitch

/-- `haltFile` says whether the file of the operator exists. -/
def checkManualHaltFile (haltFile : Bool) : Option KillSwitchReason :=
  if haltFile then some .manualOperatorHalt else none

def tradingEnabled (killSwitch : KillSwitch) (haltFile : Bool) (now : TimestampNs) :
    KillSwitch × Bool :=
  let polled :=
    match checkManualHaltFile haltFile with
    | some reason => killSwitch.trigger reason now
    | none => killSwitch
  (polled, polled.state.tradingEnabled)

def reset (killSwitch : KillSwitch) : KillSwitch := { killSwitch with state := {} }

def onRoute (killSwitch : KillSwitch) (now : TimestampNs) : KillSwitch :=
  let count := killSwitch.state.routesSeen + 1
  let counted := { killSwitch with state := { killSwitch.state with routesSeen := count } }
  if count > killSwitch.limits.maxRoutesPerRun then counted.trigger .maxRoutesExceeded now
  else counted

def onReject (killSwitch : KillSwitch) (now : TimestampNs) : KillSwitch :=
  let count := killSwitch.state.rejectsSeen + 1
  let counted := { killSwitch with state := { killSwitch.state with rejectsSeen := count } }
  if count > killSwitch.limits.maxRejectsPerRun then counted.trigger .maxRejectsExceeded now
  else counted

def onGatewayDisconnect (killSwitch : KillSwitch) (now : TimestampNs) : KillSwitch :=
  let count := killSwitch.state.gatewayDisconnects + 1
  let counted :=
    { killSwitch with state := { killSwitch.state with gatewayDisconnects := count } }
  if count > killSwitch.limits.maxGatewayDisconnects then counted.trigger .gatewayDisconnect now
  else counted

def snapshot (killSwitch : KillSwitch) : KillSwitchState := killSwitch.state

theorem trigger_limits (killSwitch : KillSwitch) (reason : KillSwitchReason)
    (now : TimestampNs) : (killSwitch.trigger reason now).limits = killSwitch.limits := by
  unfold trigger
  split <;> rfl

theorem trigger_disables (killSwitch : KillSwitch) (reason : KillSwitchReason)
    (now : TimestampNs) : (killSwitch.trigger reason now).state.tradingEnabled = false := by
  unfold trigger
  split
  · rfl
  · rename_i disabled
    simpa using disabled

theorem trigger_routesSeen (killSwitch : KillSwitch) (reason : KillSwitchReason)
    (now : TimestampNs) :
    (killSwitch.trigger reason now).state.routesSeen = killSwitch.state.routesSeen := by
  unfold trigger
  split <;> rfl

theorem tradingEnabled_limits (killSwitch : KillSwitch) (haltFile : Bool) (now : TimestampNs) :
    (killSwitch.tradingEnabled haltFile now).1.limits = killSwitch.limits := by
  cases haltFile
  · rfl
  · exact trigger_limits killSwitch _ now

theorem tradingEnabled_routesSeen (killSwitch : KillSwitch) (haltFile : Bool)
    (now : TimestampNs) :
    (killSwitch.tradingEnabled haltFile now).1.state.routesSeen =
      killSwitch.state.routesSeen := by
  cases haltFile
  · rfl
  · exact trigger_routesSeen killSwitch _ now

/-- A poll finds trading enabled when it was and there is no halt file. -/
theorem tradingEnabled_eq (killSwitch : KillSwitch) (haltFile : Bool) (now : TimestampNs) :
    (killSwitch.tradingEnabled haltFile now).2 =
        (killSwitch.state.tradingEnabled && !haltFile) ∧
      (killSwitch.tradingEnabled haltFile now).1.state.tradingEnabled =
        (killSwitch.state.tradingEnabled && !haltFile) := by
  cases haltFile
  · simp [tradingEnabled, checkManualHaltFile]
  · simp [tradingEnabled, checkManualHaltFile, trigger_disables]

theorem onRoute_limits (killSwitch : KillSwitch) (now : TimestampNs) :
    (killSwitch.onRoute now).limits = killSwitch.limits := by
  unfold onRoute
  dsimp only
  split
  · rw [trigger_limits]
  · rfl

theorem onRoute_routesSeen (killSwitch : KillSwitch) (now : TimestampNs) :
    (killSwitch.onRoute now).state.routesSeen = killSwitch.state.routesSeen + 1 := by
  unfold onRoute
  dsimp only
  split
  · rw [trigger_routesSeen]
  · rfl

/-- A route disables trading only beyond the limit. -/
theorem onRoute_enabled (killSwitch : KillSwitch) (now : TimestampNs) :
    (killSwitch.onRoute now).state.tradingEnabled =
      (killSwitch.state.tradingEnabled &&
        decide (killSwitch.state.routesSeen + 1 ≤ killSwitch.limits.maxRoutesPerRun)) := by
  unfold onRoute
  dsimp only
  split
  · rename_i beyond
    have notWithin : ¬ killSwitch.state.routesSeen + 1 ≤ killSwitch.limits.maxRoutesPerRun :=
      UInt64.not_le.mpr beyond
    simp [trigger_disables, notWithin]
  · rename_i within
    simp [UInt64.not_lt.mp within]

end KillSwitch
end TradingPlatform
