import Mathlib.Algebra.Group.Nat.Defs
import Mathlib.Data.List.DropRight
import TradingPlatform.KillSwitch
import TradingPlatform.Library.History

set_option autoImplicit false

/- Whole runs of the kill switch: what has disabled trading, and how often each
event has happened since the last reset. -/
namespace TradingPlatform
namespace KillSwitch

/-- What the kill switch counts. -/
inductive Event where
  | route
  | reject
  | gatewayDisconnect
  deriving DecidableEq, Repr

namespace Event

def limit (limits : KillSwitchLimits) : Event → UInt64
  | .route => limits.maxRoutesPerRun
  | .reject => limits.maxRejectsPerRun
  | .gatewayDisconnect => limits.maxGatewayDisconnects

def reason : Event → KillSwitchReason
  | .route => .maxRoutesExceeded
  | .reject => .maxRejectsExceeded
  | .gatewayDisconnect => .gatewayDisconnect

def seen (state : KillSwitchState) : Event → UInt64
  | .route => state.routesSeen
  | .reject => state.rejectsSeen
  | .gatewayDisconnect => state.gatewayDisconnects

end Event

inductive Operation where
  /-- A call of `trading_enabled`, which looks for the halt file. -/
  | poll (haltFile : Bool) (now : TimestampNs)
  | event (event : Event) (now : TimestampNs)
  | trigger (reason : KillSwitchReason) (now : TimestampNs)
  | reset
  deriving DecidableEq, Repr

def Operation.isReset : Operation → Bool
  | .reset => true
  | _ => false

def Operation.counts (event : Event) : Operation → Bool
  | .event happened _ => happened == event
  | _ => false

def step (killSwitch : KillSwitch) : Operation → KillSwitch
  | .poll haltFile now => (killSwitch.tradingEnabled haltFile now).1
  | .event .route now => killSwitch.onRoute now
  | .event .reject now => killSwitch.onReject now
  | .event .gatewayDisconnect now => killSwitch.onGatewayDisconnect now
  | .trigger reason now => killSwitch.trigger reason now
  | .reset => killSwitch.reset

def run (limits : KillSwitchLimits) (operations : List Operation) : KillSwitch :=
  operations.foldl step { limits }

/-- The operations behind the last reset. -/
def sinceReset (operations : List Operation) : List Operation :=
  operations.rtakeWhile fun operation => !operation.isReset

/-- The reason an operation gives for disabling trading, after those before it. -/
def cause (limits : KillSwitchLimits) (before : List Operation) :
    Operation → Option KillSwitchReason
  | .poll haltFile _ => checkManualHaltFile haltFile
  | .event event _ =>
      if (event.limit limits).toNat < before.countP (Operation.counts event) + 1
      then some event.reason else none
  | .trigger reason _ => some reason
  | .reset => none

/-! ### One operation -/

/-- Counting comes first. -/
def counted (killSwitch : KillSwitch) : Event → KillSwitch
  | .route => { killSwitch with
      state := { killSwitch.state with routesSeen := killSwitch.state.routesSeen + 1 } }
  | .reject => { killSwitch with
      state := { killSwitch.state with rejectsSeen := killSwitch.state.rejectsSeen + 1 } }
  | .gatewayDisconnect => { killSwitch with
      state := { killSwitch.state with
        gatewayDisconnects := killSwitch.state.gatewayDisconnects + 1 } }

def halt (killSwitch : KillSwitch) (reason : Option KillSwitchReason) (now : TimestampNs) :
    KillSwitch :=
  match reason with
  | some reason => killSwitch.trigger reason now
  | none => killSwitch

theorem step_poll (killSwitch : KillSwitch) (haltFile : Bool) (now : TimestampNs) :
    killSwitch.step (.poll haltFile now) = killSwitch.halt (checkManualHaltFile haltFile) now := by
  cases haltFile <;> rfl

theorem step_event (killSwitch : KillSwitch) (event : Event) (now : TimestampNs) :
    killSwitch.step (.event event now) =
      (killSwitch.counted event).halt
        (if event.limit killSwitch.limits < event.seen killSwitch.state + 1
          then some event.reason else none) now := by
  by_cases beyond : event.limit killSwitch.limits < event.seen killSwitch.state + 1
  · rw [if_pos beyond]
    cases event <;> exact if_pos beyond
  · rw [if_neg beyond]
    cases event <;> exact if_neg beyond

section Frame

variable (killSwitch : KillSwitch)

@[simp] theorem halt_limits (reason : Option KillSwitchReason) (now : TimestampNs) :
    (killSwitch.halt reason now).limits = killSwitch.limits := by
  cases reason with
  | none => rfl
  | some reason => exact trigger_limits killSwitch reason now

@[simp] theorem seen_halt (reason : Option KillSwitchReason) (now : TimestampNs)
    (event : Event) :
    event.seen (killSwitch.halt reason now).state = event.seen killSwitch.state := by
  cases reason with
  | none => rfl
  | some reason =>
      show event.seen (killSwitch.trigger reason now).state = _
      unfold trigger
      split
      · cases event <;> rfl
      · rfl

@[simp] theorem counted_limits (event : Event) :
    (killSwitch.counted event).limits = killSwitch.limits := by
  cases event <;> rfl

@[simp] theorem counted_enabled (event : Event) :
    (killSwitch.counted event).state.tradingEnabled = killSwitch.state.tradingEnabled := by
  cases event <;> rfl

@[simp] theorem counted_reason (event : Event) :
    (killSwitch.counted event).state.reason = killSwitch.state.reason := by
  cases event <;> rfl

theorem seen_counted (happened event : Event) :
    event.seen (killSwitch.counted happened).state =
      event.seen killSwitch.state + if happened == event then 1 else 0 := by
  cases happened <;> cases event <;> simp [counted, Event.seen]

end Frame

/-! ### Since the last reset -/

/-- A switch that is off keeps the reason of the earliest cause. -/
structure Latched (limits : KillSwitchLimits) (state : KillSwitchState)
    (recent : List Operation) : Prop where
  enabled : state.tradingEnabled = true →
    History.Quiet (cause limits) recent ∧ state.reason = .none
  disabled : state.tradingEnabled = false →
    History.Earliest (cause limits) recent state.reason

/-- The counters do not matter to it. -/
theorem Latched.counted {limits : KillSwitchLimits} {killSwitch : KillSwitch}
    {recent : List Operation} (latched : Latched limits killSwitch.state recent)
    (event : Event) : Latched limits (killSwitch.counted event).state recent := by
  refine ⟨fun enabled => ?_, fun disabled => ?_⟩
  · rw [counted_enabled] at enabled
    rw [counted_reason]
    exact latched.enabled enabled
  · rw [counted_enabled] at disabled
    rw [counted_reason]
    exact latched.disabled disabled

theorem Latched.halt {limits : KillSwitchLimits} {killSwitch : KillSwitch}
    {recent : List Operation} (latched : Latched limits killSwitch.state recent)
    (operation : Operation) (now : TimestampNs) :
    Latched limits (killSwitch.halt (cause limits recent operation) now).state
      (recent ++ [operation]) := by
  cases given : cause limits recent operation with
  | none =>
      refine ⟨fun enabled => ?_, fun disabled => ?_⟩
      · obtain ⟨quiet, clear⟩ := latched.enabled enabled
        exact ⟨(History.quiet_concat _ _).mpr ⟨quiet, given⟩, clear⟩
      · exact (latched.disabled disabled).concat operation
  | some reason =>
      refine ⟨fun enabled => ?_, fun _ => ?_⟩
      · have off : (killSwitch.trigger reason now).state.tradingEnabled = true := enabled
        rw [trigger_disables] at off
        exact absurd off (by decide)
      · show History.Earliest _ _ (killSwitch.trigger reason now).state.reason
        unfold trigger
        split
        · rename_i enabled
          exact (latched.enabled enabled).1.earliest_concat operation reason given
        · rename_i disabled
          exact (latched.disabled (Bool.not_eq_true _ ▸ disabled)).concat operation

/-- What the kill switch knows of the operations since the last reset. -/
structure Reflects (limits : KillSwitchLimits) (killSwitch : KillSwitch)
    (recent : List Operation) : Prop where
  configured : killSwitch.limits = limits
  seen : ∀ event, event.seen killSwitch.state =
    UInt64.ofNat (recent.countP (Operation.counts event))
  latched : Latched limits killSwitch.state recent

theorem reflects_new (limits : KillSwitchLimits) : Reflects limits { limits } [] := by
  refine ⟨rfl, fun event => ?_, ?_⟩
  · cases event <;> rfl
  · exact ⟨fun _ => ⟨History.quiet_nil, rfl⟩, fun disabled => nomatch disabled⟩

theorem Reflects.halt {limits : KillSwitchLimits} {killSwitch : KillSwitch}
    {recent : List Operation} (reflects : Reflects limits killSwitch recent)
    (operation : Operation) (now : TimestampNs)
    (uncounted : ∀ event, operation.counts event = false) :
    Reflects limits (killSwitch.halt (cause limits recent operation) now)
      (recent ++ [operation]) := by
  refine ⟨?_, fun event => ?_, reflects.latched.halt operation now⟩
  · rw [halt_limits, reflects.configured]
  · rw [seen_halt, reflects.seen, List.countP_append, List.countP_singleton, uncounted]
    rfl

theorem Reflects.event {limits : KillSwitchLimits} {killSwitch : KillSwitch}
    {recent : List Operation} (reflects : Reflects limits killSwitch recent)
    (short : recent.length + 1 < 2 ^ 64) (happened : Event) (now : TimestampNs) :
    Reflects limits (killSwitch.step (.event happened now))
      (recent ++ [.event happened now]) := by
  have few : recent.countP (Operation.counts happened) ≤ recent.length := List.countP_le_length
  have beyond : (happened.limit killSwitch.limits < happened.seen killSwitch.state + 1) ↔
      (happened.limit limits).toNat < recent.countP (Operation.counts happened) + 1 := by
    rw [UInt64.lt_iff_toNat_lt, reflects.configured, reflects.seen, UInt64.toNat_add,
      UInt64.toNat_ofNat_of_lt' (by show _ < 2 ^ 64; omega)]
    show _ < (_ + 1) % 2 ^ 64 ↔ _
    rw [Nat.mod_eq_of_lt (by omega)]
  have same : (if happened.limit killSwitch.limits < happened.seen killSwitch.state + 1
      then some happened.reason else none) = cause limits recent (.event happened now) := by
    simp only [cause, beyond]
  rw [step_event, same]
  refine ⟨?_, fun event => ?_, ?_⟩
  · rw [halt_limits, counted_limits, reflects.configured]
  · rw [seen_halt, seen_counted, reflects.seen, List.countP_append, List.countP_singleton,
      UInt64.ofNat_add]
    show _ + (if happened == event then 1 else 0) =
      _ + UInt64.ofNat (if happened == event then 1 else 0)
    split <;> rfl
  · exact (reflects.latched.counted happened).halt (.event happened now) now

theorem reflects_step (limits : KillSwitchLimits) (killSwitch : KillSwitch)
    (recent : List Operation) (operation : Operation)
    (reflects : Reflects limits killSwitch recent) (short : recent.length + 1 < 2 ^ 64) :
    Reflects limits (killSwitch.step operation)
      (if operation.isReset then [] else recent ++ [operation]) := by
  cases operation with
  | poll haltFile now =>
      rw [step_poll]
      exact reflects.halt (.poll haltFile now) now fun _ => rfl
  | event happened now => exact reflects.event short happened now
  | trigger reason now => exact reflects.halt (.trigger reason now) now fun _ => rfl
  | reset =>
      have fresh : killSwitch.step .reset = { limits } := by
        rw [← reflects.configured]
        rfl
      rw [fresh]
      exact reflects_new limits

/-! ### Whole runs -/

theorem sinceReset_concat (operations : List Operation) (last : Operation) :
    sinceReset (operations ++ [last]) =
      if last.isReset then [] else sinceReset operations ++ [last] := by
  unfold sinceReset
  rw [List.rtakeWhile_concat]
  cases last.isReset <;> rfl

theorem run_concat (limits : KillSwitchLimits) (operations : List Operation) (last : Operation) :
    run limits (operations ++ [last]) = (run limits operations).step last := by
  rw [run, List.foldl_append]
  rfl

theorem reflects_run (limits : KillSwitchLimits) (operations : List Operation)
    (short : operations.length < 2 ^ 64) :
    Reflects limits (run limits operations) (sinceReset operations) := by
  induction operations using List.reverseRecOn with
  | nil => exact reflects_new limits
  | append_singleton operations last ih =>
      rw [List.length_append, List.length_singleton] at short
      have recent : (sinceReset operations).length ≤ operations.length :=
        (List.rtakeWhile_suffix _ operations).length_le
      rw [run_concat, sinceReset_concat]
      exact reflects_step limits _ _ last (ih (by omega)) (by omega)

/-- Some operation asked for a halt, or some event went beyond its limit. -/
def Halts (limits : KillSwitchLimits) (recent : List Operation) : Prop :=
  (∃ reason now, Operation.trigger reason now ∈ recent) ∨
    (∃ now, Operation.poll true now ∈ recent) ∨
    ∃ event : Event, (event.limit limits).toNat < recent.countP (Operation.counts event)

/-- One more operation halts trading when it gives a reason for it. -/
theorem halts_concat (limits : KillSwitchLimits) (recent : List Operation) (last : Operation) :
    Halts limits (recent ++ [last]) ↔
      Halts limits recent ∨ (cause limits recent last).isSome := by
  cases last with
  | poll haltFile now =>
      cases haltFile <;> simp [Halts, cause, checkManualHaltFile, Operation.counts]
  | event happened now =>
      have grown : ∀ event : Event,
          (recent ++ [Operation.event happened now]).countP (Operation.counts event) =
            recent.countP (Operation.counts event) + if happened = event then 1 else 0 := by
        intro event
        simp [Operation.counts]
      have beyond : (∃ event : Event, (event.limit limits).toNat <
            (recent ++ [Operation.event happened now]).countP (Operation.counts event)) ↔
          (∃ event : Event, (event.limit limits).toNat <
            recent.countP (Operation.counts event)) ∨
          (happened.limit limits).toNat < recent.countP (Operation.counts happened) + 1 := by
        simp only [grown]
        constructor
        · rintro ⟨event, above⟩
          by_cases same : happened = event
          · rw [if_pos same] at above
            exact Or.inr (same ▸ above)
          · rw [if_neg same] at above
            exact Or.inl ⟨event, above⟩
        · rintro (⟨event, above⟩ | above)
          · exact ⟨event, Nat.lt_add_right _ above⟩
          · exact ⟨happened, by rw [if_pos rfl]; exact above⟩
      unfold Halts
      rw [beyond]
      simp [cause, or_assoc]
  | trigger reason now =>
      exact iff_of_true (Or.inl ⟨reason, now, List.mem_append_right _ (List.mem_singleton_self _)⟩)
        (Or.inr rfl)
  | reset => simp [Halts, cause, Operation.counts]

theorem quiet_iff (limits : KillSwitchLimits) (recent : List Operation) :
    History.Quiet (cause limits) recent ↔ ¬ Halts limits recent := by
  induction recent using List.reverseRecOn with
  | nil => simp [History.quiet_nil, Halts]
  | append_singleton recent last ih =>
      rw [History.quiet_concat, ih, halts_concat, not_or, Option.not_isSome_iff_eq_none]

/-- Without a reset an operation leaves a halted switch halted. -/
theorem step_disabled (killSwitch : KillSwitch) (operation : Operation)
    (noReset : operation ≠ .reset) (disabled : killSwitch.state.tradingEnabled = false) :
    (killSwitch.step operation).state.tradingEnabled = false := by
  have halted : ∀ (still : KillSwitch) (reason : Option KillSwitchReason) (now : TimestampNs),
      still.state.tradingEnabled = false →
        (still.halt reason now).state.tradingEnabled = false := by
    intro still reason now off
    cases reason with
    | none => exact off
    | some reason => exact trigger_disables still reason now
  cases operation with
  | poll haltFile now =>
      rw [step_poll]
      exact halted _ _ _ disabled
  | event happened now =>
      rw [step_event]
      apply halted
      rw [counted_enabled]
      exact disabled
  | trigger reason now => exact trigger_disables killSwitch reason now
  | reset => exact absurd rfl noReset

theorem foldl_disabled (killSwitch : KillSwitch) (later : List Operation)
    (noReset : .reset ∉ later) (disabled : killSwitch.state.tradingEnabled = false) :
    (later.foldl step killSwitch).state.tradingEnabled = false := by
  induction later generalizing killSwitch with
  | nil => exact disabled
  | cons operation later ih =>
      rw [List.mem_cons, not_or] at noReset
      exact ih _ noReset.2 (step_disabled _ _ (Ne.symm noReset.1) disabled)

/-- Trading is disabled exactly when something since the last reset has halted it,
with the reason of the earliest cause, and the counters are the numbers of events
since then. Only a reset enables trading again. -/
theorem run_disabled (limits : KillSwitchLimits) (operations : List Operation)
    (short : operations.length < 2 ^ 64) :
    let state := (run limits operations).snapshot
    let recent := sinceReset operations
    (state.tradingEnabled = false ↔ Halts limits recent) ∧
      (Halts limits recent → History.Earliest (cause limits) recent state.reason) ∧
      (¬ Halts limits recent → state.reason = .none) ∧
      (∀ event, (event.seen state).toNat = recent.countP (Operation.counts event)) ∧
      ∀ earlier later, operations = earlier ++ later → .reset ∉ later →
        (run limits earlier).snapshot.tradingEnabled = false → state.tradingEnabled = false := by
  intro state recent
  have reflects : Reflects limits (run limits operations) recent :=
    reflects_run limits operations short
  have latched : Latched limits state recent := reflects.latched
  have halted : state.tradingEnabled = false ↔ Halts limits recent := by
    rw [← not_iff_not, ← quiet_iff, Bool.not_eq_false]
    constructor
    · exact fun enabled => (latched.enabled enabled).1
    · intro quiet
      by_contra disabled
      exact (latched.disabled (Bool.eq_false_of_not_eq_true disabled)).not_quiet quiet
  refine ⟨halted, fun halts => latched.disabled (halted.mpr halts), fun still => ?_, ?_, ?_⟩
  · exact (latched.enabled (Bool.eq_true_of_not_eq_false (halted.not.mpr still))).2
  · intro event
    have few : recent.countP (Operation.counts event) ≤ recent.length := List.countP_le_length
    have within : recent.length ≤ operations.length :=
      (List.rtakeWhile_suffix _ operations).length_le
    have seen : event.seen state = _ := reflects.seen event
    rw [seen, UInt64.toNat_ofNat_of_lt' (by show _ < 2 ^ 64; omega)]
  · rintro earlier later rfl noReset disabled
    show (run limits (earlier ++ later)).state.tradingEnabled = false
    rw [run, List.foldl_append]
    exact foldl_disabled _ later noReset disabled

/-- Two rejects with a limit of one, behind a halt file that a reset has cleared. -/
def rejectsBehindReset : List Operation := [
  .poll true 10, .reset, .event .reject 20, .event .route 21, .event .reject 22,
  .trigger .gatewayDisconnect 23]

theorem run_disabled_rejects :
    (run { maxRejectsPerRun := 1 } rejectsBehindReset).snapshot.tradingEnabled = false ∧
      History.Earliest (cause { maxRejectsPerRun := 1 }) (sinceReset rejectsBehindReset)
        .maxRejectsExceeded := by
  obtain ⟨disabled, earliest, -⟩ :=
    run_disabled { maxRejectsPerRun := 1 } rejectsBehindReset (by decide)
  have halts : Halts { maxRejectsPerRun := 1 } (sinceReset rejectsBehindReset) :=
    Or.inr (Or.inr ⟨.reject, by decide⟩)
  exact ⟨disabled.mpr halts, earliest halts⟩

end KillSwitch
end TradingPlatform
