import Mathlib.Algebra.Group.Nat.Defs
import Mathlib.Data.Finset.Card
import TradingPlatform.KillSwitchRuns
import TradingPlatform.Library.Linearizability

set_option autoImplicit false

/- The kill switch between threads: its members are atomic, its calls are not.
The accesses of one order of all threads are told apart, each with the value that
it finds. -/
namespace TradingPlatform
namespace KillSwitch

open Linearizability (Progress Moves Linearizes)

/-- A call of a thread that trades, with the clock that a trigger would store. -/
inductive Request where
  | poll (haltFile : Bool) (now : TimestampNs)
  | event (event : Event) (now : TimestampNs)
  | trigger (reason : KillSwitchReason) (now : TimestampNs)
  deriving DecidableEq, Repr

def Request.operation : Request → Operation
  | .poll haltFile now => .poll haltFile now
  | .event happened now => .event happened now
  | .trigger reason now => .trigger reason now

/-- What a thread is answered that has the kill switch for itself. -/
def answer (killSwitch : KillSwitch) (request : Request) : KillSwitch × Option Bool :=
  (killSwitch.step request.operation,
    match request with
    | .poll haltFile now => some (killSwitch.tradingEnabled haltFile now).2
    | _ => none)

/-- Why a call triggers. -/
inductive Cause where
  /-- `trading_enabled` has found the halt file. -/
  | found (now : TimestampNs)
  | exceeded (event : Event) (now : TimestampNs)
  | asked (reason : KillSwitchReason) (now : TimestampNs)
  deriving DecidableEq, Repr

namespace Cause

def request : Cause → Request
  | .found now => .poll true now
  | .exceeded event now => .event event now
  | .asked reason now => .trigger reason now

def reason : Cause → KillSwitchReason
  | .found _ => .manualOperatorHalt
  | .exceeded event _ => event.reason
  | .asked reason _ => reason

def now : Cause → TimestampNs
  | .found now | .exceeded _ now | .asked _ now => now

/-- What the call will answer. -/
def result : Cause → Option Bool
  | .found _ => some false
  | _ => none

end Cause

/-- Where a thread is between two accesses. -/
inductive CallAt where
  | idle
  /-- Before the `fetch_add`. -/
  | counting (event : Event) (now : TimestampNs)
  /-- Before the `compare_exchange_strong` of `trigger`. -/
  | halting (cause : Cause)
  /-- It has succeeded, and the reason is stored next. -/
  | storing (cause : Cause)
  /-- Then the time. -/
  | stamping (cause : Cause)
  /-- Before the load of `trading_enabled`, without a halt file. -/
  | loading (now : TimestampNs)
  /-- The same behind a trigger. -/
  | reloading
  deriving DecidableEq, Repr

/-- The first access of a call comes behind the look for the halt file. -/
def CallAt.entered : Request → CallAt
  | .poll haltFile now => if haltFile then .halting (.found now) else .loading now
  | .event event now => .counting event now
  | .trigger reason now => .halting (.asked reason now)

structure SwitchMemory (ι : Type) where
  killSwitch : KillSwitch
  place : ι → CallAt

/-- A call, or the next access of the call that a thread is in. -/
inductive SwitchAccess (ι : Type) where
  | call (thread : ι) (request : Request)
  | next (thread : ι)
  deriving DecidableEq

abbrev Seen (ι : Type) : Type := List (Linearizability.Event ι Request (Option Bool))

namespace SwitchMemory

variable {ι : Type} [DecidableEq ι]

def start (limits : KillSwitchLimits) : SwitchMemory ι where
  killSwitch := { limits }
  place := fun _ => .idle

def goTo (memory : SwitchMemory ι) (thread : ι) (place : CallAt) : SwitchMemory ι :=
  { memory with place := Function.update memory.place thread place }

def withState (memory : SwitchMemory ι) (state : KillSwitchState) : SwitchMemory ι :=
  { memory with killSwitch := { memory.killSwitch with state := state } }

/-- `trigger` returns. A poll has its load before it. -/
def triggered (memory : SwitchMemory ι) (thread : ι) : Cause → SwitchMemory ι × Seen ι
  | .found _ => (memory.goTo thread .reloading, [])
  | _ => (memory.goTo thread .idle, [.response thread none])

def next (memory : SwitchMemory ι) (thread : ι) : SwitchMemory ι × Seen ι :=
  let state := memory.killSwitch.state
  match memory.place thread with
  | .idle => (memory, [])
  | .counting event now =>
      let memory := { memory with killSwitch := memory.killSwitch.counted event }
      if event.seen memory.killSwitch.state > event.limit memory.killSwitch.limits then
        (memory.goTo thread (.halting (.exceeded event now)), [])
      else (memory.goTo thread .idle, [.response thread none])
  | .halting cause =>
      if state.tradingEnabled then
        ((memory.withState { state with tradingEnabled := false }).goTo thread (.storing cause), [])
      else memory.triggered thread cause
  | .storing cause =>
      ((memory.withState { state with reason := cause.reason }).goTo thread (.stamping cause), [])
  | .stamping cause =>
      (memory.withState { state with triggeredTsNs := cause.now }).triggered thread cause
  | .loading _ | .reloading =>
      (memory.goTo thread .idle, [.response thread (some state.tradingEnabled)])

def step (memory : SwitchMemory ι) : SwitchAccess ι → SwitchMemory ι × Seen ι
  | .call thread request =>
      match memory.place thread with
      | .idle => (memory.goTo thread (.entered request), [.invoke thread request])
      | _ => (memory, [])
  | .next thread => memory.next thread

end SwitchMemory

/-! ### The atomic switch -/

namespace CallAt

/-- A call takes effect when its trigger finds out whether trading is enabled; if
it does not trigger, with its last access. -/
def progress : CallAt → Progress Request (Option Bool)
  | .idle => .idle
  | .counting event now => .invoked (.event event now)
  | .halting cause => .invoked cause.request
  | .storing cause | .stamping cause => .effected cause.result
  | .loading now => .invoked (.poll false now)
  | .reloading => .effected (some false)

/-- The event beyond its limit that has not taken effect yet. -/
def late? : CallAt → Option Event
  | .halting (.exceeded event _) => some event
  | _ => none

/-- The trigger that has taken effect and not stored all of it yet. -/
def settling? : CallAt → Option Cause
  | .storing cause | .stamping cause => some cause
  | _ => none

def reasonDue : CallAt → Bool
  | .storing _ => true
  | _ => false

def behindTrigger : CallAt → Bool
  | .storing _ | .stamping _ | .reloading => true
  | _ => false

/-- Only a disabled switch lets a call behind its trigger, and the first trigger
has its way. -/
structure Fits (killSwitch : KillSwitch) (place : CallAt) : Prop where
  halted : place.behindTrigger = true → killSwitch.state.tradingEnabled = false
  settling : ∀ cause, place.settling? = some cause →
    killSwitch.state.reason = cause.reason ∧ killSwitch.state.triggeredTsNs = cause.now

end CallAt

namespace SwitchMemory

variable {ι : Type} [DecidableEq ι]

def progress (memory : SwitchMemory ι) (thread : ι) : Progress Request (Option Bool) :=
  (memory.place thread).progress

/-- The counters lack no event, and the atomic switch lacks those of the calls
that are late. There are such only beyond the limit. -/
structure Tallied (count : Nat) (memory : SwitchMemory ι) (killSwitch : KillSwitch)
    (late : Event → Finset ι) : Prop where
  limits : memory.killSwitch.limits = killSwitch.limits
  listed : ∀ event thread, thread ∈ late event ↔ (memory.place thread).late? = some event
  seen : ∀ event : Event, (event.seen memory.killSwitch.state).toNat =
    (event.seen killSwitch.state).toNat + (late event).card
  beyond : ∀ event : Event, (late event).Nonempty →
    (event.limit killSwitch.limits).toNat ≤ (event.seen killSwitch.state).toNat
  few : ∀ event : Event, (event.seen memory.killSwitch.state).toNat ≤ count

/-- What the members lack of the atomic switch is what its first trigger has yet
to store. -/
structure Latching (memory : SwitchMemory ι) (killSwitch : KillSwitch) : Prop where
  enabled : memory.killSwitch.state.tradingEnabled = killSwitch.state.tradingEnabled
  fits : ∀ thread, (memory.place thread).Fits killSwitch
  reason : (∀ thread, (memory.place thread).reasonDue = false) →
    memory.killSwitch.state.reason = killSwitch.state.reason
  stamped : (∀ thread, (memory.place thread).settling? = none) →
    memory.killSwitch.state.triggeredTsNs = killSwitch.state.triggeredTsNs

/-- The atomic switch that the members stand for. -/
structure Stands (count : Nat) (memory : SwitchMemory ι) (killSwitch : KillSwitch)
    (late : Event → Finset ι) : Prop where
  tallied : memory.Tallied count killSwitch late
  latching : memory.Latching killSwitch

end SwitchMemory

/-- What the atomic switch does before it triggers. -/
def charged (killSwitch : KillSwitch) : Cause → KillSwitch
  | .exceeded event _ => killSwitch.counted event
  | _ => killSwitch

section Answers

variable (killSwitch : KillSwitch)

theorem answer_within (event : Event) (now : TimestampNs)
    (within : ¬ event.limit killSwitch.limits < event.seen killSwitch.state + 1) :
    killSwitch.answer (.event event now) = (killSwitch.counted event, none) := by
  show (killSwitch.step (.event event now), none) = _
  rw [step_event, if_neg within]
  rfl

theorem answer_cause (cause : Cause)
    (exceeds : ∀ event now, cause = .exceeded event now →
      event.limit killSwitch.limits < event.seen killSwitch.state + 1) :
    killSwitch.answer cause.request =
      ((killSwitch.charged cause).trigger cause.reason cause.now, cause.result) := by
  cases cause with
  | found now =>
      show ((killSwitch.tradingEnabled true now).1, some (killSwitch.tradingEnabled true now).2) = _
      rw [(killSwitch.tradingEnabled_eq true now).1, Bool.not_true, Bool.and_false]
      rfl
  | exceeded event now =>
      show (killSwitch.step (.event event now), none) = _
      rw [step_event, if_pos (exceeds event now rfl)]
      rfl
  | asked reason now => rfl

theorem trigger_enabled (reason : KillSwitchReason) (now : TimestampNs)
    (enabled : killSwitch.state.tradingEnabled = true) :
    (killSwitch.trigger reason now).state.reason = reason ∧
      (killSwitch.trigger reason now).state.triggeredTsNs = now := by
  rw [trigger, if_pos enabled]
  exact ⟨rfl, rfl⟩

theorem trigger_disabled (reason : KillSwitchReason) (now : TimestampNs)
    (disabled : killSwitch.state.tradingEnabled = false) :
    killSwitch.trigger reason now = killSwitch := by
  rw [trigger, disabled]
  rfl

theorem seen_trigger (reason : KillSwitchReason) (now : TimestampNs) (event : Event) :
    event.seen (killSwitch.trigger reason now).state = event.seen killSwitch.state :=
  seen_halt killSwitch (some reason) now event

theorem seen_settings (state : KillSwitchState) (enabled : Bool) (reason : KillSwitchReason)
    (now : TimestampNs) (event : Event) :
    (event.seen { state with
      tradingEnabled := enabled
      reason := reason
      triggeredTsNs := now }).toNat = (event.seen state).toNat := by
  cases event <;> rfl

theorem state_eq {first second : KillSwitchState}
    (enabled : first.tradingEnabled = second.tradingEnabled) (reason : first.reason = second.reason)
    (stamped : first.triggeredTsNs = second.triggeredTsNs)
    (seen : ∀ event : Event, event.seen first = event.seen second) : first = second := by
  have routes := seen .route
  have rejects := seen .reject
  have disconnects := seen .gatewayDisconnect
  cases first
  cases second
  simp only [Event.seen] at routes rejects disconnects
  simp only [KillSwitchState.mk.injEq]
  exact ⟨enabled, reason, stamped, routes, rejects, disconnects⟩

@[simp] theorem counted_triggered (event : Event) :
    (killSwitch.counted event).state.triggeredTsNs = killSwitch.state.triggeredTsNs := by
  cases event <;> rfl

@[simp] theorem charged_limits (cause : Cause) :
    (killSwitch.charged cause).limits = killSwitch.limits := by
  cases cause <;> simp [charged]

@[simp] theorem charged_enabled (cause : Cause) :
    (killSwitch.charged cause).state.tradingEnabled = killSwitch.state.tradingEnabled := by
  cases cause <;> simp [charged]

@[simp] theorem charged_reason (cause : Cause) :
    (killSwitch.charged cause).state.reason = killSwitch.state.reason := by
  cases cause <;> simp [charged]

@[simp] theorem charged_triggered (cause : Cause) :
    (killSwitch.charged cause).state.triggeredTsNs = killSwitch.state.triggeredTsNs := by
  cases cause <;> simp [charged]

/-- A counter that has room is one higher behind its event. -/
theorem toNat_seen_counted (happened event : Event)
    (room : (happened.seen killSwitch.state).toNat + 1 < 2 ^ 64) :
    (event.seen (killSwitch.counted happened).state).toNat =
      (event.seen killSwitch.state).toNat + if happened = event then 1 else 0 := by
  rw [seen_counted]
  by_cases same : happened = event
  · subst same
    have one : (1 : UInt64).toNat = 1 := rfl
    simp only [beq_self_eq_true, ↓reduceIte, UInt64.toNat_add, one]
    exact Nat.mod_eq_of_lt room
  · have apart : (happened == event) = false := beq_eq_false_iff_ne.mpr same
    rw [apart, if_neg same]
    simp

end Answers

theorem CallAt.reasonDue_settled {place : CallAt} (settled : place.settling? = none) :
    place.reasonDue = false := by
  cases place <;> first | rfl | cases settled

theorem CallAt.settled_front {place : CallAt} (front : place.behindTrigger = false) :
    place.settling? = none := by
  cases place <;> first | rfl | cases front

theorem CallAt.fits_settled {place : CallAt} {killSwitch : KillSwitch}
    (settled : place.settling? = none)
    (halted : place.behindTrigger = true → killSwitch.state.tradingEnabled = false) :
    place.Fits killSwitch := by
  refine ⟨halted, fun cause settles => ?_⟩
  rw [settled] at settles
  cases settles

theorem CallAt.fits_front {place : CallAt} {killSwitch : KillSwitch}
    (front : place.behindTrigger = false) : place.Fits killSwitch := by
  apply fits_settled (settled_front front)
  intro behind
  rw [front] at behind
  cases behind

namespace SwitchMemory

variable {ι : Type} [DecidableEq ι]
variable {count : Nat} {memory memory' : SwitchMemory ι} {killSwitch killSwitch' : KillSwitch}
variable {late late' : Event → Finset ι} {thread : ι} {place : CallAt}

/-! ### One thread moves -/

section Moved

variable (moved : memory'.place = Function.update memory.place thread place)
include moved

theorem place_moved : memory'.place thread = place := by
  rw [moved, Function.update_self]

theorem place_other {other : ι} (apart : other ≠ thread) :
    memory'.place other = memory.place other := by
  rw [moved, Function.update_of_ne apart]

theorem forall_moved {P : ι → CallAt → Prop} (own : P thread place)
    (others : ∀ other, other ≠ thread → P other (memory.place other)) :
    ∀ other, P other (memory'.place other) := by
  intro other
  by_cases same : other = thread
  · subst same
    rw [place_moved moved]
    exact own
  · rw [place_other moved same]
    exact others other same

theorem forall_of_moved {P : CallAt → Prop} (own : P (memory.place thread))
    (after : ∀ other, P (memory'.place other)) : ∀ other, P (memory.place other) := by
  intro other
  by_cases same : other = thread
  · subst same
    exact own
  · rw [← place_other moved same]
    exact after other

theorem progress_moved :
    memory'.progress = Function.update memory.progress thread place.progress := by
  funext other
  by_cases same : other = thread
  · subst same
    rw [progress, place_moved moved, Function.update_self]
  · rw [progress, place_other moved same, Function.update_of_ne same, progress]

/-! ### The counters -/

theorem Tallied.keep (tallied : memory.Tallied count killSwitch late)
    (limits : memory'.killSwitch.limits = memory.killSwitch.limits)
    (seen : ∀ event : Event, (event.seen memory'.killSwitch.state).toNat =
      (event.seen memory.killSwitch.state).toNat)
    (inTime : (memory.place thread).late? = none) (inTime' : place.late? = none) :
    memory'.Tallied (count + 1) killSwitch late where
  limits := limits.trans tallied.limits
  listed event := by
    refine forall_moved moved (P := fun other place => other ∈ late event ↔
      place.late? = some event) ?_ fun other _ => tallied.listed event other
    rw [tallied.listed event thread, inTime, inTime']
  seen event := (seen event).trans (tallied.seen event)
  beyond := tallied.beyond
  few event := (seen event).trans_le (Nat.le_succ_of_le (tallied.few event))

section Counting

variable {event : Event} (tallied : memory.Tallied count killSwitch late)
variable (short : count + 1 < 2 ^ 64)
variable (counts : memory'.killSwitch = memory.killSwitch.counted event)
variable (inTime : (memory.place thread).late? = none)
include tallied short counts

omit moved [DecidableEq ι] in
theorem Tallied.grown (other : Event) : (other.seen memory'.killSwitch.state).toNat =
    (other.seen memory.killSwitch.state).toNat + if event = other then 1 else 0 := by
  have few := tallied.few event
  rw [counts]
  exact toNat_seen_counted _ event other (by omega)

include inTime

/-- An event beyond its limit makes the call late. -/
theorem Tallied.enter (lags : place.late? = some event)
    (exceeds : (event.limit killSwitch.limits).toNat <
      (event.seen memory.killSwitch.state).toNat + 1) :
    memory'.Tallied (count + 1) killSwitch
      (Function.update late event (insert thread (late event))) := by
  have grown := tallied.grown short counts
  have new : thread ∉ late event := by
    rw [tallied.listed event thread, inTime]
    simp
  refine ⟨?_, fun other => ?_, fun other => ?_, fun other lagging => ?_, fun other => ?_⟩
  · rw [counts, counted_limits, tallied.limits]
  · refine forall_moved moved (P := fun thread place =>
      thread ∈ Function.update late event (insert _ (late event)) other ↔
        place.late? = some other) ?_ fun thread' apart => ?_
    · by_cases same : other = event
      · subst same
        simp [lags]
      · rw [Function.update_of_ne same, tallied.listed other thread, inTime, lags]
        simp [Ne.symm same]
    · by_cases same : other = event
      · subst same
        rw [Function.update_self, Finset.mem_insert, or_iff_right apart]
        exact tallied.listed other thread'
      · rw [Function.update_of_ne same]
        exact tallied.listed other thread'
  · rw [grown, tallied.seen]
    by_cases same : event = other
    · subst same
      rw [if_pos rfl, Function.update_self, Finset.card_insert_of_notMem new]
      omega
    · rw [if_neg same, Function.update_of_ne (Ne.symm same)]
      rfl
  · by_cases same : other = event
    · subst same
      rcases (late other).eq_empty_or_nonempty with empty | lagged
      · have whole := tallied.seen other
        rw [empty, Finset.card_empty] at whole
        omega
      · exact tallied.beyond other lagged
    · rw [Function.update_of_ne same] at lagging
      exact tallied.beyond other lagging
  · have few := tallied.few other
    rw [grown]
    split <;> omega

omit moved short counts inTime in
/-- A call that is late would have found the counter at its limit. -/
theorem Tallied.nobody_late (within : ¬ (event.limit killSwitch.limits).toNat <
      (event.seen memory.killSwitch.state).toNat + 1) : late event = ∅ := by
  by_contra lags
  have full := tallied.beyond event (Finset.nonempty_iff_ne_empty.mpr lags)
  have whole := tallied.seen event
  omega

theorem Tallied.within (inTime' : place.late? = none)
    (within : ¬ (event.limit killSwitch.limits).toNat <
      (event.seen memory.killSwitch.state).toNat + 1) :
    memory'.Tallied (count + 1) (killSwitch.counted event) late ∧
      ¬ event.limit killSwitch.limits < event.seen killSwitch.state + 1 := by
  have grown := tallied.grown short counts
  have whole := tallied.seen event
  rw [tallied.nobody_late within, Finset.card_empty] at whole
  have few := tallied.few event
  have grown' := fun other => killSwitch.toNat_seen_counted event other (by omega)
  refine ⟨⟨?_, fun other => ?_, fun other => ?_, fun other lags => ?_, fun other => ?_⟩, ?_⟩
  · rw [counts, counted_limits, counted_limits, tallied.limits]
  · refine forall_moved moved (P := fun other' place => other' ∈ late other ↔
      place.late? = some other) ?_ fun other' _ => tallied.listed other other'
    rw [tallied.listed other thread, inTime, inTime']
  · rw [grown, grown', tallied.seen]
    omega
  · have full := tallied.beyond other lags
    rw [counted_limits, grown']
    omega
  · have bound := tallied.few other
    rw [grown]
    split <;> omega
  · have one := grown' event
    rw [seen_counted, beq_self_eq_true, if_pos rfl, if_pos rfl] at one
    rw [UInt64.lt_iff_toNat_lt, one]
    omega

end Counting

section Triggering

variable {cause : Cause} (tallied : memory.Tallied count killSwitch late)
variable (short : count < 2 ^ 64) (here : memory.place thread = .halting cause)
include tallied short here

omit moved in
/-- What a late call lacks the atomic switch counts when it triggers. -/
theorem Tallied.charged :
    (∀ event now, cause = .exceeded event now →
        event.limit killSwitch.limits < event.seen killSwitch.state + 1) ∧
      ∀ event : Event,
        (event.seen memory.killSwitch.state).toNat =
            (event.seen (killSwitch.charged cause).state).toNat +
              ((late event).erase thread).card ∧
          (event.seen killSwitch.state).toNat ≤
            (event.seen (killSwitch.charged cause).state).toNat := by
  have own : ∀ event : Event, thread ∈ late event ↔ (CallAt.halting cause).late? = some event := by
    intro event
    rw [tallied.listed event thread, here]
  -- only a late call is on a list
  have others : ∀ event : Event, (CallAt.halting cause).late? ≠ some event →
      (event.seen memory.killSwitch.state).toNat =
        (event.seen killSwitch.state).toNat + ((late event).erase thread).card := by
    intro event inTime
    rw [Finset.erase_eq_of_notMem fun member => inTime ((own event).mp member)]
    exact tallied.seen event
  cases cause with
  | found now =>
      exact ⟨nofun, fun event => ⟨others event (by simp [CallAt.late?]), Nat.le_refl _⟩⟩
  | asked reason now =>
      exact ⟨nofun, fun event => ⟨others event (by simp [CallAt.late?]), Nat.le_refl _⟩⟩
  | exceeded event now =>
      have member : thread ∈ late event := (own event).mpr rfl
      have lags : 0 < (late event).card := Finset.card_pos.mpr ⟨thread, member⟩
      have whole := tallied.seen event
      have few := tallied.few event
      have full := tallied.beyond event ⟨thread, member⟩
      have grown := fun other => killSwitch.toNat_seen_counted event other (by omega)
      refine ⟨?_, fun other => ?_⟩
      · intro _ _ same
        cases same
        have one := grown event
        rw [seen_counted, beq_self_eq_true, if_pos rfl, if_pos rfl] at one
        rw [UInt64.lt_iff_toNat_lt, one]
        omega
      · show _ = (other.seen (killSwitch.counted event).state).toNat + _ ∧
          _ ≤ (other.seen (killSwitch.counted event).state).toNat
        rw [grown]
        by_cases same : event = other
        · subst same
          rw [if_pos rfl, Finset.card_erase_of_mem member]
          omega
        · rw [if_neg same]
          exact ⟨others other (by simp [CallAt.late?, same]), Nat.le_refl _⟩

theorem Tallied.trigger (limits : memory'.killSwitch.limits = memory.killSwitch.limits)
    (seen : ∀ event : Event, (event.seen memory'.killSwitch.state).toNat =
      (event.seen memory.killSwitch.state).toNat)
    (inTime' : place.late? = none) :
    memory'.Tallied (count + 1) ((killSwitch.charged cause).trigger cause.reason cause.now)
      fun event => (late event).erase thread := by
  have counters := (tallied.charged short here).2
  refine ⟨?_, fun event => ?_, fun event => ?_, fun event lags => ?_, fun event => ?_⟩
  · rw [trigger_limits, charged_limits, limits, tallied.limits]
  · refine forall_moved moved (P := fun other place => other ∈ (late event).erase thread ↔
      place.late? = some event) (by simp [inTime']) fun other apart => ?_
    rw [Finset.mem_erase, and_iff_right apart]
    exact tallied.listed event other
  · rw [seen, seen_trigger]
    exact (counters event).1
  · rw [trigger_limits, charged_limits, seen_trigger]
    exact (tallied.beyond event (lags.mono (Finset.erase_subset _ _))).trans (counters event).2
  · rw [seen]
    exact Nat.le_succ_of_le (tallied.few event)

end Triggering

/-! ### The latch -/

theorem Latching.keep (latching : memory.Latching killSwitch)
    (enabled : memory'.killSwitch.state.tradingEnabled = memory.killSwitch.state.tradingEnabled)
    (reason : memory'.killSwitch.state.reason = memory.killSwitch.state.reason)
    (stamped : memory'.killSwitch.state.triggeredTsNs = memory.killSwitch.state.triggeredTsNs)
    (settled : (memory.place thread).settling? = none) (own : place.Fits killSwitch) :
    memory'.Latching killSwitch where
  enabled := enabled.trans latching.enabled
  fits := forall_moved moved own fun other _ => latching.fits other
  reason free := reason.trans (latching.reason (forall_of_moved moved
    (P := fun place => place.reasonDue = false) (CallAt.reasonDue_settled settled) free))
  stamped free := stamped.trans (latching.stamped (forall_of_moved moved
    (P := fun place => place.settling? = none) settled free))

/-- The trigger that finds trading enabled. -/
theorem Latching.first {cause : Cause} (latching : memory.Latching killSwitch)
    (stores : place = .storing cause) (enabled : memory.killSwitch.state.tradingEnabled = true)
    (disables : memory'.killSwitch.state.tradingEnabled = false)
    (off : killSwitch'.state.tradingEnabled = false)
    (latched : killSwitch'.state.reason = cause.reason ∧
      killSwitch'.state.triggeredTsNs = cause.now) : memory'.Latching killSwitch' := by
  subst stores
  refine ⟨disables.trans off.symm, ?_, fun free => ?_, fun free => ?_⟩
  · refine forall_moved moved (P := fun _ place => place.Fits killSwitch') ⟨fun _ => off, ?_⟩
      fun other _ => ?_
    · intro stored same
      cases same
      exact latched
    · -- nobody is behind a trigger while trading is enabled
      apply CallAt.fits_front
      rw [← Bool.not_eq_true]
      intro behind
      have halted := (latching.fits other).halted behind
      rw [← latching.enabled, enabled] at halted
      cases halted
  · have due := free thread
    rw [place_moved moved] at due
    cases due
  · have due := free thread
    rw [place_moved moved] at due
    cases due

/-- The store of the reason. -/
theorem Latching.stored {cause : Cause} (latching : memory.Latching killSwitch)
    (here : memory.place thread = .storing cause) (stamps : place = .stamping cause)
    (enabled : memory'.killSwitch.state.tradingEnabled = memory.killSwitch.state.tradingEnabled)
    (reason : memory'.killSwitch.state.reason = cause.reason) : memory'.Latching killSwitch := by
  subst stamps
  have fits := latching.fits thread
  rw [here] at fits
  have latched := fits.settling cause rfl
  refine ⟨enabled.trans latching.enabled, ?_, fun _ => reason.trans latched.1.symm, fun free => ?_⟩
  · refine forall_moved moved (P := fun _ place => place.Fits killSwitch) ⟨fun _ => ?_, ?_⟩
      fun other _ => latching.fits other
    · exact fits.halted rfl
    · exact fits.settling
  · have due := free thread
    rw [place_moved moved] at due
    cases due

/-- The store of the time. -/
theorem Latching.stamp {cause : Cause} (latching : memory.Latching killSwitch)
    (here : memory.place thread = .stamping cause) (settled : place.settling? = none)
    (enabled : memory'.killSwitch.state.tradingEnabled = memory.killSwitch.state.tradingEnabled)
    (reason : memory'.killSwitch.state.reason = memory.killSwitch.state.reason)
    (stamped : memory'.killSwitch.state.triggeredTsNs = cause.now) :
    memory'.Latching killSwitch := by
  have fits := latching.fits thread
  rw [here] at fits
  have latched := fits.settling cause rfl
  refine ⟨enabled.trans latching.enabled, ?_, fun free => ?_, fun _ => stamped.trans latched.2.symm⟩
  · exact forall_moved moved (CallAt.fits_settled settled fun _ => fits.halted rfl)
      fun other _ => latching.fits other
  · apply reason.trans (latching.reason (forall_of_moved moved
      (P := fun place => place.reasonDue = false) _ free))
    rw [here]
    rfl

end Moved

omit [DecidableEq ι] in
/-- The latch does not see the counters. -/
theorem Latching.congr (latching : memory.Latching killSwitch)
    (enabled : killSwitch'.state.tradingEnabled = killSwitch.state.tradingEnabled)
    (reason : killSwitch'.state.reason = killSwitch.state.reason)
    (stamped : killSwitch'.state.triggeredTsNs = killSwitch.state.triggeredTsNs) :
    memory.Latching killSwitch' := by
  refine ⟨latching.enabled.trans enabled.symm, fun thread => ⟨fun behind => ?_, fun cause settles =>
    ?_⟩, fun free => (latching.reason free).trans reason.symm,
    fun free => (latching.stamped free).trans stamped.symm⟩
  · exact enabled.trans ((latching.fits thread).halted behind)
  · rw [reason, stamped]
    exact (latching.fits thread).settling cause settles

/-! ### The accesses -/

/-- What the atomic switch does while the members go on. -/
def Matched (count : Nat) (memory : SwitchMemory ι) (killSwitch : KillSwitch)
    (after : SwitchMemory ι × Seen ι) : Prop :=
  ∃ calls killSwitch' late, Stands (count + 1) after.1 killSwitch' late ∧
    Moves answer killSwitch memory.progress after.2 calls killSwitch' after.1.progress

theorem matched_moved {history : Seen ι}
    {calls : List (Linearizability.Call ι Request (Option Bool))}
    (tallied : memory'.Tallied (count + 1) killSwitch' late')
    (latching : memory'.Latching killSwitch')
    (moved : memory'.place = Function.update memory.place thread place)
    (moves : Moves answer killSwitch memory.progress history calls killSwitch'
      (Function.update memory.progress thread place.progress)) :
    memory.Matched count killSwitch (memory', history) := by
  rw [← progress_moved moved] at moves
  exact ⟨calls, killSwitch', late', ⟨tallied, latching⟩, moves⟩

theorem moves_silent (same : place.progress = (memory.place thread).progress) :
    Moves answer killSwitch memory.progress [] [] killSwitch
      (Function.update memory.progress thread place.progress) := by
  have unchanged : Function.update memory.progress thread place.progress = memory.progress := by
    rw [same]
    exact Function.update_eq_self _ _
  rw [unchanged]
  exact .rest

theorem call_matched (stands : memory.Stands count killSwitch late) (request : Request)
    (here : memory.place thread = .idle) :
    memory.Matched count killSwitch
      (memory.goTo thread (.entered request), [.invoke thread request]) := by
  have front : (CallAt.entered request).late? = none ∧
      (CallAt.entered request).behindTrigger = false ∧
      (CallAt.entered request).progress = .invoked request := by
    cases request with
    | poll haltFile now => cases haltFile <;> exact ⟨rfl, rfl, rfl⟩
    | event happened now => exact ⟨rfl, rfl, rfl⟩
    | trigger reason now => exact ⟨rfl, rfl, rfl⟩
  obtain ⟨inTime, front, called⟩ := front
  have waiting : memory.progress thread = .idle := congrArg CallAt.progress here
  have moves : Moves answer killSwitch memory.progress [.invoke thread request] [] killSwitch
      (Function.update memory.progress thread (CallAt.entered request).progress) := by
    rw [called]
    exact .invoked thread request waiting
  have tallied : (memory.goTo thread (.entered request)).Tallied (count + 1) killSwitch late :=
    stands.tallied.keep rfl rfl (fun _ => rfl) (by rw [here]; rfl) inTime
  have latching : (memory.goTo thread (.entered request)).Latching killSwitch :=
    stands.latching.keep rfl rfl rfl rfl (by rw [here]; rfl) (CallAt.fits_front front)
  exact matched_moved tallied latching rfl moves

theorem load_matched (stands : memory.Stands count killSwitch late)
    (loads : (∃ now, memory.place thread = .loading now) ∨ memory.place thread = .reloading) :
    memory.Matched count killSwitch
      (memory.goTo thread .idle,
        [.response thread (some memory.killSwitch.state.tradingEnabled)]) := by
  have quiet : (memory.place thread).late? = none ∧ (memory.place thread).settling? = none := by
    rcases loads with ⟨now, here⟩ | here <;> rw [here] <;> exact ⟨rfl, rfl⟩
  have tallied : (memory.goTo thread .idle).Tallied (count + 1) killSwitch late :=
    stands.tallied.keep rfl rfl (fun _ => rfl) quiet.1 rfl
  have latching : (memory.goTo thread .idle).Latching killSwitch :=
    stands.latching.keep rfl rfl rfl rfl quiet.2 (CallAt.fits_front rfl)
  rcases loads with ⟨now, here⟩ | here
  · have called : memory.progress thread = .invoked (.poll false now) :=
      congrArg CallAt.progress here
    have same : killSwitch.answer (.poll false now) =
        (killSwitch, some memory.killSwitch.state.tradingEnabled) := by
      rw [stands.latching.enabled]
      rfl
    exact matched_moved tallied latching rfl (.completed thread _ _ called same)
  · have called : memory.progress thread = .effected (some false) :=
      congrArg CallAt.progress here
    have halted := (stands.latching.fits thread).halted (by rw [here]; rfl)
    rw [stands.latching.enabled, halted]
    exact matched_moved tallied latching rfl (.returned thread _ called)

/-- The `fetch_add`. -/
theorem count_matched (stands : memory.Stands count killSwitch late) (short : count + 1 < 2 ^ 64)
    (event : Event) (now : TimestampNs) (here : memory.place thread = .counting event now) :
    memory.Matched count killSwitch (memory.next thread) := by
  have called : memory.progress thread = .invoked (.event event now) :=
    congrArg CallAt.progress here
  have inTime : (memory.place thread).late? = none := by rw [here]; rfl
  have settled : (memory.place thread).settling? = none := by rw [here]; rfl
  have beyond : event.seen (memory.killSwitch.counted event).state >
        event.limit (memory.killSwitch.counted event).limits ↔
      (event.limit killSwitch.limits).toNat < (event.seen memory.killSwitch.state).toNat + 1 := by
    have few := stands.tallied.few event
    rw [gt_iff_lt, counted_limits, UInt64.lt_iff_toNat_lt, stands.tallied.limits,
      toNat_seen_counted _ event event (by omega), if_pos rfl]
  have moved : ∀ place : CallAt,
      (({ memory with killSwitch := memory.killSwitch.counted event } : SwitchMemory ι).goTo thread
        place).place = Function.update memory.place thread place := fun _ => rfl
  have latching : ∀ place : CallAt, place.behindTrigger = false →
      (({ memory with killSwitch := memory.killSwitch.counted event } : SwitchMemory ι).goTo thread
        place).Latching killSwitch :=
    fun place front => stands.latching.keep (moved place) (counted_enabled _ _) (counted_reason _ _)
      (counted_triggered _ _) settled (CallAt.fits_front front)
  unfold next
  rw [here]
  dsimp only
  by_cases exceeds : event.seen (memory.killSwitch.counted event).state >
      event.limit (memory.killSwitch.counted event).limits
  · rw [if_pos exceeds]
    have tallied := stands.tallied.enter (moved (.halting (.exceeded event now))) short rfl inTime
      rfl (beyond.mp exceeds)
    exact matched_moved tallied (latching _ rfl) (moved _)
      (moves_silent (congrArg CallAt.progress here).symm)
  · rw [if_neg exceeds]
    have ⟨tallied, within⟩ := stands.tallied.within (moved .idle) short rfl inTime rfl
      fun above => exceeds (beyond.mpr above)
    exact matched_moved tallied
      ((latching .idle rfl).congr (counted_enabled _ _) (counted_reason _ _)
        (counted_triggered _ _)) (moved _)
      (.completed thread _ _ called (answer_within _ _ _ within))

/-! ### The accesses of a trigger -/

/-- The call goes on behind its trigger, or returns. -/
theorem triggered_moves (memory : SwitchMemory ι) (killSwitch : KillSwitch) (thread : ι)
    (cause : Cause) (progress : ι → Progress Request (Option Bool))
    (ready : progress thread = .effected cause.result) :
    ∃ (place : CallAt) (history : Seen ι),
      memory.triggered thread cause = (memory.goTo thread place, history) ∧
      place.late? = none ∧ place.settling? = none ∧
      Moves answer killSwitch progress history [] killSwitch
        (Function.update progress thread place.progress) := by
  cases cause with
  | found now =>
      refine ⟨.reloading, [], rfl, rfl, rfl, ?_⟩
      have same : Function.update progress thread CallAt.reloading.progress = progress := by
        rw [Function.update_eq_self_iff]
        exact ready.symm
      rw [same]
      exact .rest
  | exceeded event now => exact ⟨.idle, _, rfl, rfl, rfl, .returned thread none ready⟩
  | asked reason now => exact ⟨.idle, _, rfl, rfl, rfl, .returned thread none ready⟩

/-- The `compare_exchange_strong`. -/
theorem halt_matched (stands : memory.Stands count killSwitch late) (short : count < 2 ^ 64)
    (cause : Cause) (here : memory.place thread = .halting cause) :
    memory.Matched count killSwitch (memory.next thread) := by
  have called : memory.progress thread = .invoked cause.request :=
    congrArg CallAt.progress here
  have answered := killSwitch.answer_cause cause (stands.tallied.charged short here).1
  have off := (killSwitch.charged cause).trigger_disables cause.reason cause.now
  have effect := Moves.effected thread _ _ called answered
  unfold next
  rw [here]
  dsimp only
  cases first : memory.killSwitch.state.tradingEnabled with
  | true =>
      have enabled : (killSwitch.charged cause).state.tradingEnabled = true :=
        (charged_enabled _ _).trans (stands.latching.enabled.symm.trans first)
      have moved : ((memory.withState { memory.killSwitch.state with tradingEnabled := false }).goTo
          thread (.storing cause)).place = Function.update memory.place thread (.storing cause) := rfl
      have tallied := stands.tallied.trigger moved short here rfl
        (fun event => seen_settings _ _ _ _ event) rfl
      have latching := stands.latching.first moved rfl first rfl off (trigger_enabled _ _ _ enabled)
      rw [if_pos rfl]
      exact matched_moved tallied latching moved effect
  | false =>
      have disabled : (killSwitch.charged cause).state.tradingEnabled = false :=
        (charged_enabled _ _).trans (stands.latching.enabled.symm.trans first)
      have same := trigger_disabled _ cause.reason cause.now disabled
      have ⟨place, history, moved, inTime, settled, moves⟩ := triggered_moves memory
        ((killSwitch.charged cause).trigger cause.reason cause.now) thread cause
        (Function.update memory.progress thread (.effected cause.result))
        (Function.update_self _ _ _)
      rw [Function.update_idem] at moves
      rw [if_neg (by decide), moved]
      have tallied : (memory.goTo thread place).Tallied (count + 1)
          ((killSwitch.charged cause).trigger cause.reason cause.now) _ :=
        stands.tallied.trigger rfl short here rfl (fun _ => rfl) inTime
      have latching : (memory.goTo thread place).Latching (killSwitch.charged cause) := by
        have fits : place.Fits killSwitch :=
          CallAt.fits_settled settled fun _ => (charged_enabled _ _).symm.trans disabled
        have kept : (memory.goTo thread place).Latching killSwitch :=
          stands.latching.keep rfl rfl rfl rfl (by rw [here]; rfl) fits
        exact kept.congr (charged_enabled _ _) (charged_reason _ _) (charged_triggered _ _)
      rw [← same] at latching
      exact matched_moved tallied latching rfl (effect.trans moves)

/-- The store of the reason. -/
theorem store_matched (stands : memory.Stands count killSwitch late) (cause : Cause)
    (here : memory.place thread = .storing cause) :
    memory.Matched count killSwitch (memory.next thread) := by
  have moved : ((memory.withState { memory.killSwitch.state with reason := cause.reason }).goTo
      thread (.stamping cause)).place = Function.update memory.place thread (.stamping cause) := rfl
  have tallied := stands.tallied.keep moved rfl (fun event => seen_settings _ _ _ _ event)
    (by rw [here]; rfl) rfl
  have latching := stands.latching.stored moved here rfl rfl rfl
  unfold next
  rw [here]
  exact matched_moved tallied latching moved (moves_silent (congrArg CallAt.progress here).symm)

/-- The store of the time. -/
theorem stamp_matched (stands : memory.Stands count killSwitch late) (cause : Cause)
    (here : memory.place thread = .stamping cause) :
    memory.Matched count killSwitch (memory.next thread) := by
  have called : memory.progress thread = .effected cause.result :=
    congrArg CallAt.progress here
  have ⟨place, history, triggered, inTime, settled, moves⟩ := triggered_moves
    (memory.withState { memory.killSwitch.state with triggeredTsNs := cause.now }) killSwitch
    thread cause memory.progress called
  have moved : ((memory.withState { memory.killSwitch.state with triggeredTsNs := cause.now }).goTo
      thread place).place = Function.update memory.place thread place := rfl
  have tallied := stands.tallied.keep moved rfl (fun event => seen_settings _ _ _ _ event)
    (by rw [here]; rfl) inTime
  have latching := stands.latching.stamp moved here settled rfl rfl rfl
  unfold next
  rw [here]
  dsimp only
  rw [triggered]
  exact matched_moved tallied latching moved moves

omit [DecidableEq ι] in
/-- Between the calls the members hold all of the switch. -/
theorem Stands.settled (stands : memory.Stands count killSwitch late)
    (quiet : ∀ thread, memory.place thread = .idle) : memory.killSwitch = killSwitch := by
  have reason := stands.latching.reason fun thread => by rw [quiet thread]; rfl
  have stamped := stands.latching.stamped fun thread => by rw [quiet thread]; rfl
  have seen : ∀ event : Event,
      event.seen memory.killSwitch.state = event.seen killSwitch.state := by
    intro event
    have none : late event = ∅ := by
      apply Finset.eq_empty_of_forall_notMem
      intro thread member
      rw [stands.tallied.listed event thread, quiet thread] at member
      cases member
    have total := stands.tallied.seen event
    rw [none, Finset.card_empty, Nat.add_zero] at total
    exact UInt64.toNat_inj.mp total
  exact congrArg₂ KillSwitch.mk stands.tallied.limits
    (state_eq stands.latching.enabled reason stamped seen)

theorem step_matched (stands : memory.Stands count killSwitch late) (short : count + 1 < 2 ^ 64)
    (access : SwitchAccess ι) : memory.Matched count killSwitch (memory.step access) := by
  have still : memory.Matched count killSwitch (memory, []) := by
    refine ⟨[], killSwitch, late, ⟨?_, stands.latching⟩, .rest⟩
    exact { stands.tallied with few := fun event => Nat.le_succ_of_le (stands.tallied.few event) }
  cases access with
  | call thread request =>
      unfold step
      dsimp only
      cases here : memory.place thread with
      | idle => exact call_matched stands request here
      | _ => exact still
  | next thread =>
      show memory.Matched count killSwitch (memory.next thread)
      cases here : memory.place thread with
      | idle =>
          unfold next
          rw [here]
          exact still
      | counting event now => exact count_matched stands short event now here
      | halting cause => exact halt_matched stands (by omega) cause here
      | storing cause => exact store_matched stands cause here
      | stamping cause => exact stamp_matched stands cause here
      | loading now =>
          unfold next
          rw [here]
          exact load_matched stands (Or.inl ⟨now, here⟩)
      | reloading =>
          unfold next
          rw [here]
          exact load_matched stands (Or.inr here)

/-! ### Whole runs -/

omit [DecidableEq ι] in
theorem sequential_run {limits : KillSwitchLimits} {killSwitch : KillSwitch}
    {calls : List (Linearizability.Call ι Request (Option Bool))}
    (sequential : Linearizability.Sequential answer { limits } calls killSwitch) :
    killSwitch = run limits (calls.map fun call => call.operation.operation) := by
  generalize fresh : ({ limits } : KillSwitch) = first at sequential
  induction sequential with
  | nil => exact fresh.symm
  | concat thread request _ ih =>
      rw [List.map_append, List.map_singleton, run_concat, ← ih]
      rfl

/-- However the accesses of any number of threads interleave, every call takes
effect at one moment between its invocation and its return, and in the order of
these moments the calls are a run of the kill switch by one thread: every thread
is returned what that run gives, trading is enabled at every moment exactly if it
is behind that run, and once no thread is in a call all members are as it leaves
them. -/
theorem calls_linearizable (limits : KillSwitchLimits) (accesses : List (SwitchAccess ι))
    (short : accesses.length < 2 ^ 64) :
    let memory := Transducer.after step (start limits) accesses
    let history := Transducer.emitted step (start limits) accesses
    ∃ (calls : List (Linearizability.Call ι Request (Option Bool))) (killSwitch : KillSwitch),
      Linearizes answer { limits } history calls killSwitch memory.progress ∧
      killSwitch = run limits (calls.map fun call => call.operation.operation) ∧
      (∀ thread, Linearizability.resultsOf thread calls =
        Linearizability.results thread history ++ (memory.progress thread).pending) ∧
      memory.killSwitch.state.tradingEnabled = killSwitch.state.tradingEnabled ∧
      ((∀ thread, memory.place thread = .idle) → memory.killSwitch = killSwitch) := by
  have begins : (start limits : SwitchMemory ι).Stands 0 { limits } fun _ => ∅ := by
    refine ⟨⟨rfl, fun event thread => ?_, fun _ => rfl, fun _ lags => ?_, fun event => ?_⟩,
      ⟨rfl, fun _ => CallAt.fits_front rfl, fun _ => rfl, fun _ => rfl⟩⟩
    · simp [start, CallAt.late?]
    · exact absurd lags Finset.not_nonempty_empty
    · cases event <;> exact Nat.le_refl 0
  obtain ⟨calls, killSwitch, progress, ⟨late, stands, same⟩, linearizes⟩ :=
    Linearizability.linearizes_of_bounded_simulation step
      (fun count memory killSwitch progress => ∃ late,
        memory.Stands count killSwitch late ∧ progress = memory.progress) (2 ^ 64 - 1)
      (fun count memory access killSwitch progress within related => by
        obtain ⟨late, stands, rfl⟩ := related
        have ⟨calls, killSwitch', late', stands', moves⟩ :=
          step_matched stands (by omega) access
        exact ⟨calls, killSwitch', _, ⟨late', stands', rfl⟩, moves⟩)
      (start limits) { limits } ⟨_, begins, rfl⟩ accesses (by omega)
  subst same
  refine ⟨calls, killSwitch, linearizes, sequential_run linearizes.sequential,
    linearizes.results_pending, stands.latching.enabled, stands.settled⟩

/-- The second reject is beyond its limit. Its thread has counted it before the
other one finds trading enabled, and takes effect behind that. -/
def lateReject : List (SwitchAccess Bool) := [
  .call false (.event .reject 10), .next false, .call true (.event .reject 11), .next true,
  .call false (.poll false 12), .next false, .next true, .next true, .next true]

theorem calls_linearizable_lateReject :
    let memory := Transducer.after step (start { maxRejectsPerRun := 1 }) lateReject
    let history := Transducer.emitted step (start { maxRejectsPerRun := 1 }) lateReject
    Linearizability.results false history = [none, some true] ∧
      memory.killSwitch.state =
        { tradingEnabled := false, reason := .maxRejectsExceeded, triggeredTsNs := 11,
          rejectsSeen := 2 } ∧
      ∃ calls : List (Linearizability.Call Bool Request (Option Bool)),
        Linearizes answer { limits := { maxRejectsPerRun := 1 } } history calls memory.killSwitch
          memory.progress ∧
        memory.killSwitch = run { maxRejectsPerRun := 1 }
          (calls.map fun call => call.operation.operation) ∧
        Linearizability.resultsOf false calls = [none, some true] := by
  intro memory history
  have returned : Linearizability.results false history = [none, some true] := by decide
  have idle : ∀ thread, memory.place thread = .idle := by decide
  obtain ⟨calls, killSwitch, linearizes, ran, results, -, settled⟩ :=
    calls_linearizable { maxRejectsPerRun := 1 } lateReject (by decide)
  rw [← settled idle] at linearizes ran
  have pending : (memory.progress false).pending = [] := by
    rw [SwitchMemory.progress, idle]
    rfl
  have same := results false
  rw [returned, pending, List.append_nil] at same
  exact ⟨returned, by decide, calls, linearizes, ran, same⟩

end SwitchMemory

end KillSwitch
end TradingPlatform
