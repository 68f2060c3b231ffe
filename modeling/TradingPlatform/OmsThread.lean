import TradingPlatform.JournalLog
import TradingPlatform.Oms

set_option autoImplicit false

/- The order management thread of the threaded runtime: what one turn of its
loop does with a signal and with a gateway response it has popped. -/
namespace TradingPlatform

structure OmsThread where
  manager : OrderManager
  journal : JournalLog := {}
  journalSequence : Sequence := 0
  deriving DecidableEq

namespace OmsThread

def limits : RiskLimits where
  maxPosition := 10
  maxOrderQty := 2
  maxNotional := 1000000

/-- The thread before its loop. The journal file may hold records of earlier
runs, and nobody looks at whether it could be opened. -/
def start (journal : JournalLog) (io : JournalIo) : OmsThread where
  manager := .new 3 limits
  journal := (journal.open io).1

/-- The first half of a turn; the result is pushed to the gateway. -/
def onSignalMessage (thread : OmsThread) (message : Envelope) (now rejectNow : TimestampNs)
    (io : JournalIo) : OmsThread × Option NewOrder :=
  match message with
  | .signal signal =>
      let (manager, maybeOrder) := thread.manager.onSignal signal now rejectNow
      match maybeOrder with
      | some (.newOrder order) =>
          let journalSequence := thread.journalSequence + 1
          -- the result of the append is not looked at
          let (journal, _) := thread.journal.append io .orderIntent (.newOrder order)
            journalSequence
          ({ manager, journal, journalSequence }, some order)
      | _ => ({ thread with manager }, none)
  | _ => (thread, none)

/-- The second half of a turn. -/
def onGatewayMessage (thread : OmsThread) (message : Envelope) (io : JournalIo) : OmsThread :=
  match message with
  | .ack ack =>
      let journalSequence := thread.journalSequence + 1
      let (journal, _) := thread.journal.append io .gatewayAck (.ack ack) journalSequence
      { manager := (thread.manager.onGatewayAck ack).1, journal, journalSequence }
  | .reject reject =>
      let journalSequence := thread.journalSequence + 1
      let (journal, _) := thread.journal.append io .gatewayReject (.reject reject)
        journalSequence
      { manager := (thread.manager.onGatewayReject reject).1, journal, journalSequence }
  | _ => thread

/-- On the manager, the first half is the order stage. -/
theorem onSignalMessage_stage (thread : OmsThread) (signal : Signal)
    (now rejectNow : TimestampNs) (io : JournalIo) :
    (thread.onSignalMessage (.signal signal) now rejectNow io).1.manager =
        (thread.manager.stage (signal, now, rejectNow)).1 ∧
      (thread.onSignalMessage (.signal signal) now rejectNow io).2.toList =
        (thread.manager.stage (signal, now, rejectNow)).2 := by
  unfold onSignalMessage
  by_cases accepted : thread.manager.Accepts signal
  · simp only [OrderManager.stage_accept _ _ _ _ accepted,
      OrderManager.onSignal_accept _ _ _ _ accepted, Option.toList_some, and_self]
  · simp only [OrderManager.stage_refuse _ _ _ _ accepted,
      OrderManager.onSignal_refuse _ _ _ _ accepted, Option.toList_none, and_self]

@[simp] theorem onGatewayMessage_manager (thread : OmsThread) (message : Envelope)
    (io : JournalIo) :
    (thread.onGatewayMessage message io).manager = thread.manager.settle message := by
  cases message <;> rfl

end OmsThread

/-! ### The loop -/

/-- Where the thread is in its loop: before a signal, before the push of an
order, before a response. -/
inductive OmsAt where
  | head
  | pushing (order : NewOrder)
  | responses
  deriving DecidableEq, Repr

def OmsAt.held : OmsAt → List NewOrder
  | .pushing order => [order]
  | _ => []

structure OmsLoop where
  thread : OmsThread
  phase : OmsAt := .head
  deriving DecidableEq

/-- What the surroundings contribute to one queue operation of the loop: what a
pop delivers, whether a push finds room. -/
structure OmsTurn where
  received : Option Envelope := none
  now : TimestampNs := 0
  rejectNow : TimestampNs := 0
  io : JournalIo := {}
  room : Bool := true
  deriving DecidableEq, Repr

/-- One queue operation of the loop and the work around it; the second component
is what has been pushed to the gateway. -/
def OmsLoop.step (loop : OmsLoop) (turn : OmsTurn) : OmsLoop × List NewOrder :=
  match loop.phase with
  | .head =>
      match turn.received with
      | none => ({ loop with phase := .responses }, [])
      | some message =>
          match loop.thread.onSignalMessage message turn.now turn.rejectNow turn.io with
          | (thread, none) => ({ thread, phase := .responses }, [])
          | (thread, some order) => ({ thread, phase := .pushing order }, [])
  | .pushing order => ({ loop with phase := .responses }, if turn.room then [order] else [])
  | .responses =>
      match turn.received with
      | none => ({ loop with phase := .head }, [])
      | some message => ({ thread := loop.thread.onGatewayMessage message turn.io }, [])

end TradingPlatform
