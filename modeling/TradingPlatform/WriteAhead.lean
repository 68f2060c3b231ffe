import TradingPlatform.OmsNode
import TradingPlatform.OmsThread

set_option autoImplicit false

/- The write-ahead rule: an order is handed to the gateway only after the intent
to send it is in the journal. Both order management loops follow it as long as
their appends work, because neither looks at what an append returns. -/
namespace TradingPlatform

open Transducer

namespace OmsNode

/-- Whenever the node hands over an order, its intent is in the journal. -/
def WriteAhead (node : OmsNode) (inputs : List NodeInput) : Prop :=
  ∀ before input, before ++ [input] <+: inputs →
    ∀ order, .newOrder order ∈ ((after step node before).step input).2 →
      (after step node before).journal.Intended order.clientOrderId

/-- The intent of every order that is handed over two steps later is written, or
was in the journal before. -/
def IntentsWritten (node : OmsNode) (inputs : List NodeInput) : Prop :=
  ∀ before journaling recording sending,
    before ++ [journaling, recording, sending] <+: inputs →
    ∀ order, (after step node before).phase = .journaling order →
      (after step node before).journal.Writes journaling.journal ∨
        (after step node before).journal.Intended order.clientOrderId

section Step

variable (node : OmsNode) (input : NodeInput) (order : NewOrder)

/-- A signal leads to an order to be journaled, or back to where it was. -/
theorem awaiting_phase (awaiting : node.phase = .awaitingSignal) :
    (node.step input).2 = [] ∧
      ((node.step input).1.phase = .stopped ∨ (node.step input).1.phase = .awaitingSignal ∨
        ∃ order, (node.step input).1.phase = .journaling order) := by
  simp only [step, awaiting]
  cases input.received with
  | none => exact ⟨rfl, Or.inl rfl⟩
  | some envelope =>
      cases envelope with
      | signal signal =>
          dsimp only
          by_cases accepted : node.manager.Accepts signal
          · rw [OrderManager.onSignal_accept _ _ _ _ accepted]
            exact ⟨rfl, Or.inr (Or.inr ⟨_, rfl⟩)⟩
          · rw [OrderManager.onSignal_refuse _ _ _ _ accepted]
            exact ⟨rfl, Or.inr (Or.inl rfl)⟩
      | _ => exact ⟨rfl, Or.inr (Or.inl awaiting)⟩

theorem step_hands (handed : .newOrder order ∈ (node.step input).2) :
    node.phase = .sending order := by
  cases phase : node.phase with
  | awaitingSignal =>
      rw [(node.awaiting_phase input phase).1] at handed
      cases handed
  | sending other =>
      have same : order = other := by
        cases sends : input.sends <;> simpa [step, phase, sends] using handed
      rw [same]
  | awaitingResponse => cases received : input.received <;> simp [step, phase, received] at handed
  | _ => simp [step, phase] at handed

theorem step_sending (sending : (node.step input).1.phase = .sending order) :
    node.phase = .recording order ∧ (node.step input).1.journal = node.journal := by
  cases phase : node.phase with
  | awaitingSignal =>
      rcases (node.awaiting_phase input phase).2 with next | next | ⟨_, next⟩ <;>
        rw [next] at sending <;> cases sending
  | recording other =>
      simp only [step, phase, OmsNodeAt.sending.injEq] at sending
      exact ⟨congrArg _ sending, by simp only [step, phase]⟩
  | sending other => cases sends : input.sends <;> simp [step, phase, sends] at sending
  | awaitingResponse => cases received : input.received <;> simp [step, phase, received] at sending
  | _ => simp [step, phase] at sending

theorem step_recording (recording : (node.step input).1.phase = .recording order) :
    node.phase = .journaling order := by
  cases phase : node.phase with
  | awaitingSignal =>
      rcases (node.awaiting_phase input phase).2 with next | next | ⟨_, next⟩ <;>
        rw [next] at recording <;> cases recording
  | journaling other =>
      simp only [step, phase, OmsNodeAt.recording.injEq] at recording
      exact congrArg _ recording
  | sending other => cases sends : input.sends <;> simp [step, phase, sends] at recording
  | awaitingResponse =>
      cases received : input.received <;> simp [step, phase, received] at recording
  | _ => simp [step, phase] at recording

theorem journaling_step (journaling : node.phase = .journaling order) :
    (node.step input).1.phase = .recording order ∧
      ((node.step input).1.journal.Intended order.clientOrderId ↔
        node.journal.Writes input.journal ∨ node.journal.Intended order.clientOrderId) := by
  simp only [step, journaling, JournalLog.record]
  exact ⟨trivial, node.journal.append_intended input.journal order (node.journalSeq + 1)⟩

theorem recording_step (recording : node.phase = .recording order) :
    (node.step input).1.phase = .sending order ∧
      (node.step input).1.journal = node.journal := by
  simp only [step, recording]
  exact ⟨trivial, trivial⟩

theorem sending_step (sending : node.phase = .sending order) :
    .newOrder order ∈ (node.step input).2 := by
  simp only [step, sending]
  cases input.sends <;> exact List.mem_singleton_self _

end Step

/-- An order on its way through the node: the state in which it is journaled,
and the one in which it is handed over. -/
theorem handed_back (node : OmsNode) (begins : node.phase = .awaitingSignal)
    (before : List NodeInput) (order : NewOrder)
    (sending : (after step node before).phase = .sending order) :
    ∃ earlier journaling recording, before = earlier ++ [journaling, recording] ∧
      (after step node earlier).phase = .journaling order := by
  rcases List.eq_nil_or_concat before with rfl | ⟨shorter, recording, rfl⟩
  · rw [after_nil, begins] at sending
    cases sending
  · rw [List.concat_eq_append, after_concat] at sending
    obtain ⟨phase, -⟩ := step_sending _ _ _ sending
    rcases List.eq_nil_or_concat shorter with rfl | ⟨earlier, journaling, rfl⟩
    · rw [after_nil, begins] at phase
      cases phase
    · rw [List.concat_eq_append, after_concat] at phase
      exact ⟨earlier, journaling, recording, by simp, step_recording _ _ _ phase⟩

theorem handed_on (node : OmsNode) (earlier : List NodeInput) (journaling recording : NodeInput)
    (order : NewOrder) (phase : (after step node earlier).phase = .journaling order) :
    (after step node (earlier ++ [journaling, recording])).phase = .sending order ∧
      ((after step node (earlier ++ [journaling, recording])).journal.Intended
          order.clientOrderId ↔
        (after step node earlier).journal.Writes journaling.journal ∨
          (after step node earlier).journal.Intended order.clientOrderId) := by
  obtain ⟨next, intended⟩ := journaling_step _ journaling order phase
  obtain ⟨last, same⟩ := recording_step _ recording order next
  rw [after_append, after_cons, after_cons, after_nil, same]
  exact ⟨last, intended⟩

theorem writeAhead_iff (node : OmsNode) (begins : node.phase = .awaitingSignal)
    (inputs : List NodeInput) : node.WriteAhead inputs ↔ node.IntentsWritten inputs := by
  refine ⟨?_, ?_⟩
  · intro ahead earlier journaling recording sending early order phase
    obtain ⟨next, intended⟩ := node.handed_on earlier journaling recording order phase
    refine intended.mp (ahead (earlier ++ [journaling, recording]) sending ?_ order
      (sending_step _ sending order next))
    rwa [List.append_assoc]
  · intro written before input early order handed
    obtain ⟨earlier, journaling, recording, rfl, phase⟩ :=
      node.handed_back begins before order (step_hands _ _ _ handed)
    refine (node.handed_on earlier journaling recording order phase).2.mpr
      (written earlier journaling recording input ?_ order phase)
    rwa [List.append_assoc] at early

end OmsNode

namespace OmsLoop

/-- Whenever the loop hands over an order, its intent is in the journal. -/
def WriteAhead (loop : OmsLoop) (turns : List OmsTurn) : Prop :=
  ∀ before turn, before ++ [turn] <+: turns →
    ∀ order ∈ ((after step loop before).step turn).2,
      (after step loop before).thread.journal.Intended order.clientOrderId

/-- The intent of every order that the next push hands over is written, or was
in the journal before. -/
def IntentsWritten (loop : OmsLoop) (turns : List OmsTurn) : Prop :=
  ∀ before popping pushing, before ++ [popping, pushing] <+: turns →
    (after step loop before).phase = .head → pushing.room = true →
    ∀ signal, popping.received = some (.signal signal) →
      (after step loop before).thread.manager.Accepts signal →
      (after step loop before).thread.journal.Writes popping.io ∨
        (after step loop before).thread.journal.Intended
          (after step loop before).thread.manager.nextClientOrderId

section Step

variable (loop : OmsLoop) (turn : OmsTurn)

theorem popping_step (signal : Signal) (head : loop.phase = .head)
    (received : turn.received = some (.signal signal))
    (accepted : loop.thread.manager.Accepts signal) :
    (loop.step turn).1.phase = .pushing (loop.thread.manager.orderFor signal turn.now) ∧
      ((loop.step turn).1.thread.journal.Intended loop.thread.manager.nextClientOrderId ↔
        loop.thread.journal.Writes turn.io ∨
          loop.thread.journal.Intended loop.thread.manager.nextClientOrderId) := by
  simp only [step, head, received, OmsThread.onSignalMessage,
    OrderManager.onSignal_accept _ _ _ _ accepted]
  exact ⟨trivial, loop.thread.journal.append_intended turn.io
    (loop.thread.manager.orderFor signal turn.now) (loop.thread.journalSequence + 1)⟩

/-- Only an accepted signal leads to a push. -/
theorem step_pushing (order : NewOrder) (pushing : (loop.step turn).1.phase = .pushing order) :
    loop.phase = .head ∧ ∃ signal, turn.received = some (.signal signal) ∧
      loop.thread.manager.Accepts signal ∧
      order = loop.thread.manager.orderFor signal turn.now := by
  cases phase : loop.phase with
  | head =>
      refine ⟨rfl, ?_⟩
      cases received : turn.received with
      | none => simp [step, phase, received] at pushing
      | some message =>
          cases message with
          | signal signal =>
              by_cases accepted : loop.thread.manager.Accepts signal
              · obtain ⟨next, -⟩ := loop.popping_step turn signal phase received accepted
                rw [next] at pushing
                exact ⟨signal, rfl, accepted, (OmsAt.pushing.inj pushing).symm⟩
              · simp [step, phase, received, OmsThread.onSignalMessage,
                  OrderManager.onSignal_refuse _ _ _ _ accepted] at pushing
          | _ => simp [step, phase, received, OmsThread.onSignalMessage] at pushing
  | pushing other => simp [step, phase] at pushing
  | responses => cases received : turn.received <;> simp [step, phase, received] at pushing

theorem step_hands (order : NewOrder) :
    order ∈ (loop.step turn).2 ↔ loop.phase = .pushing order ∧ turn.room = true := by
  cases phase : loop.phase with
  | head =>
      cases received : turn.received with
      | none => simp [step, phase, received]
      | some message =>
          cases result : loop.thread.onSignalMessage message turn.now turn.rejectNow turn.io with
          | mk thread maybeOrder => cases maybeOrder <;> simp [step, phase, received, result]
  | pushing other => cases room : turn.room <;> simp [step, phase, room, eq_comm]
  | responses => cases received : turn.received <;> simp [step, phase, received]

end Step

theorem writeAhead_iff (loop : OmsLoop) (begins : loop.phase = .head) (turns : List OmsTurn) :
    loop.WriteAhead turns ↔ loop.IntentsWritten turns := by
  refine ⟨?_, ?_⟩
  · intro ahead before popping pushing early head room signal received accepted
    obtain ⟨next, intended⟩ := popping_step _ popping signal head received accepted
    rw [← after_concat] at next intended
    refine intended.mp (ahead (before ++ [popping]) pushing ?_ _
      ((step_hands _ _ _).mpr ⟨next, room⟩))
    rwa [List.append_assoc]
  · intro written before pushing early order handed
    obtain ⟨phase, room⟩ := (step_hands _ _ _).mp handed
    rcases List.eq_nil_or_concat before with rfl | ⟨earlier, popping, rfl⟩
    · rw [after_nil, begins] at phase
      cases phase
    · rw [List.concat_eq_append] at early phase ⊢
      rw [after_concat] at phase ⊢
      obtain ⟨head, signal, received, accepted, rfl⟩ := step_pushing _ _ _ phase
      refine (popping_step _ popping signal head received accepted).2.mpr
        (written earlier popping pushing ?_ head room signal received accepted)
      rwa [List.append_assoc] at early

end OmsLoop

/-! ### The write-ahead rule -/

/-- Every order handed over has been journaled exactly when the appends of the
intents worked. -/
theorem write_ahead_iff (journal : JournalLog) (io : JournalIo) (file : List ReplayEvent)
    (opens : Bool) (inputs : List NodeInput) (turns : List OmsTurn) :
    ((OmsNode.start journal io file opens).WriteAhead inputs ↔
        (OmsNode.start journal io file opens).IntentsWritten inputs) ∧
      (OmsLoop.WriteAhead { thread := .start journal io } turns ↔
        OmsLoop.IntentsWritten { thread := .start journal io } turns) :=
  ⟨OmsNode.writeAhead_iff _ rfl inputs, OmsLoop.writeAhead_iff _ rfl turns⟩

/-- A signal to buy one. -/
def buyOne : Signal := { symbolId := 1, side := .buy, limitPx := 10001, qty := 1 }

/-- The intent cannot be appended, and the order is sent all the same. -/
theorem order_sent_unjournaled :
    ¬ (OmsNode.start {} {} [] true).WriteAhead
        [{ received := some (.signal buyOne) }, { journal := { writes := false } }, {}, {}] ∧
      ¬ OmsLoop.WriteAhead { thread := .start {} {} }
        [{ received := some (.signal buyOne), io := { writes := false } }, {}] := by
  refine ⟨?_, ?_⟩
  · intro ahead
    have journaled := ahead
      [{ received := some (.signal buyOne) }, { journal := { writes := false } }, {}] {}
      (List.prefix_refl _) ((OrderManager.new 3 OmsNode.limits).orderFor buyOne 0)
      (by decide +kernel)
    exact absurd journaled (by decide +kernel)
  · intro ahead
    have journaled := ahead
      [{ received := some (.signal buyOne), io := { writes := false } }] {}
      (List.prefix_refl _) ((OrderManager.new 3 OmsThread.limits).orderFor buyOne 0)
      (by decide +kernel)
    exact absurd journaled (by decide +kernel)

end TradingPlatform
