import TradingPlatform.JournalRecovery
import TradingPlatform.Library.History
import TradingPlatform.OmsNode
import TradingPlatform.ThreadedJournal

set_option autoImplicit false

/- The live orders of both order managers after a crash: the bytes that are left
of the journal give those of an earlier moment, and lose nothing that was
complete in them. The journal is opened behind the records of earlier runs, whose
orders a run knows nothing of. -/
namespace TradingPlatform

open Journal (Appends append_adds journaled recover readEntries fileOf Tracks)
open Transducer (after)

namespace OmsNode

/-- The live orders that the journal accounts for, with the one that is about to
be journaled. -/
def accounted (node : OmsNode) : Finset ClientOrderId :=
  match node.phase with
  | .journaling order => insert order.clientOrderId (recover node.journal.entries)
  | _ => recover node.journal.entries

theorem journal_appends : Appends (fun node input => (OmsNode.step node input).1) OmsNode.journal := by
  intro node input
  have quiet : ∃ new : List JournalEntry, new.length ≤ 1 ∧ (∀ entry ∈ new, entry.call.Supported) ∧
      node.journal.entries = node.journal.entries ++ new := ⟨[], by simp, by simp, by simp⟩
  change ∃ new : List JournalEntry, new.length ≤ 1 ∧ (∀ entry ∈ new, entry.call.Supported) ∧
    (node.step input).1.journal.entries = node.journal.entries ++ new
  unfold step
  cases node.phase with
  | awaitingSignal =>
      cases input.received with
      | none => exact quiet
      | some envelope =>
          cases envelope with
          | signal signal =>
              dsimp only
              split <;> exact quiet
          | _ => exact quiet
  | journaling order => exact append_adds node.journal input.journal .orderIntent _ _
  | recording order => exact quiet
  | sending order =>
      dsimp only
      split <;> exact quiet
  | awaitingResponse => cases input.received <;> exact quiet
  | recordingResponse response => exact quiet
  | processing response =>
      cases response with
      | ack ack => exact append_adds node.journal input.journal .gatewayAck _ _
      | reject reject => exact append_adds node.journal input.journal .gatewayReject _ _
      | _ => exact quiet
  | stopped => exact quiet

section Steps

variable {node : OmsNode} {input : NodeInput} {earlier : Finset ClientOrderId}

theorem accounted_step (accounts : Tracks earlier node.manager.liveOrders node.accounted)
    (writes : node.journal.Writes input.journal) :
    Tracks earlier (node.step input).1.manager.liveOrders (node.step input).1.accounted := by
  unfold accounted at accounts
  unfold step
  cases phase : node.phase with
  | awaitingSignal =>
      rw [phase] at accounts
      cases received : input.received with
      | none => exact accounts
      | some envelope =>
          cases envelope with
          | signal signal =>
              dsimp only
              by_cases accepted : node.manager.Accepts signal
              · rw [OrderManager.onSignal_accept _ _ _ _ accepted]
                exact accounts.insert node.manager.nextClientOrderId
              · rw [OrderManager.onSignal_refuse _ _ _ _ accepted]
                simpa [accounted, phase] using accounts
          | _ => simpa [accounted, phase] using accounts
  | journaling order =>
      rw [phase] at accounts
      have entries := (node.journal.append_entries input.journal .orderIntent (.newOrder order)
        (node.journalSeq + 1) (of_decide_eq_true rfl)).1
      rw [if_pos writes] at entries
      change Tracks earlier node.manager.liveOrders (recover (node.journal.append _ _ _ _).1.entries)
      rw [entries, Journal.recover_concat]
      exact accounts
  | processing response =>
      rw [phase] at accounts
      cases response with
      | ack ack =>
          have entries := (node.journal.append_entries input.journal .gatewayAck (.ack ack)
            (node.journalSeq + 1) (of_decide_eq_true rfl)).1
          rw [if_pos writes] at entries
          change Tracks earlier node.manager.liveOrders
            (recover (node.journal.append _ _ _ _).1.entries)
          rw [entries, Journal.recover_concat]
          exact accounts
      | reject reject =>
          have entries := (node.journal.append_entries input.journal .gatewayReject
            (.reject reject) (node.journalSeq + 1) (of_decide_eq_true rfl)).1
          rw [if_pos writes] at entries
          change Tracks earlier (node.manager.liveOrders.erase _)
            (recover (node.journal.append _ _ _ _).1.entries)
          rw [entries, Journal.recover_concat]
          exact accounts.erase reject.clientOrderId
      | _ => exact accounts
  | sending order =>
      rw [phase] at accounts
      dsimp only
      split <;> exact accounts
  | awaitingResponse =>
      rw [phase] at accounts
      cases input.received <;> exact accounts
  | recording order =>
      rw [phase] at accounts
      exact accounts
  | recordingResponse response =>
      rw [phase] at accounts
      exact accounts
  | stopped =>
      rw [phase] at accounts
      simpa [accounted, phase] using accounts

/-- An order that waits for its record has just been made. -/
theorem step_journaling (order : NewOrder)
    (journaling : (node.step input).1.phase = .journaling order) :
    (node.step input).1.journal = node.journal := by
  cases phase : node.phase with
  | awaitingSignal =>
      simp only [step, phase]
      cases input.received with
      | none => rfl
      | some envelope =>
          cases envelope with
          | signal signal =>
              dsimp only
              split <;> rfl
          | _ => rfl
  | sending other => cases sends : input.sends <;> simp [step, phase, sends] at journaling
  | awaitingResponse =>
      cases received : input.received <;> simp [step, phase, received] at journaling
  | _ => simp [step, phase] at journaling

theorem accounted_appended
    (appended : (journaled (fun node input => (OmsNode.step node input).1) OmsNode.journal node
      input).2 ≠ []) :
    (node.step input).1.accounted = recover (node.step input).1.journal.entries := by
  unfold accounted
  cases phase : (node.step input).1.phase with
  | journaling order =>
      have kept := step_journaling order phase
      unfold journaled at appended
      rw [kept, List.drop_length] at appended
      exact absurd rfl appended
  | _ => rfl

end Steps

/-- The appends of a run succeed. -/
def Writes (node : OmsNode) (inputs : List NodeInput) : Prop :=
  History.Always (fun before input => (after step node before).journal.Writes input.journal) inputs

instance (node : OmsNode) (inputs : List NodeInput) : Decidable (node.Writes inputs) := by
  unfold Writes; infer_instance

theorem accounted_run (earlier : Finset ClientOrderId) (node : OmsNode) (inputs : List NodeInput)
    (begins : Tracks earlier node.manager.liveOrders node.accounted) (writes : node.Writes inputs) :
    Tracks earlier (after step node inputs).manager.liveOrders
      (after step node inputs).accounted := by
  induction inputs using List.reverseRecOn with
  | nil => exact begins
  | append_singleton inputs input ih =>
      obtain ⟨front, last⟩ := (History.always_concat _ inputs input).mp writes
      rw [Transducer.after_concat]
      exact accounted_step (ih front) last

/-- A node is stopped, and any part of the end of what it has appended to its
journal is lost. What is left gives the live orders of an earlier moment of the
run, but for orders that the records of earlier runs leave live, and every record
that was complete within what is left counts. -/
theorem crash_recovers (journal : JournalLog) (io : JournalIo) (file : List ReplayEvent)
    (opens : Bool) (inputs : List NodeInput) (cut : Nat)
    (supported : ∀ entry ∈ journal.entries, entry.call.Supported)
    (writes : (start journal io file opens).Writes inputs)
    (fits : ∀ entry ∈ (after step (start journal io file opens) inputs).journal.entries,
      entry.Fits) :
    let left := (fileOf journal.entries).length + cut
    let recovered := recover (readEntries
      ((fileOf (after step (start journal io file opens) inputs).journal.entries).take left))
    ∃ moment, moment <+: inputs ∧
      Tracks (recover journal.entries)
        (after step (start journal io file opens) moment).manager.liveOrders recovered ∧
      (recover journal.entries = ∅ →
        recovered = (after step (start journal io file opens) moment).manager.liveOrders) ∧
      ∀ earlier, earlier <+: inputs →
        (fileOf (after step (start journal io file opens) earlier).journal.entries).length ≤ left →
        (after step (start journal io file opens) earlier).journal.entries <+:
          (after step (start journal io file opens) moment).journal.entries := by
  intro left recovered
  have entries : (start journal io file opens).journal.entries = journal.entries :=
    journal.open_entries io
  have begins : Tracks (recover journal.entries)
      (start journal io file opens).manager.liveOrders
      (start journal io file opens).accounted := by
    change Tracks _ ∅ (recover (start journal io file opens).journal.entries)
    rw [entries]
    exact .start
  obtain ⟨moment, within, read, placed, kept⟩ :=
    Journal.cut_moment journal_appends (start journal io file opens) (entries ▸ supported) inputs
      cut fits
  rw [entries] at read kept
  have tracked := accounted_run _ _ moment begins (writes.earlier within)
  have same : (after step (start journal io file opens) moment).accounted = recovered := by
    refine Eq.trans ?_ (congrArg recover read).symm
    rcases placed with rfl | ⟨earlier, input, rfl, appended⟩
    · rfl
    · rw [Transducer.after_concat, Transducer.after_concat]
      exact accounted_appended appended
  rw [same] at tracked
  exact ⟨moment, within, tracked, fun none => (none ▸ tracked).exact, kept⟩

/-- What an earlier run has left: an order that nobody has answered. -/
def unansweredOrder : JournalLog where
  entries := [⟨.orderIntent, .newOrder { clientOrderId := 7, limitPx := 100, qty := 1 }, 1, 0⟩]

/-- An order is journaled, sent and refused by the gateway. -/
def refusedOrder : List NodeInput :=
  [{ received := some (.signal { limitPx := 100, qty := 1 }) }, {}, {}, {},
    { received := some (.reject { clientOrderId := 1 }) }, {}, {}]

theorem crash_recovers_refusedOrder :
    let start := start unansweredOrder {} [] true
    let left := (fileOf unansweredOrder.entries).length + 150
    let recovered := recover (readEntries
      ((fileOf (after step start refusedOrder).journal.entries).take left))
    recovered = {7, 1} ∧ (after step start refusedOrder).manager.liveOrders = ∅ ∧
      ∃ moment, moment <+: refusedOrder ∧
        Tracks (recover unansweredOrder.entries) (after step start moment).manager.liveOrders
          recovered ∧
        (recover unansweredOrder.entries = ∅ →
          recovered = (after step start moment).manager.liveOrders) ∧
        ∀ earlier, earlier <+: refusedOrder →
          (fileOf (after step start earlier).journal.entries).length ≤ left →
          (after step start earlier).journal.entries <+:
            (after step start moment).journal.entries :=
  ⟨by decide +kernel, by decide +kernel,
    crash_recovers unansweredOrder {} [] true refusedOrder 150 (by decide) (by decide +kernel)
      (by decide +kernel)⟩

end OmsNode

/-! ### The threaded runtime -/

namespace OmsThread

theorem onSignalMessage_adds (thread : OmsThread) (message : Envelope)
    (now rejectNow : TimestampNs) (io : JournalIo) :
    ∃ new : List JournalEntry, new.length ≤ 1 ∧ (∀ entry ∈ new, entry.call.Supported) ∧
      (thread.onSignalMessage message now rejectNow io).1.journal.entries =
        thread.journal.entries ++ new := by
  cases message with
  | signal signal =>
      unfold onSignalMessage
      dsimp only
      by_cases accepted : thread.manager.Accepts signal
      · rw [OrderManager.onSignal_accept _ _ _ _ accepted]
        exact append_adds thread.journal io .orderIntent _ _
      · rw [OrderManager.onSignal_refuse _ _ _ _ accepted]
        exact ⟨[], by simp, by simp, by simp⟩
  | _ => exact ⟨[], by simp, by simp, by simp [onSignalMessage]⟩

theorem onGatewayMessage_adds (thread : OmsThread) (message : Envelope) (io : JournalIo) :
    ∃ new : List JournalEntry, new.length ≤ 1 ∧ (∀ entry ∈ new, entry.call.Supported) ∧
      (thread.onGatewayMessage message io).journal.entries = thread.journal.entries ++ new := by
  cases message with
  | ack ack => exact append_adds thread.journal io .gatewayAck _ _
  | reject reject => exact append_adds thread.journal io .gatewayReject _ _
  | _ => exact ⟨[], by simp, by simp, by simp [onGatewayMessage]⟩

/-- The journal accounts for the live orders. -/
def Accounts (earlier : Finset ClientOrderId) (thread : OmsThread) : Prop :=
  Tracks earlier thread.manager.liveOrders (recover thread.journal.entries)

section Accounts

variable {earlier : Finset ClientOrderId} {thread : OmsThread}

theorem Accounts.onSignalMessage (accounts : thread.Accounts earlier)
    (message : Envelope) (now rejectNow : TimestampNs) (io : JournalIo)
    (writes : thread.journal.Writes io) :
    (thread.onSignalMessage message now rejectNow io).1.Accounts earlier := by
  cases message with
  | signal signal =>
      unfold OmsThread.onSignalMessage
      dsimp only
      by_cases accepted : thread.manager.Accepts signal
      · rw [OrderManager.onSignal_accept _ _ _ _ accepted]
        have entries := (thread.journal.append_entries io .orderIntent
          (.newOrder (thread.manager.orderFor signal now)) (thread.journalSequence + 1)
          (of_decide_eq_true rfl)).1
        rw [if_pos writes] at entries
        change Tracks earlier (insert _ _) (recover (thread.journal.append _ _ _ _).1.entries)
        rw [entries, Journal.recover_concat]
        exact accounts.insert thread.manager.nextClientOrderId
      · rw [OrderManager.onSignal_refuse _ _ _ _ accepted]
        exact accounts
  | _ => exact accounts

theorem Accounts.onGatewayMessage (accounts : thread.Accounts earlier)
    (message : Envelope) (io : JournalIo) (writes : thread.journal.Writes io) :
    (thread.onGatewayMessage message io).Accounts earlier := by
  cases message with
  | ack ack =>
      have entries := (thread.journal.append_entries io .gatewayAck (.ack ack)
        (thread.journalSequence + 1) (of_decide_eq_true rfl)).1
      rw [if_pos writes] at entries
      change Tracks earlier _ (recover (thread.journal.append _ _ _ _).1.entries)
      rw [entries, Journal.recover_concat]
      exact accounts
  | reject reject =>
      have entries := (thread.journal.append_entries io .gatewayReject (.reject reject)
        (thread.journalSequence + 1) (of_decide_eq_true rfl)).1
      rw [if_pos writes] at entries
      change Tracks earlier (thread.manager.liveOrders.erase _)
        (recover (thread.journal.append _ _ _ _).1.entries)
      rw [entries, Journal.recover_concat]
      exact accounts.erase reject.clientOrderId
  | _ => exact accounts

end Accounts

end OmsThread

namespace ThreadedRuntime

variable {capacity : Nat}

/-- What an action can do to the order management thread. -/
theorem step_oms (runtime : ThreadedRuntime capacity) (action : ThreadAction) :
    (runtime.step action).1.oms = runtime.oms ∨
      (∃ message now rejectNow io, action = .oms now rejectNow io ∧
        (runtime.step action).1.oms =
          (runtime.oms.onSignalMessage message now rejectNow io).1) ∨
      ∃ message now rejectNow io, action = .oms now rejectNow io ∧
        (runtime.step action).1.oms = runtime.oms.onGatewayMessage message io := by
  cases action with
  | marketData => exact Or.inl runtime.marketDataThread_frame.1
  | strategy now => exact Or.inl (runtime.strategyThread_frame now).1
  | gateway now => exact Or.inl (runtime.gatewayThread_oms now).1
  | shutdown => exact Or.inl rfl
  | oms now rejectNow io =>
      unfold step omsThread
      cases runtime.omsAt with
      | head =>
          dsimp only
          split
          · exact Or.inl rfl
          · rcases runtime.bus.strategyToOms.pop_cases with
              ⟨-, pop⟩ | ⟨message, rest, next, -, pop, -, -⟩
            · rw [pop]
              exact Or.inl rfl
            · rw [pop]
              refine Or.inr (Or.inl ⟨message, now, rejectNow, io, rfl, ?_⟩)
              dsimp only
              cases result : runtime.oms.onSignalMessage message now rejectNow io with
              | mk thread maybeOrder => cases maybeOrder <;> rfl
      | pushing order => exact Or.inl rfl
      | responses =>
          rcases runtime.bus.gatewayToOms.pop_cases with
            ⟨-, pop⟩ | ⟨message, rest, next, -, pop, -, -⟩
          · rw [pop]
            exact Or.inl rfl
          · rw [pop]
            exact Or.inr (Or.inr ⟨message, now, rejectNow, io, rfl, rfl⟩)

theorem journal_appends : Appends
    (fun (runtime : ThreadedRuntime capacity) action => (runtime.step action).1)
    (fun runtime => runtime.oms.journal) := by
  intro runtime action
  dsimp only
  rcases runtime.step_oms action with
    kept | ⟨message, now, rejectNow, io, -, turned⟩ | ⟨message, now, rejectNow, io, -, turned⟩
  · rw [kept]
    exact ⟨[], by simp, by simp, by simp⟩
  · rw [turned]
    exact runtime.oms.onSignalMessage_adds message now rejectNow io
  · rw [turned]
    exact runtime.oms.onGatewayMessage_adds message io

/-- The appends of a run succeed. -/
def Writes (runtime : ThreadedRuntime capacity) (actions : List ThreadAction) : Prop :=
  History.Always (fun before action => (after step runtime before).Records action) actions

theorem accounts_run (earlier : Finset ClientOrderId) (runtime : ThreadedRuntime capacity)
    (actions : List ThreadAction) (begins : runtime.oms.Accounts earlier)
    (writes : runtime.Writes actions) : (after step runtime actions).oms.Accounts earlier := by
  induction actions using List.reverseRecOn with
  | nil => exact begins
  | append_singleton actions action ih =>
      obtain ⟨front, last⟩ := (History.always_concat _ actions action).mp writes
      rw [Transducer.after_concat]
      rcases step_oms (after step runtime actions) action with
        kept | ⟨message, now, rejectNow, io, rfl, turned⟩ |
          ⟨message, now, rejectNow, io, rfl, turned⟩
      · rw [kept]
        exact ih front
      · rw [turned]
        exact (ih front).onSignalMessage message now rejectNow io last
      · rw [turned]
        exact (ih front).onGatewayMessage message io last

/-- However the threads interleave: what is left of the journal, cut anywhere behind
the records of earlier runs, gives the live orders of an earlier moment of the
run, but for orders that those records leave live, and every record that was
complete within what is left counts. -/
theorem crash_recovers_interleaved (positive : 0 < capacity) (journal : JournalLog)
    (io : JournalIo) (input : List MarketDataUpdate) (actions : List ThreadAction) (cut : Nat)
    (supported : ∀ entry ∈ journal.entries, entry.call.Supported)
    (writes : (start positive journal io input).Writes actions)
    (fits : ∀ entry ∈ (after step (start positive journal io input) actions).oms.journal.entries,
      entry.Fits) :
    let left := (fileOf journal.entries).length + cut
    let recovered := recover (readEntries
      ((fileOf (after step (start positive journal io input) actions).oms.journal.entries).take
        left))
    ∃ moment, moment <+: actions ∧
      Tracks (recover journal.entries)
        (after step (start positive journal io input) moment).oms.manager.liveOrders recovered ∧
      (recover journal.entries = ∅ →
        recovered = (after step (start positive journal io input) moment).oms.manager.liveOrders) ∧
      ∀ earlier, earlier <+: actions →
        (fileOf (after step (start positive journal io input)
          earlier).oms.journal.entries).length ≤ left →
        (after step (start positive journal io input) earlier).oms.journal.entries <+:
          (after step (start positive journal io input) moment).oms.journal.entries := by
  intro left recovered
  have entries : (OmsThread.start journal io).journal.entries = journal.entries :=
    journal.open_entries io
  have begins : (start positive journal io input).oms.Accounts (recover journal.entries) := by
    change Tracks _ ∅ (recover (OmsThread.start journal io).journal.entries)
    rw [entries]
    exact .start
  obtain ⟨moment, within, read, -, kept⟩ :=
    Journal.cut_moment journal_appends (start positive journal io input) (entries ▸ supported)
      actions cut fits
  have length : (fileOf (start positive journal io input).oms.journal.entries).length + cut = left :=
    congrArg (fun entries => (fileOf entries).length + cut) entries
  rw [length] at read kept
  have tracked := accounts_run _ _ moment begins (writes.earlier within)
  have same : recover (after step (start positive journal io input) moment).oms.journal.entries =
      recovered := (congrArg recover read).symm
  unfold OmsThread.Accounts at tracked
  rw [same] at tracked
  exact ⟨moment, within, tracked, fun none => (none ▸ tracked).exact, kept⟩

/-- A quote becomes an order that is journaled and acknowledged. -/
def acknowledgedOrder : List ThreadAction :=
  [.marketData, .strategy 0, .strategy 0, .oms 0 0 {}, .oms 0 0 {}, .gateway 0, .gateway 0,
    .oms 0 0 {}]

instance (runtime : ThreadedRuntime capacity) (action : ThreadAction) :
    Decidable (runtime.Records action) :=
  match action with
  | .oms _ _ io => inferInstanceAs (Decidable (runtime.oms.journal.Writes io))
  | .marketData | .strategy _ | .gateway _ | .shutdown => inferInstanceAs (Decidable True)

instance (runtime : ThreadedRuntime capacity) (actions : List ThreadAction) :
    Decidable (runtime.Writes actions) := by
  unfold Writes; infer_instance

theorem crash_recovers_interleaved_acknowledgedOrder :
    let start : ThreadedRuntime 4 := start (by decide) OmsNode.unansweredOrder {}
      [{ symbolId := 1, bidPx := 10000, askPx := 10005 }]
    let left := (fileOf OmsNode.unansweredOrder.entries).length + 150
    let recovered := recover (readEntries
      ((fileOf (after step start acknowledgedOrder).oms.journal.entries).take left))
    recovered = {7, 1} ∧
      ∃ moment, moment <+: acknowledgedOrder ∧
        Tracks (recover OmsNode.unansweredOrder.entries)
          (after step start moment).oms.manager.liveOrders recovered ∧
        (recover OmsNode.unansweredOrder.entries = ∅ →
          recovered = (after step start moment).oms.manager.liveOrders) ∧
        ∀ earlier, earlier <+: acknowledgedOrder →
          (fileOf (after step start earlier).oms.journal.entries).length ≤ left →
          (after step start earlier).oms.journal.entries <+:
            (after step start moment).oms.journal.entries :=
  ⟨by decide +kernel,
    crash_recovers_interleaved (by decide) OmsNode.unansweredOrder {} _ acknowledgedOrder 150
      (by decide) (by decide +kernel) (by decide +kernel)⟩

end ThreadedRuntime
end TradingPlatform
