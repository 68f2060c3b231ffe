import TradingPlatform.Library.History
import TradingPlatform.ThreadedRuntime

set_option autoImplicit false

/- The journal of the threaded runtime against the orders that are on their way:
both queues may lose messages, and neither reorders or duplicates them. -/
namespace TradingPlatform

/-- What a journal of intents and answers has to satisfy. -/
structure JournalSound (entries : List JournalEntry) : Prop where
  sequences : entries.map JournalEntry.sequence = List.range' 1 entries.length
  known : ∀ entry ∈ entries, entry.intentId ≠ none ∨ entry.answerId ≠ none
  intentOnce : (entries.filterMap JournalEntry.intentId).Nodup
  answerOnce : (entries.filterMap JournalEntry.answerId).Nodup
  answersIncrease : (entries.filterMap JournalEntry.answerId).Pairwise (· < ·)
  preceded : ∀ before entry, before ++ [entry] <+: entries →
    ∀ id ∈ entry.answerId, id ∈ before.filterMap JournalEntry.intentId

/-- A journal with its last sequence, the orders on their way from it to the
gateway and back, and the next order to be issued. -/
structure OrderTrail where
  entries : List JournalEntry
  sequence : Sequence
  transit : List ClientOrderId
  next : ClientOrderId

namespace OrderTrail

/-- What can happen to a trail: orders on their way are lost and numbers are
used up, an order is issued, or the oldest order on its way is answered. -/
inductive Step : OrderTrail → OrderTrail → Prop
  | lose (trail : OrderTrail) (transit : List ClientOrderId) (next : ClientOrderId)
      (fewer : transit.Sublist trail.transit) (later : trail.next ≤ next) :
      Step trail { trail with transit := transit, next := next }
  | issue (trail : OrderTrail) (entry : JournalEntry) (sequence : entry.sequence = trail.sequence + 1)
      (intent : entry.intentId = some trail.next) (answer : entry.answerId = none) :
      Step trail
        { entries := trail.entries ++ [entry]
          sequence := trail.sequence + 1
          transit := trail.transit ++ [trail.next]
          next := trail.next + 1 }
  | settle (trail : OrderTrail) (entry : JournalEntry) (id : ClientOrderId)
      (rest : List ClientOrderId) (sequence : entry.sequence = trail.sequence + 1)
      (oldest : trail.transit = id :: rest) (intent : entry.intentId = none)
      (answer : entry.answerId = some id) :
      Step trail
        { entries := trail.entries ++ [entry]
          sequence := trail.sequence + 1
          transit := rest
          next := trail.next }

/-- The answered orders and those on their way, oldest first, have increasing
numbers and intents in the journal. -/
structure Valid (trail : OrderTrail) : Prop where
  counted : trail.sequence = trail.entries.length
  sequences : trail.entries.map JournalEntry.sequence = List.range' 1 trail.entries.length
  known : ∀ entry ∈ trail.entries, entry.intentId ≠ none ∨ entry.answerId ≠ none
  intents : (trail.entries.filterMap JournalEntry.intentId).Pairwise (· < ·)
  issued : ∀ id ∈ trail.entries.filterMap JournalEntry.intentId, id < trail.next
  ordered : (trail.entries.filterMap JournalEntry.answerId ++ trail.transit).Pairwise (· < ·)
  intended : ∀ id ∈ trail.transit, id ∈ trail.entries.filterMap JournalEntry.intentId
  preceded : ∀ before entry, before ++ [entry] <+: trail.entries →
    ∀ id ∈ entry.answerId, id ∈ before.filterMap JournalEntry.intentId

theorem sequences_concat (entries : List JournalEntry) (entry : JournalEntry)
    (sequences : entries.map JournalEntry.sequence = List.range' 1 entries.length)
    (next : entry.sequence = entries.length + 1) :
    (entries ++ [entry]).map JournalEntry.sequence =
      List.range' 1 (entries ++ [entry]).length := by
  have length : (entries ++ [entry]).length = entries.length + 1 := by simp
  rw [length, sequences_succ, List.map_append, sequences, List.map_singleton, next]

theorem known_concat (entries : List JournalEntry) (entry : JournalEntry)
    (known : ∀ old ∈ entries, old.intentId ≠ none ∨ old.answerId ≠ none)
    (last : entry.intentId ≠ none ∨ entry.answerId ≠ none) :
    ∀ old ∈ entries ++ [entry], old.intentId ≠ none ∨ old.answerId ≠ none := by
  rw [List.forall_mem_append, List.forall_mem_singleton]
  exact ⟨known, last⟩

theorem preceded_concat (entries : List JournalEntry) (entry : JournalEntry)
    (preceded : ∀ before old, before ++ [old] <+: entries →
      ∀ id ∈ old.answerId, id ∈ before.filterMap JournalEntry.intentId)
    (last : ∀ id ∈ entry.answerId, id ∈ entries.filterMap JournalEntry.intentId) :
    ∀ before old, before ++ [old] <+: entries ++ [entry] →
      ∀ id ∈ old.answerId, id ∈ before.filterMap JournalEntry.intentId := by
  intro before old prior
  rcases List.prefix_concat_iff.mp prior with whole | earlier
  · obtain ⟨same, new⟩ := List.append_inj' whole rfl
    rw [same, List.cons.inj new |>.1]
    exact last
  · exact preceded before old earlier

/-- Whatever is answered was intended. -/
theorem Valid.answered {trail : OrderTrail} (valid : trail.Valid) :
    ∀ id ∈ trail.entries.filterMap JournalEntry.answerId,
      id ∈ trail.entries.filterMap JournalEntry.intentId := by
  intro id member
  obtain ⟨entry, recorded, answers⟩ := List.mem_filterMap.mp member
  obtain ⟨before, after, split⟩ := List.append_of_mem recorded
  have prior : before ++ [entry] <+: trail.entries :=
    ⟨after, by rw [split, List.append_assoc, List.singleton_append]⟩
  have earlier := valid.preceded before entry prior id answers
  rw [split, List.filterMap_append]
  exact List.mem_append_left _ earlier

/-- Whatever is answered or on its way is older than the next order. -/
theorem Valid.older {trail : OrderTrail} (valid : trail.Valid) :
    ∀ id ∈ trail.entries.filterMap JournalEntry.answerId ++ trail.transit, id < trail.next := by
  intro id member
  rcases List.mem_append.mp member with answered | travelling
  · exact valid.issued id (valid.answered id answered)
  · exact valid.issued id (valid.intended id travelling)

theorem Step.valid {trail next : OrderTrail} (step : Step trail next) (valid : trail.Valid) :
    next.Valid := by
  cases step with
  | lose transit next fewer later =>
      refine ⟨valid.counted, valid.sequences, valid.known, valid.intents, ?_, ?_, ?_,
        valid.preceded⟩
      · intro id member
        exact Nat.lt_of_lt_of_le (valid.issued id member) later
      · exact valid.ordered.sublist (fewer.append_left _)
      · exact fun id member => valid.intended id (fewer.subset member)
  | issue entry sequence intent answer =>
      have intents : (trail.entries ++ [entry]).filterMap JournalEntry.intentId =
          trail.entries.filterMap JournalEntry.intentId ++ [trail.next] := by
        simp [intent]
      have answers : (trail.entries ++ [entry]).filterMap JournalEntry.answerId =
          trail.entries.filterMap JournalEntry.answerId := by
        simp [answer]
      constructor
      · simp [valid.counted]
      · exact sequences_concat _ entry valid.sequences (by rw [sequence, valid.counted])
      · exact known_concat _ entry valid.known (Or.inl (by simp [intent]))
      · rw [intents]
        exact History.pairwise_concat valid.intents valid.issued
      · rw [intents, List.forall_mem_append, List.forall_mem_singleton]
        constructor
        · exact fun id member => Nat.lt_succ_of_lt (valid.issued id member)
        · exact Nat.lt_succ_self _
      · rw [answers, ← List.append_assoc]
        exact History.pairwise_concat valid.ordered valid.older
      · rw [intents]
        intro id member
        rcases List.mem_append.mp member with old | new
        · exact List.mem_append_left _ (valid.intended id old)
        · exact List.mem_append_right _ new
      · exact preceded_concat _ entry valid.preceded (by simp [answer])
  | settle entry id rest sequence oldest intent answer =>
      have intents : (trail.entries ++ [entry]).filterMap JournalEntry.intentId =
          trail.entries.filterMap JournalEntry.intentId := by
        simp [intent]
      have answers : (trail.entries ++ [entry]).filterMap JournalEntry.answerId =
          trail.entries.filterMap JournalEntry.answerId ++ [id] := by
        simp [answer]
      constructor
      · simp [valid.counted]
      · exact sequences_concat _ entry valid.sequences (by rw [sequence, valid.counted])
      · exact known_concat _ entry valid.known (Or.inr (by simp [answer]))
      · rw [intents]
        exact valid.intents
      · rw [intents]
        exact valid.issued
      · rw [answers, List.append_assoc, List.singleton_append, ← oldest]
        exact valid.ordered
      · rw [intents]
        intro other member
        exact valid.intended other (oldest ▸ List.mem_cons_of_mem id member)
      · apply preceded_concat _ entry valid.preceded
        intro other named
        have same : id = other := by simpa [answer] using named
        rw [← same]
        exact valid.intended id (oldest ▸ List.mem_cons_self)

theorem Valid.sound {trail : OrderTrail} (valid : trail.Valid) : JournalSound trail.entries where
  sequences := valid.sequences
  known := valid.known
  intentOnce := valid.intents.imp Nat.ne_of_lt
  answerOnce := (valid.ordered.sublist (List.sublist_append_left _ _)).imp Nat.ne_of_lt
  answersIncrease := valid.ordered.sublist (List.sublist_append_left _ _)
  preceded := valid.preceded

end OrderTrail

/-! ### The runtime -/

namespace OmsThread

/-- A signal that yields no order leaves the journal alone. -/
theorem onSignalMessage_none (thread : OmsThread) (message : Envelope)
    (now rejectNow : TimestampNs) (io : JournalIo)
    (none : (thread.onSignalMessage message now rejectNow io).2 = none) :
    (thread.onSignalMessage message now rejectNow io).1.journal = thread.journal ∧
      (thread.onSignalMessage message now rejectNow io).1.journalSequence =
        thread.journalSequence ∧
      thread.manager.nextClientOrderId ≤
        (thread.onSignalMessage message now rejectNow io).1.manager.nextClientOrderId := by
  cases message with
  | signal signal =>
      by_cases accepted : thread.manager.Accepts signal
      · simp [onSignalMessage, OrderManager.onSignal_accept _ _ _ _ accepted] at none
      · simp [onSignalMessage, OrderManager.onSignal_refuse _ _ _ _ accepted]
  | _ => exact ⟨rfl, rfl, Nat.le_refl _⟩

/-- A signal that yields an order records it under the next number. -/
theorem onSignalMessage_some (thread : OmsThread) (message : Envelope)
    (now rejectNow : TimestampNs) (io : JournalIo) (order : NewOrder)
    (some : (thread.onSignalMessage message now rejectNow io).2 = some order)
    (writes : thread.journal.Writes io) :
    order.clientOrderId = thread.manager.nextClientOrderId ∧
      (thread.onSignalMessage message now rejectNow io).1.journal.entries =
        thread.journal.entries ++
          [⟨.orderIntent, .newOrder order, thread.journalSequence + 1, io.now⟩] ∧
      (thread.onSignalMessage message now rejectNow io).1.journalSequence =
        thread.journalSequence + 1 ∧
      (thread.onSignalMessage message now rejectNow io).1.manager.nextClientOrderId =
        thread.manager.nextClientOrderId + 1 := by
  cases message with
  | signal signal =>
      by_cases accepted : thread.manager.Accepts signal
      · have supported : Wire.payloadSizeForType MsgType.newOrder.code ≠ 0 := by decide
        have appended := (JournalLog.append_entries thread.journal io .orderIntent
          (.newOrder (thread.manager.orderFor signal now)) (thread.journalSequence + 1)
          supported).1
        rw [if_pos writes] at appended
        have result : (thread.manager.orderFor signal now) = order := by
          simpa [onSignalMessage, OrderManager.onSignal_accept _ _ _ _ accepted] using some
        subst result
        simpa [onSignalMessage, OrderManager.onSignal_accept _ _ _ _ accepted,
          OrderManager.orderFor] using appended
      · simp [onSignalMessage, OrderManager.onSignal_refuse _ _ _ _ accepted] at some
  | _ => simp [onSignalMessage] at some

/-- A response is recorded under the order it answers. -/
theorem onGatewayMessage_answer (thread : OmsThread) (message : Envelope) (io : JournalIo)
    (id : ClientOrderId) (answers : message.answeredId = some id)
    (writes : thread.journal.Writes io) :
    ∃ entry : JournalEntry, entry.sequence = thread.journalSequence + 1 ∧
      entry.intentId = none ∧ entry.answerId = some id ∧
      (thread.onGatewayMessage message io).journal.entries =
        thread.journal.entries ++ [entry] ∧
      (thread.onGatewayMessage message io).journalSequence = thread.journalSequence + 1 := by
  cases message with
  | ack ack =>
      have supported : Wire.payloadSizeForType MsgType.ack.code ≠ 0 := by decide
      have appended := (JournalLog.append_entries thread.journal io .gatewayAck (.ack ack)
        (thread.journalSequence + 1) supported).1
      rw [if_pos writes] at appended
      exact ⟨⟨.gatewayAck, .ack ack, thread.journalSequence + 1, io.now⟩, rfl, rfl, answers,
        appended, rfl⟩
  | reject reject =>
      have supported : Wire.payloadSizeForType MsgType.reject.code ≠ 0 := by decide
      have appended := (JournalLog.append_entries thread.journal io .gatewayReject
        (.reject reject) (thread.journalSequence + 1) supported).1
      rw [if_pos writes] at appended
      exact ⟨⟨.gatewayReject, .reject reject, thread.journalSequence + 1, io.now⟩, rfl, rfl,
        answers, appended, rfl⟩
  | _ => cases answers

theorem onGatewayMessage_other (thread : OmsThread) (message : Envelope) (io : JournalIo)
    (other : message.answeredId = none) : thread.onGatewayMessage message io = thread := by
  cases message <;> first | rfl | cases other

end OmsThread

def Envelope.orderId (message : Envelope) : Option ClientOrderId :=
  message.newOrder?.map NewOrder.clientOrderId

namespace ThreadedRuntime

variable {capacity : Nat}

/-- The orders between the journal and their answers, oldest first: answers in
the queue back, the answer the gateway holds, orders in the queue to the
gateway, the order the order manager holds. -/
def transit (runtime : ThreadedRuntime capacity) : List ClientOrderId :=
  runtime.bus.gatewayToOms.contents.filterMap Envelope.answeredId ++
    (runtime.gatewayAt.held.filterMap Envelope.answeredId ++
      (runtime.bus.omsToGateway.contents.filterMap Envelope.orderId ++
        runtime.omsAt.held.map NewOrder.clientOrderId))

def trail (runtime : ThreadedRuntime capacity) : OrderTrail where
  entries := runtime.oms.journal.entries
  sequence := runtime.oms.journalSequence
  transit := runtime.transit
  next := runtime.oms.manager.nextClientOrderId

/-- A step that does not touch the journal. -/
theorem trail_lose (before after : ThreadedRuntime capacity)
    (entries : after.oms.journal.entries = before.oms.journal.entries)
    (sequence : after.oms.journalSequence = before.oms.journalSequence)
    (fewer : after.transit.Sublist before.transit)
    (later : before.oms.manager.nextClientOrderId ≤ after.oms.manager.nextClientOrderId) :
    OrderTrail.Step before.trail after.trail := by
  have step := OrderTrail.Step.lose before.trail after.transit
    after.oms.manager.nextClientOrderId fewer later
  have same : after.trail = { before.trail with
      transit := after.transit
      next := after.oms.manager.nextClientOrderId } := by
    simp [trail, entries, sequence]
  rw [same]
  exact step

theorem gatewayThread_oms (runtime : ThreadedRuntime capacity) (now : TimestampNs) :
    (runtime.gatewayThread now).1.oms = runtime.oms ∧
      (runtime.gatewayThread now).1.omsAt = runtime.omsAt := by
  unfold gatewayThread
  cases runtime.gatewayAt with
  | head =>
      cases runtime.running with
      | false => exact ⟨rfl, rfl⟩
      | true =>
          rcases runtime.bus.omsToGateway.pop_cases with
            ⟨-, pop⟩ | ⟨message, rest, next, -, pop, -, -⟩
          · simp [pop]
          · cases message with
            | newOrder order =>
                cases result : runtime.gateway.sendOrder order now with
                | mk gateway response => cases response <;> simp [pop, result]
            | _ => simp [pop]
  | pushing response => exact ⟨rfl, rfl⟩

/-- The gateway moves the oldest order on, or loses its answer. -/
theorem gatewayThread_transit (runtime : ThreadedRuntime capacity) (now : TimestampNs) :
    (runtime.gatewayThread now).1.transit.Sublist runtime.transit := by
  unfold gatewayThread
  cases phase : runtime.gatewayAt with
  | head =>
      cases runtime.running with
      | false => exact List.Sublist.refl _
      | true =>
          rcases runtime.bus.omsToGateway.pop_cases with
            ⟨-, pop⟩ | ⟨message, rest, next, waiting, pop, left, -⟩
          · simp [pop, transit, phase]
          · have shorter := (List.sublist_cons_self message rest).filterMap Envelope.orderId
            cases message with
            | newOrder order =>
                obtain ⟨answer, answered, about⟩ := runtime.gateway.stage_answer (order, now)
                cases result : runtime.gateway.sendOrder order now with
                | mk gateway response =>
                    have sent : response = some answer := by
                      simpa [ExchangeGateway.stage, result] using answered
                    subst sent
                    simp [pop, result, transit, phase, LoopAt.held, waiting, left, about,
                      Envelope.orderId, Envelope.newOrder?]
            | _ => simpa [pop, transit, phase, waiting, left] using shorter
  | pushing response =>
      rcases runtime.bus.gatewayToOms.push_cases response with
        ⟨-, next, push, contents, -⟩ | ⟨-, next, push, contents, -⟩
      · simp [push, transit, phase, contents, LoopAt.held]
      · simp [push, transit, phase, contents, LoopAt.held]

/-- One turn of the order manager issues an order, settles the oldest answer or
loses what its queue has no room for. -/
theorem omsThread_trail (runtime : ThreadedRuntime capacity) (now rejectNow : TimestampNs)
    (io : JournalIo) (writes : runtime.oms.journal.Writes io) :
    OrderTrail.Step runtime.trail (runtime.omsThread now rejectNow io).1.trail := by
  unfold omsThread
  cases phase : runtime.omsAt with
  | head =>
      cases runtime.running with
      | false => exact trail_lose runtime runtime rfl rfl (List.Sublist.refl _) (Nat.le_refl _)
      | true =>
          rcases runtime.bus.strategyToOms.pop_cases with
            ⟨-, pop⟩ | ⟨message, rest, next, -, pop, -, -⟩
          · apply trail_lose <;> simp [pop, transit, phase, OmsAt.held]
          · cases result : runtime.oms.onSignalMessage message now rejectNow io with
            | mk oms maybeOrder =>
                cases maybeOrder with
                | none =>
                    have quiet := runtime.oms.onSignalMessage_none message now rejectNow io
                      (by rw [result])
                    rw [result] at quiet
                    dsimp only at quiet
                    apply trail_lose <;> simp [pop, result, transit, phase, OmsAt.held, quiet]
                | some order =>
                    obtain ⟨number, entries, sequence, later⟩ :=
                      runtime.oms.onSignalMessage_some message now rejectNow io order
                        (by rw [result]) writes
                    rw [result] at entries sequence later
                    dsimp only at entries sequence later
                    have step := OrderTrail.Step.issue runtime.trail
                      ⟨.orderIntent, .newOrder order, runtime.oms.journalSequence + 1, io.now⟩
                      rfl (congrArg some number) rfl
                    simpa [pop, result, trail, transit, phase, OmsAt.held, entries, sequence,
                      later, number] using step
  | pushing order =>
      rcases runtime.bus.omsToGateway.push_cases (.newOrder order) with
        ⟨-, next, push, contents, -⟩ | ⟨-, next, push, contents, -⟩
      · apply trail_lose <;> simp [push, transit, phase, contents, OmsAt.held]
      · apply trail_lose <;>
          simp [push, transit, phase, contents, OmsAt.held, Envelope.orderId,
            Envelope.newOrder?]
  | responses =>
      rcases runtime.bus.gatewayToOms.pop_cases with
        ⟨-, pop⟩ | ⟨message, rest, next, waiting, pop, left, -⟩
      · apply trail_lose <;> simp [pop, transit, phase, OmsAt.held]
      · cases answers : message.answeredId with
        | none =>
            have quiet := runtime.oms.onGatewayMessage_other message io answers
            apply trail_lose <;>
              simp [pop, transit, phase, OmsAt.held, quiet, waiting, left, answers]
        | some id =>
            obtain ⟨entry, number, intent, answer, entries, sequence⟩ :=
              runtime.oms.onGatewayMessage_answer message io id answers writes
            have oldest : runtime.trail.transit = id ::
                (rest.filterMap Envelope.answeredId ++
                  (runtime.gatewayAt.held.filterMap Envelope.answeredId ++
                    (runtime.bus.omsToGateway.contents.filterMap Envelope.orderId ++
                      runtime.omsAt.held.map NewOrder.clientOrderId))) := by
              simp [trail, transit, waiting, answers]
            have step := OrderTrail.Step.settle runtime.trail entry id _ number oldest intent
              answer
            simpa [pop, trail, transit, phase, OmsAt.held, left, entries, sequence] using step

theorem marketDataThread_frame (runtime : ThreadedRuntime capacity) :
    runtime.marketDataThread.1.oms = runtime.oms ∧
      runtime.marketDataThread.1.transit = runtime.transit := by
  unfold marketDataThread
  cases runtime.running with
  | false => exact ⟨rfl, rfl⟩
  | true => cases runtime.input <;> exact ⟨rfl, rfl⟩

theorem strategyThread_frame (runtime : ThreadedRuntime capacity) (now : TimestampNs) :
    (runtime.strategyThread now).1.oms = runtime.oms ∧
      (runtime.strategyThread now).1.transit = runtime.transit := by
  unfold strategyThread
  cases runtime.strategyAt with
  | head =>
      cases runtime.running with
      | false => exact ⟨rfl, rfl⟩
      | true =>
          rcases runtime.bus.marketToStrategy.pop_cases with
            ⟨-, pop⟩ | ⟨message, rest, next, -, pop, -, -⟩
          · simp [pop, transit]
          · cases message with
            | marketData update =>
                cases result : runtime.strategy.onMarketData update now with
                | mk strategy signal => cases signal <;> simp [pop, result, transit]
            | _ => simp [pop, transit]
  | pushing signal => exact ⟨rfl, rfl⟩

/-! ### Runs -/

/-- An action whose journal append, if it makes one, succeeds. -/
def Records (runtime : ThreadedRuntime capacity) : ThreadAction → Prop
  | .oms _ _ io => runtime.oms.journal.Writes io
  | _ => True

/-- A message put into the queue of the order manager from outside. -/
def arrives (runtime : ThreadedRuntime capacity) (message : Envelope) :
    ThreadedRuntime capacity :=
  { runtime with
    bus := { runtime.bus with
      strategyToOms := (runtime.bus.strategyToOms.push message).1 } }

/-- The moments of the runs from an empty journal: any interleaving of the
threads, and besides the signals of the strategy any others. -/
inductive Reached (positive : 0 < capacity) (input : List MarketDataUpdate) :
    ThreadedRuntime capacity → Prop
  | start (io : JournalIo) : Reached positive input (start positive {} io input)
  | step (runtime : ThreadedRuntime capacity) (action : ThreadAction)
      (reached : Reached positive input runtime) (records : runtime.Records action) :
      Reached positive input (runtime.step action).1
  | signal (runtime : ThreadedRuntime capacity) (message : Envelope)
      (reached : Reached positive input runtime) :
      Reached positive input (runtime.arrives message)

theorem step_trail (runtime : ThreadedRuntime capacity) (action : ThreadAction)
    (records : runtime.Records action) :
    OrderTrail.Step runtime.trail (runtime.step action).1.trail := by
  cases action with
  | marketData =>
      have same := runtime.marketDataThread_frame
      exact trail_lose _ _ (by rw [step, same.1]) (by rw [step, same.1])
        (by rw [step, same.2]) (by rw [step, same.1])
  | strategy now =>
      have same := runtime.strategyThread_frame now
      exact trail_lose _ _ (by rw [step, same.1]) (by rw [step, same.1])
        (by rw [step, same.2]) (by rw [step, same.1])
  | oms now rejectNow io => exact runtime.omsThread_trail now rejectNow io records
  | gateway now =>
      have same := (runtime.gatewayThread_oms now).1
      have fewer := runtime.gatewayThread_transit now
      exact trail_lose _ _ (by rw [step, same]) (by rw [step, same]) fewer (by rw [step, same])
  | shutdown => exact trail_lose _ _ rfl rfl (List.Sublist.refl _) (Nat.le_refl _)

theorem reached_valid (positive : 0 < capacity) (input : List MarketDataUpdate)
    (runtime : ThreadedRuntime capacity) (reached : Reached positive input runtime) :
    runtime.trail.Valid := by
  induction reached with
  | start io =>
      have entries : (OmsThread.start {} io).journal.entries = [] := by
        cases opens : io.opens <;> simp [OmsThread.start, JournalLog.open, opens]
      have empty : (start positive {} io input).trail =
          { entries := [], sequence := 0, transit := [], next := 1 } := by
        have fresh : (OmsThread.start {} io).journalSequence = 0 ∧
            (OmsThread.start {} io).manager.nextClientOrderId = 1 := ⟨rfl, rfl⟩
        simp [trail, start, entries, fresh, transit, LocalBus.empty, LoopAt.held, OmsAt.held]
      rw [empty]
      constructor <;> simp
  | step runtime action reached records ih => exact (runtime.step_trail action records).valid ih
  | signal runtime message reached ih => exact ih

/-- At every moment of a run from an empty journal whose appends succeed, whatever
the queues drop, the journal is numbered without a gap, has at most one intent
and one answer for an order, each answer behind its intent, and the answers in
the order in which the orders were issued. -/
theorem reached_journal (positive : 0 < capacity) (input : List MarketDataUpdate)
    (runtime : ThreadedRuntime capacity) (reached : Reached positive input runtime) :
    JournalSound runtime.oms.journal.entries :=
  (reached_valid positive input runtime reached).sound

theorem reached_after {positive : 0 < capacity} {input : List MarketDataUpdate}
    {runtime : ThreadedRuntime capacity} (reached : Reached positive input runtime)
    (actions : List ThreadAction)
    (records : ∀ action ∈ actions, ∀ now : ThreadedRuntime capacity, now.Records action) :
    Reached positive input (Transducer.after step runtime actions) := by
  induction actions generalizing runtime with
  | nil => exact reached
  | cons action actions ih =>
      obtain ⟨now, later⟩ := List.forall_mem_cons.mp records
      exact ih (.step runtime action reached (now runtime)) later

/-- Queues with a single place. The second order meets the first in front of the
gateway and is dropped, then the answer to the first is journaled. -/
def firstOrder : ThreadedRuntime 2 :=
  Transducer.after step
    ((start (by decide) {} {} []).arrives (.signal { limitPx := 100, qty := 1 }))
    [.oms 1 2 {}, .oms 1 2 {}, .oms 1 2 {}]

def secondOrder : ThreadedRuntime 2 :=
  Transducer.after step (firstOrder.arrives (.signal { limitPx := 101, qty := 1 }))
    [.oms 3 4 {}, .oms 3 4 {}, .gateway 5, .gateway 5, .oms 6 7 {}]

theorem reached_journal_droppedOrder :
    JournalSound secondOrder.oms.journal.entries ∧
      secondOrder.oms.journal.entries.map (fun entry => (entry.intentId, entry.answerId)) =
        [(some 1, none), (some 2, none), (none, some 1)] ∧
      secondOrder.bus.omsToGateway.dropped = 1 := by
  have first : Reached (by decide) [] firstOrder :=
    reached_after (.signal _ _ (.start {})) _ (by simp [Records, JournalLog.Writes])
  have second : Reached (by decide) [] secondOrder :=
    reached_after (.signal _ _ first) _ (by simp [Records, JournalLog.Writes])
  exact ⟨reached_journal (by decide) [] secondOrder second, by decide, by decide⟩

end ThreadedRuntime
end TradingPlatform
