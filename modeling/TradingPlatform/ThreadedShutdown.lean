import Mathlib.Data.List.Induction
import TradingPlatform.Library.Handover
import TradingPlatform.ThreadedRefinement

set_option autoImplicit false

/- The end of the threaded runtime. Each thread tests the flag at the head of its
loop, on its own, and whatever it does inside the loop it does without looking at
the flag again; what is still in a queue when its consumer leaves stays there. -/
namespace TradingPlatform

open Transducer

/-- Where a thread is with regard to the test of its loop. -/
inductive LoopGate where
  | test
  | inside
  | left
  deriving DecidableEq, Repr

/-- The runtime with the four loops' own positions. -/
structure ThreadedShutdown (capacity : Nat) where
  runtime : ThreadedRuntime capacity
  marketDataGate : LoopGate := .test
  strategyGate : LoopGate := .test
  omsGate : LoopGate := .test
  gatewayGate : LoopGate := .test

namespace ThreadedShutdown

open Pipeline (Output)

variable {capacity : Nat}

def start (positive : 0 < capacity) (journal : JournalLog) (io : JournalIo)
    (input : List MarketDataUpdate) : ThreadedShutdown capacity where
  runtime := .start positive journal io input

/-- The work of a thread inside its loop. -/
def work (thread : ThreadedRuntime capacity → ThreadedRuntime capacity × List Output)
    (runtime : ThreadedRuntime capacity) : ThreadedRuntime capacity × List Output :=
  let (next, outputs) := thread { runtime with running := true }
  ({ next with running := runtime.running }, outputs)

/-- One step of a thread: the test of the flag, or a piece of work, which may be
the last of this turn of the loop. -/
def turn (gate : LoopGate)
    (thread : ThreadedRuntime capacity → ThreadedRuntime capacity × List Output)
    (last : ThreadedRuntime capacity → Bool) (runtime : ThreadedRuntime capacity) :
    LoopGate × ThreadedRuntime capacity × List Output :=
  match gate with
  | .test => (if runtime.running then .inside else .left, runtime, [])
  | .inside =>
      let (next, outputs) := work thread runtime
      (if last next then .test else .inside, next, outputs)
  | .left => (.left, runtime, [])

def step (state : ThreadedShutdown capacity) :
    ThreadAction → ThreadedShutdown capacity × List Output
  | .marketData =>
      let (marketDataGate, runtime, outputs) :=
        turn state.marketDataGate ThreadedRuntime.marketDataThread (fun _ => true) state.runtime
      ({ state with runtime, marketDataGate }, outputs)
  | .strategy now =>
      let (strategyGate, runtime, outputs) :=
        turn state.strategyGate (fun runtime => runtime.strategyThread now)
          (fun next => decide (next.strategyAt = .head)) state.runtime
      ({ state with runtime, strategyGate }, outputs)
  | .oms now rejectNow io =>
      let (omsGate, runtime, outputs) :=
        turn state.omsGate (fun runtime => runtime.omsThread now rejectNow io)
          (fun next => decide (next.omsAt = .head)) state.runtime
      ({ state with runtime, omsGate }, outputs)
  | .gateway now =>
      let (gatewayGate, runtime, outputs) :=
        turn state.gatewayGate (fun runtime => runtime.gatewayThread now)
          (fun next => decide (next.gatewayAt = .head)) state.runtime
      ({ state with runtime, gatewayGate }, outputs)
  | .shutdown => ({ state with runtime := { state.runtime with running := false } }, [])

/-- All threads have left their loops. -/
structure Complete (state : ThreadedShutdown capacity) : Prop where
  marketData : state.marketDataGate = .left
  strategy : state.strategyGate = .left
  oms : state.omsGate = .left
  gateway : state.gatewayGate = .left

/-! ### Responses on their way to the journal -/

/-- The responses that the order manager has popped. -/
def settledOf (outputs : List Output) : List Envelope :=
  outputs.filterMap fun output =>
    match output with | .settled answer => some answer | _ => none

/-- The responses in `GatewayAck` and `GatewayReject` records. -/
def recordedAnswers (entries : List JournalEntry) : List Envelope :=
  entries.filterMap fun entry =>
    match entry.recordType with
    | .gatewayAck => some entry.envelope
    | .gatewayReject => some entry.envelope
    | _ => none

/-- The responses of a run, from the gateway to the journal. -/
def responses (state : ThreadedShutdown capacity) (outputs : List Output) : Handover Envelope where
  produced := Pipeline.answersOf outputs
  waiting := state.runtime.bus.gatewayToOms.contents ++ state.runtime.gatewayAt.held
  settled := settledOf outputs
  recorded := recordedAnswers state.runtime.oms.journal.entries
  closed := decide (state.omsGate = .left)

/-- What an action does to the responses. -/
def event (state : ThreadedShutdown capacity) : ThreadAction → Handover.Event Envelope
  | .oms _ _ io =>
      match state.omsGate with
      | .test => if state.runtime.running then .quiet else .close
      | .inside =>
          match state.runtime.omsAt, state.runtime.bus.gatewayToOms.contents with
          | .responses, _ :: _ => .settle (decide (state.runtime.oms.journal.Writes io))
          | _, _ => .quiet
      | .left => .quiet
  | .gateway now =>
      match state.gatewayGate with
      | .inside =>
          match state.runtime.gatewayAt, state.runtime.bus.omsToGateway.contents with
          | .pushing _, _ => if state.runtime.bus.gatewayToOms.Full then .lose else .quiet
          | .head, .newOrder order :: _ =>
              match (state.runtime.gateway.sendOrder order now).2 with
              | some answer => .produce answer
              | none => .quiet
          | .head, _ => .quiet
      | _ => .quiet
  | _ => .quiet

/-! ### Steps -/

theorem recordedAnswers_append (entries later : List JournalEntry) :
    recordedAnswers (entries ++ later) = recordedAnswers entries ++ recordedAnswers later :=
  List.filterMap_append

theorem onSignalMessage_recorded (thread : OmsThread) (message : Envelope)
    (now rejectNow : TimestampNs) (io : JournalIo) :
    recordedAnswers (thread.onSignalMessage message now rejectNow io).1.journal.entries =
      recordedAnswers thread.journal.entries := by
  cases message with
  | signal signal =>
      by_cases accepted : thread.manager.Accepts signal
      · have supported : Wire.payloadSizeForType MsgType.newOrder.code ≠ 0 := by decide
        have entries := fun order => (JournalLog.append_entries thread.journal io .orderIntent
          (.newOrder order) (thread.journalSequence + 1) supported).1
        simp only [OmsThread.onSignalMessage, OrderManager.onSignal_accept _ _ _ _ accepted]
        rw [entries, recordedAnswers_append]
        split <;> simp [recordedAnswers]
      · simp only [OmsThread.onSignalMessage, OrderManager.onSignal_refuse _ _ _ _ accepted]
  | _ => rfl

/-- A response is recorded when its append works. -/
theorem onGatewayMessage_recorded (thread : OmsThread) (message : Envelope) (io : JournalIo)
    (answers : message.answeredId ≠ none) :
    recordedAnswers (thread.onGatewayMessage message io).journal.entries =
      if thread.journal.Writes io then recordedAnswers thread.journal.entries ++ [message]
      else recordedAnswers thread.journal.entries := by
  have recorded : ∀ (kind : JournalRecordType) (sequence : Sequence),
      Wire.payloadSizeForType message.type.code ≠ 0 →
      recordedAnswers [⟨kind, message, sequence, io.now⟩] = [message] →
      recordedAnswers (thread.journal.append io kind message sequence).1.entries =
        if thread.journal.Writes io then recordedAnswers thread.journal.entries ++ [message]
        else recordedAnswers thread.journal.entries := by
    intro kind sequence supported one
    rw [(JournalLog.append_entries _ _ _ _ _ supported).1, recordedAnswers_append]
    split
    · rw [one]
    · exact List.append_nil _
  cases message with
  | ack ack =>
      have supported : Wire.payloadSizeForType MsgType.ack.code ≠ 0 := by decide
      exact recorded .gatewayAck (thread.journalSequence + 1) supported rfl
  | reject reject =>
      have supported : Wire.payloadSizeForType MsgType.reject.code ≠ 0 := by decide
      exact recorded .gatewayReject (thread.journalSequence + 1) supported rfl
  | _ => exact absurd rfl answers

/-- A piece of work that leaves the responses where they are. -/
structure Apart (before after : ThreadedRuntime capacity) (outputs : List Output) : Prop where
  waiting : after.bus.gatewayToOms.contents ++ after.gatewayAt.held =
    before.bus.gatewayToOms.contents ++ before.gatewayAt.held
  recorded : recordedAnswers after.oms.journal.entries =
    recordedAnswers before.oms.journal.entries
  answers : Pipeline.answersOf outputs = []
  settled : settledOf outputs = []

theorem Apart.idle (runtime : ThreadedRuntime capacity) : Apart runtime runtime [] :=
  ⟨rfl, rfl, rfl, rfl⟩

theorem marketDataThread_apart (runtime : ThreadedRuntime capacity) :
    Apart runtime runtime.marketDataThread.1 runtime.marketDataThread.2 := by
  unfold ThreadedRuntime.marketDataThread
  cases runtime.running with
  | false => exact .idle runtime
  | true => cases runtime.input <;> exact ⟨rfl, rfl, rfl, rfl⟩

theorem strategyThread_apart (runtime : ThreadedRuntime capacity) (now : TimestampNs) :
    Apart runtime (runtime.strategyThread now).1 (runtime.strategyThread now).2 := by
  unfold ThreadedRuntime.strategyThread
  cases runtime.strategyAt with
  | head =>
      cases runtime.running with
      | false => exact .idle runtime
      | true =>
          rcases runtime.bus.marketToStrategy.pop_cases with
            ⟨-, pop⟩ | ⟨message, rest, next, -, pop, -, -⟩
          · constructor <;> simp [pop, Pipeline.answersOf, settledOf]
          · cases message with
            | marketData update =>
                cases result : runtime.strategy.onMarketData update now with
                | mk strategy signal =>
                    cases signal <;>
                      constructor <;> simp [pop, result, Pipeline.answersOf, settledOf]
            | _ => constructor <;> simp [pop, Pipeline.answersOf, settledOf]
  | pushing signal => exact ⟨rfl, rfl, rfl, rfl⟩

/-- The order manager is not at a response that waits. -/
theorem omsThread_apart (runtime : ThreadedRuntime capacity) (now rejectNow : TimestampNs)
    (io : JournalIo)
    (elsewhere : runtime.omsAt = .responses → runtime.bus.gatewayToOms.contents = []) :
    Apart runtime (runtime.omsThread now rejectNow io).1
      (runtime.omsThread now rejectNow io).2 := by
  unfold ThreadedRuntime.omsThread
  cases phase : runtime.omsAt with
  | head =>
      cases runtime.running with
      | false => exact .idle runtime
      | true =>
          rcases runtime.bus.strategyToOms.pop_cases with
            ⟨-, pop⟩ | ⟨message, rest, next, -, pop, -, -⟩
          · constructor <;> simp [pop, Pipeline.answersOf, settledOf]
          · have recorded := onSignalMessage_recorded runtime.oms message now rejectNow io
            cases result : runtime.oms.onSignalMessage message now rejectNow io with
            | mk oms maybeOrder =>
                rw [result] at recorded
                cases maybeOrder <;>
                  constructor <;> simp [pop, result, recorded, Pipeline.answersOf, settledOf]
  | pushing order => exact ⟨rfl, rfl, rfl, rfl⟩
  | responses =>
      rcases runtime.bus.gatewayToOms.pop_cases with
        ⟨-, pop⟩ | ⟨message, rest, next, waiting, -, -, -⟩
      · constructor <;> simp [pop, Pipeline.answersOf, settledOf]
      · rw [elsewhere phase] at waiting
        cases waiting

/-- At a response that waits it takes the oldest one. -/
theorem omsThread_settles (runtime : ThreadedRuntime capacity) (now rejectNow : TimestampNs)
    (io : JournalIo) {message : Envelope} {rest : List Envelope}
    (phase : runtime.omsAt = .responses)
    (waiting : runtime.bus.gatewayToOms.contents = message :: rest) :
    (runtime.omsThread now rejectNow io).1.bus.gatewayToOms.contents = rest ∧
      (runtime.omsThread now rejectNow io).1.gatewayAt = runtime.gatewayAt ∧
      (runtime.omsThread now rejectNow io).1.oms = runtime.oms.onGatewayMessage message io ∧
      (runtime.omsThread now rejectNow io).2 = [.settled message] := by
  unfold ThreadedRuntime.omsThread
  rw [phase]
  rcases runtime.bus.gatewayToOms.pop_cases with
    ⟨empty, -⟩ | ⟨first, others, next, whole, pop, left, -⟩
  · rw [empty] at waiting
    cases waiting
  · rw [whole] at waiting
    obtain ⟨rfl, rfl⟩ := List.cons.inj waiting
    simp [pop, left]

/-- The gateway pushes what it holds, if there is room. -/
theorem gatewayThread_pushes (runtime : ThreadedRuntime capacity) (now : TimestampNs)
    {response : Envelope} (phase : runtime.gatewayAt = .pushing response) :
    (runtime.gatewayThread now).1.bus.gatewayToOms.contents ++
          (runtime.gatewayThread now).1.gatewayAt.held =
        (if runtime.bus.gatewayToOms.Full then
          (runtime.bus.gatewayToOms.contents ++ [response]).dropLast
        else runtime.bus.gatewayToOms.contents ++ [response]) ∧
      (runtime.gatewayThread now).1.oms = runtime.oms ∧
      (runtime.gatewayThread now).2 = [] := by
  unfold ThreadedRuntime.gatewayThread
  rw [phase]
  rcases runtime.bus.gatewayToOms.push_cases response with
    ⟨full, next, push, contents, -⟩ | ⟨room, next, push, contents, -⟩
  · simp [full, push, contents, LoopAt.held]
  · simp [room, push, contents, LoopAt.held]

/-- An order taken is answered at once. -/
theorem gatewayThread_answers (runtime : ThreadedRuntime capacity) (now : TimestampNs)
    {order : NewOrder} {rest : List Envelope} (phase : runtime.gatewayAt = .head)
    (running : runtime.running = true)
    (waiting : runtime.bus.omsToGateway.contents = .newOrder order :: rest) :
    ∃ answer, (runtime.gateway.sendOrder order now).2 = some answer ∧
      answer.answeredId ≠ none ∧
      (runtime.gatewayThread now).1.bus.gatewayToOms = runtime.bus.gatewayToOms ∧
      (runtime.gatewayThread now).1.gatewayAt = .pushing answer ∧
      (runtime.gatewayThread now).1.oms = runtime.oms ∧
      (runtime.gatewayThread now).2 = [.answer answer] := by
  obtain ⟨answer, answered, about⟩ := runtime.gateway.stage_answer (order, now)
  unfold ThreadedRuntime.gatewayThread
  rw [phase, running]
  rcases runtime.bus.omsToGateway.pop_cases with
    ⟨empty, -⟩ | ⟨first, others, next, whole, pop, -, -⟩
  · rw [empty] at waiting
    cases waiting
  · rw [whole] at waiting
    obtain ⟨rfl, rfl⟩ := List.cons.inj waiting
    cases result : runtime.gateway.sendOrder order now with
    | mk gateway response =>
        have sent : response = some answer := by
          simpa [ExchangeGateway.stage, result] using answered
        subst sent
        refine ⟨answer, rfl, by rw [about]; exact Option.some_ne_none _, ?_⟩
        simp [pop, result]

/-- Without an order there is nothing to answer. -/
theorem gatewayThread_apart (runtime : ThreadedRuntime capacity) (now : TimestampNs)
    (phase : runtime.gatewayAt = .head)
    (none : ∀ order rest, runtime.bus.omsToGateway.contents ≠ .newOrder order :: rest) :
    Apart runtime (runtime.gatewayThread now).1 (runtime.gatewayThread now).2 := by
  unfold ThreadedRuntime.gatewayThread
  rw [phase]
  cases runtime.running with
  | false => exact .idle runtime
  | true =>
      rcases runtime.bus.omsToGateway.pop_cases with
        ⟨-, pop⟩ | ⟨message, rest, next, whole, pop, -, -⟩
      · constructor <;> simp [pop, phase, Pipeline.answersOf, settledOf]
      · cases message with
        | newOrder order => exact absurd whole (none order rest)
        | _ => constructor <;> simp [pop, phase, Pipeline.answersOf, settledOf]

theorem responses_next (next : ThreadedShutdown capacity) (outputs new : List Output)
    {answers settled waiting recorded : List Envelope} {closed : Bool}
    (made : Pipeline.answersOf new = answers) (taken : settledOf new = settled)
    (waits : next.runtime.bus.gatewayToOms.contents ++ next.runtime.gatewayAt.held = waiting)
    (records : recordedAnswers next.runtime.oms.journal.entries = recorded)
    (gate : decide (next.omsGate = .left) = closed) :
    next.responses (outputs ++ new) = {
      produced := Pipeline.answersOf outputs ++ answers
      waiting := waiting
      settled := settledOf outputs ++ settled
      recorded := recorded
      closed := closed } := by
  have answersBoth : Pipeline.answersOf (outputs ++ new) =
      Pipeline.answersOf outputs ++ Pipeline.answersOf new := List.filterMap_append
  have settledBoth : settledOf (outputs ++ new) = settledOf outputs ++ settledOf new :=
    List.filterMap_append
  rw [responses, answersBoth, settledBoth, made, taken, waits, records, gate]

theorem responses_apart (state next : ThreadedShutdown capacity) (outputs new : List Output)
    (apart : Apart state.runtime next.runtime new)
    (gate : next.omsGate = .left ↔ state.omsGate = .left) :
    next.responses (outputs ++ new) = state.responses outputs := by
  rw [responses_next next outputs new apart.answers apart.settled apart.waiting apart.recorded
    (decide_eq_decide.mpr gate), List.append_nil, List.append_nil]
  exact rfl

/-- The runtime as a thread sees it inside its loop. -/
abbrev seen (state : ThreadedShutdown capacity) : ThreadedRuntime capacity :=
  { state.runtime with running := true }

theorem stays_inside (last : Bool) :
    (if last then LoopGate.test else LoopGate.inside) ≠ LoopGate.left := by
  cases last <;> decide

/-- The work of the order manager inside its loop. -/
theorem step_oms_inside (state : ThreadedShutdown capacity) (now rejectNow : TimestampNs)
    (io : JournalIo) (gate : state.omsGate = .inside) :
    (state.step (.oms now rejectNow io)).1.runtime =
        { (state.seen.omsThread now rejectNow io).1 with running := state.runtime.running } ∧
      (state.step (.oms now rejectNow io)).2 = (state.seen.omsThread now rejectNow io).2 ∧
      (state.step (.oms now rejectNow io)).1.omsGate ≠ .left := by
  simp only [step, turn, gate, work]
  exact ⟨trivial, trivial, stays_inside _⟩

theorem oms_responses (state : ThreadedShutdown capacity) (outputs : List Output)
    (now rejectNow : TimestampNs) (io : JournalIo)
    (about : ∀ message ∈ (state.responses outputs).waiting, message.answeredId ≠ none) :
    (state.step (.oms now rejectNow io)).1.responses
        (outputs ++ (state.step (.oms now rejectNow io)).2) =
      (state.responses outputs).apply (state.event (.oms now rejectNow io)) := by
  cases gate : state.omsGate with
  | test =>
      cases running : state.runtime.running with
      | true =>
          simp only [event, gate, running, ↓reduceIte]
          apply responses_apart
          · simpa [step, turn, gate] using Apart.idle state.runtime
          · simp [step, turn, gate, running]
      | false =>
          simp [step, turn, event, gate, running, responses, Handover.apply]
  | left =>
      simp only [event, gate]
      apply responses_apart
      · simpa [step, turn, gate] using Apart.idle state.runtime
      · simp [step, turn, gate]
  | inside =>
      obtain ⟨runtime, made, stays⟩ := state.step_oms_inside now rejectNow io gate
      have opened : (state.responses outputs).closed = false := by simp [responses, gate]
      have open' : decide ((state.step (.oms now rejectNow io)).1.omsGate = .left) = false :=
        decide_eq_false stays
      by_cases settles : state.runtime.omsAt = .responses ∧
          state.runtime.bus.gatewayToOms.contents ≠ []
      · obtain ⟨phase, some⟩ := settles
        obtain ⟨message, rest, waiting⟩ := List.exists_cons_of_ne_nil some
        obtain ⟨left, kept, oms, popped⟩ :=
          omsThread_settles state.seen now rejectNow io phase waiting
        have answers : message.answeredId ≠ none :=
          about message (by simp [responses, waiting])
        have recorded := onGatewayMessage_recorded state.runtime.oms message io answers
        have head : (state.responses outputs).waiting =
            message :: (rest ++ state.runtime.gatewayAt.held) := by simp [responses, waiting]
        have noAnswer : Pipeline.answersOf (state.step (.oms now rejectNow io)).2 = [] := by
          rw [made, popped]
          exact rfl
        have settled : settledOf (state.step (.oms now rejectNow io)).2 = [message] := by
          rw [made, popped]
          exact rfl
        simp only [event, gate, phase, waiting, Handover.apply]
        rw [Handover.settleOldest_cons _ opened head,
          responses_next _ outputs _ noAnswer settled rfl rfl open', runtime]
        simp [responses, gate, left, kept, oms, recorded]
      · have quiet : state.event (.oms now rejectNow io) = .quiet := by
          simp only [event, gate]
          split
          · rename_i phase contents
            exact absurd ⟨phase, by simp [contents]⟩ settles
          · rfl
        have apart := omsThread_apart state.seen now rejectNow io (by
          intro phase
          by_contra some
          exact settles ⟨phase, some⟩)
        rw [quiet]
        apply responses_apart
        · rw [runtime, made]
          exact ⟨apart.waiting, apart.recorded, apart.answers, apart.settled⟩
        · rw [gate]
          exact iff_of_false stays (by simp)

/-- The work of the gateway inside its loop. -/
theorem step_gateway_inside (state : ThreadedShutdown capacity) (now : TimestampNs)
    (gate : state.gatewayGate = .inside) :
    (state.step (.gateway now)).1.runtime =
        { (state.seen.gatewayThread now).1 with running := state.runtime.running } ∧
      (state.step (.gateway now)).2 = (state.seen.gatewayThread now).2 := by
  simp only [step, turn, gate, work]
  exact ⟨trivial, trivial⟩

theorem gateway_responses (state : ThreadedShutdown capacity) (outputs : List Output)
    (now : TimestampNs) :
    (state.step (.gateway now)).1.responses (outputs ++ (state.step (.gateway now)).2) =
        (state.responses outputs).apply (state.event (.gateway now)) ∧
      ∀ answer, state.event (.gateway now) = .produce answer → answer.answeredId ≠ none := by
  have stays : (state.step (.gateway now)).1.omsGate = .left ↔ state.omsGate = .left := Iff.rfl
  have closed : decide ((state.step (.gateway now)).1.omsGate = .left) =
      decide (state.omsGate = .left) := rfl
  cases gate : state.gatewayGate with
  | test =>
      simp only [event, gate]
      refine ⟨?_, fun _ same => by cases same⟩
      apply responses_apart state _ outputs _ ?_ stays
      simpa [step, turn, gate] using Apart.idle state.runtime
  | left =>
      simp only [event, gate]
      refine ⟨?_, fun _ same => by cases same⟩
      apply responses_apart state _ outputs _ ?_ stays
      simpa [step, turn, gate] using Apart.idle state.runtime
  | inside =>
      obtain ⟨runtime, made⟩ := state.step_gateway_inside now gate
      cases phase : state.runtime.gatewayAt with
      | pushing response =>
          obtain ⟨waiting, oms, nothing⟩ := gatewayThread_pushes state.seen now phase
          simp only [event, gate, phase]
          refine ⟨?_, by intro _ same; split at same <;> cases same⟩
          have noAnswer : Pipeline.answersOf (state.step (.gateway now)).2 = [] := by
            rw [made, nothing]
            exact rfl
          have noneSettled : settledOf (state.step (.gateway now)).2 = [] := by
            rw [made, nothing]
            exact rfl
          rw [responses_next _ outputs _ noAnswer noneSettled rfl rfl closed, runtime]
          dsimp only
          rw [waiting, oms]
          split <;> simp [Handover.apply, responses, phase, LoopAt.held]
      | head =>
          by_cases order : ∃ order rest,
              state.runtime.bus.omsToGateway.contents = .newOrder order :: rest
          · obtain ⟨order, rest, waiting⟩ := order
            obtain ⟨answer, sent, about, queue, held, oms, answered⟩ :=
              gatewayThread_answers state.seen now phase rfl waiting
            have produced : state.event (.gateway now) = .produce answer := by
              simp only [event, gate, phase, waiting]
              rw [sent]
            rw [produced]
            refine ⟨?_, ?_⟩
            · have oneAnswer : Pipeline.answersOf (state.step (.gateway now)).2 = [answer] := by
                rw [made, answered]
                exact rfl
              have noneSettled : settledOf (state.step (.gateway now)).2 = [] := by
                rw [made, answered]
                exact rfl
              rw [responses_next _ outputs _ oneAnswer noneSettled rfl rfl closed, runtime]
              dsimp only
              rw [queue, held, oms]
              simp [Handover.apply, responses, phase, LoopAt.held]
            · intro other same
              cases same
              exact about
          · have none : ∀ order rest,
                state.runtime.bus.omsToGateway.contents ≠ .newOrder order :: rest :=
              fun first rest waiting => order ⟨first, rest, waiting⟩
            have apart := gatewayThread_apart state.seen now phase none
            have quiet : state.event (.gateway now) = .quiet := by
              simp only [event, gate, phase]
            rw [quiet]
            refine ⟨?_, fun _ same => by cases same⟩
            refine responses_apart state _ outputs _ ?_ stays
            rw [runtime, made]
            exact ⟨apart.waiting, apart.recorded, apart.answers, apart.settled⟩

theorem oms_produces_nothing (state : ThreadedShutdown capacity) (now rejectNow : TimestampNs)
    (io : JournalIo) (answer : Envelope) :
    state.event (.oms now rejectNow io) ≠ .produce answer := by
  simp only [event]
  cases state.omsGate with
  | test => cases state.runtime.running <;> simp
  | inside =>
      dsimp only
      split <;> simp
  | left => simp

/-- Every action does to the responses what its event says. -/
theorem step_responses (state : ThreadedShutdown capacity) (outputs : List Output)
    (action : ThreadAction)
    (about : ∀ message ∈ (state.responses outputs).waiting, message.answeredId ≠ none) :
    (state.step action).1.responses (outputs ++ (state.step action).2) =
        (state.responses outputs).apply (state.event action) ∧
      ∀ message ∈ ((state.step action).1.responses (outputs ++ (state.step action).2)).waiting,
        message.answeredId ≠ none := by
  have kept : (state.step action).1.responses (outputs ++ (state.step action).2) =
        (state.responses outputs).apply (state.event action) ∧
      ∀ answer, state.event action = .produce answer → answer.answeredId ≠ none := by
    cases action with
    | marketData =>
        have apart := marketDataThread_apart state.seen
        refine ⟨?_, fun _ same => by cases same⟩
        refine responses_apart state _ outputs _ ?_ Iff.rfl
        cases gate : state.marketDataGate with
        | test => simpa [step, turn, gate] using Apart.idle state.runtime
        | left => simpa [step, turn, gate] using Apart.idle state.runtime
        | inside =>
            simp only [step, turn, gate, work]
            exact ⟨apart.waiting, apart.recorded, apart.answers, apart.settled⟩
    | strategy now =>
        have apart := strategyThread_apart state.seen now
        refine ⟨?_, fun _ same => by cases same⟩
        refine responses_apart state _ outputs _ ?_ Iff.rfl
        cases gate : state.strategyGate with
        | test => simpa [step, turn, gate] using Apart.idle state.runtime
        | left => simpa [step, turn, gate] using Apart.idle state.runtime
        | inside =>
            simp only [step, turn, gate, work]
            exact ⟨apart.waiting, apart.recorded, apart.answers, apart.settled⟩
    | oms now rejectNow io =>
        refine ⟨state.oms_responses outputs now rejectNow io about, ?_⟩
        exact fun answer same => absurd same (state.oms_produces_nothing now rejectNow io answer)
    | gateway now => exact state.gateway_responses outputs now
    | shutdown =>
        refine ⟨?_, fun _ same => by cases same⟩
        exact responses_apart state _ outputs [] ⟨rfl, rfl, rfl, rfl⟩ Iff.rfl
  refine ⟨kept.1, ?_⟩
  intro message member
  rw [kept.1] at member
  rcases Handover.mem_waiting_apply _ _ member with old | new
  · exact about message old
  · exact kept.2 message new

/-! ### Runs -/

/-- The action leaves no response behind. The order manager leaves its loop only
when no response waits and the gateway holds none, the gateway takes no order
after that and finds room for its responses, and responses that are popped are
recorded. -/
def Safe (state : ThreadedShutdown capacity) : ThreadAction → Prop
  | .oms _ _ io =>
      (state.omsGate = .test → state.runtime.running = false →
        state.runtime.bus.gatewayToOms.contents = [] ∧ state.runtime.gatewayAt = .head) ∧
      (state.omsGate = .inside → state.runtime.omsAt = .responses →
        state.runtime.bus.gatewayToOms.contents ≠ [] → state.runtime.oms.journal.Writes io)
  | .gateway _ =>
      state.gatewayGate = .inside →
        (state.runtime.gatewayAt = .head →
          (∃ order rest, state.runtime.bus.omsToGateway.contents = .newOrder order :: rest) →
          state.omsGate ≠ .left) ∧
        (state.runtime.gatewayAt ≠ .head → state.omsGate ≠ .left →
          ¬ state.runtime.bus.gatewayToOms.Full)
  | _ => True

theorem safe_iff_clean (state : ThreadedShutdown capacity) (outputs : List Output)
    (action : ThreadAction) :
    state.Safe action ↔ (state.responses outputs).Clean (state.event action) := by
  cases action with
  | oms now rejectNow io =>
      cases gate : state.omsGate with
      | test =>
          cases running : state.runtime.running with
          | true => simp [Safe, event, gate, running, Handover.Clean]
          | false =>
              cases phase : state.runtime.gatewayAt <;>
                simp [Safe, event, gate, running, Handover.Clean, responses, phase, LoopAt.held]
      | inside =>
          cases phase : state.runtime.omsAt with
          | responses =>
              cases waiting : state.runtime.bus.gatewayToOms.contents with
              | nil => simp [Safe, event, gate, phase, waiting, Handover.Clean]
              | cons message rest =>
                  simp [Safe, event, gate, phase, waiting, Handover.Clean, responses]
          | _ => simp [Safe, event, gate, phase, Handover.Clean]
      | left => simp [Safe, event, gate, Handover.Clean]
  | gateway now =>
      cases gate : state.gatewayGate with
      | inside =>
          cases phase : state.runtime.gatewayAt with
          | pushing response =>
              by_cases full : state.runtime.bus.gatewayToOms.Full
              · simp [Safe, event, gate, phase, full, Handover.Clean, responses, LoopAt.held]
              · simp [Safe, event, gate, phase, full, Handover.Clean]
          | head =>
              by_cases order : ∃ order rest,
                  state.runtime.bus.omsToGateway.contents = .newOrder order :: rest
              · obtain ⟨order, rest, waiting⟩ := order
                obtain ⟨answer, sent, -⟩ :=
                  gatewayThread_answers state.seen now phase rfl waiting
                have produced : state.event (.gateway now) = .produce answer := by
                  simp only [event, gate, phase, waiting]
                  rw [sent]
                rw [produced]
                simp [Safe, gate, phase, waiting, Handover.Clean, responses]
              · have none : ∀ order rest,
                    state.runtime.bus.omsToGateway.contents ≠ .newOrder order :: rest :=
                  fun first rest waiting => order ⟨first, rest, waiting⟩
                have quiet : state.event (.gateway now) = .quiet := by
                  simp only [event, gate, phase]
                rw [quiet]
                simp [Safe, gate, phase, none, Handover.Clean]
      | test => simp [Safe, event, gate, Handover.Clean]
      | left => simp [Safe, event, gate, Handover.Clean]
  | _ => simp [Safe, event, Handover.Clean]

section Runs

variable (positive : 0 < capacity) (journal : JournalLog) (io : JournalIo)
variable (input : List MarketDataUpdate)

/-- The state a run reaches. -/
def reached (actions : List ThreadAction) : ThreadedShutdown capacity :=
  after step (start positive journal io input) actions

/-- What has been made known by then. -/
def produced (actions : List ThreadAction) : List Output :=
  emitted step (start positive journal io input) actions

/-- What a run does to the responses. -/
structure Followed (actions : List ThreadAction) : Prop where
  about : ∀ message ∈ ((reached positive journal io input actions).responses
      (produced positive journal io input actions)).waiting, message.answeredId ≠ none
  sound : Handover.Sound (recordedAnswers journal.entries)
    ((reached positive journal io input actions).responses
      (produced positive journal io input actions))
  whole : Handover.Whole (recordedAnswers journal.entries)
      ((reached positive journal io input actions).responses
        (produced positive journal io input actions)) ↔
    ∀ before action, before ++ [action] <+: actions →
      (reached positive journal io input before).Safe action

theorem followed (actions : List ThreadAction) :
    Followed positive journal io input actions := by
  induction actions using List.reverseRecOn with
  | nil =>
      have entries : (OmsThread.start journal io).journal.entries = journal.entries := by
        unfold OmsThread.start JournalLog.open
        split
        · rfl
        · split <;> rfl
      have first : (reached positive journal io input []).responses
          (produced positive journal io input []) =
            { recorded := recordedAnswers journal.entries } := by
        simp [reached, produced, start, ThreadedRuntime.start, responses, entries,
          LocalBus.empty, LoopAt.held, Pipeline.answersOf, settledOf]
      refine ⟨?_, ?_, ?_⟩
      · rw [first]
        exact fun message member => absurd member List.not_mem_nil
      · rw [first]
        exact ⟨by simp, by simp⟩
      · rw [first]
        refine iff_of_true ⟨by simp, by simp⟩ ?_
        intro before action early
        exact absurd (List.prefix_nil.mp early) (by simp)
  | append_singleton actions last ih =>
      obtain ⟨moved, about⟩ := (reached positive journal io input actions).step_responses
        (produced positive journal io input actions) last ih.about
      have state : reached positive journal io input (actions ++ [last]) =
          ((reached positive journal io input actions).step last).1 := after_concat _ _ _ _
      have outputs : produced positive journal io input (actions ++ [last]) =
          produced positive journal io input actions ++
            ((reached positive journal io input actions).step last).2 := emitted_concat _ _ _ _
      refine ⟨?_, ?_, ?_⟩
      · rw [state, outputs]
        exact about
      · rw [state, outputs, moved]
        exact ih.sound.apply _
      · rw [state, outputs, moved, ih.sound.whole_apply, ih.whole,
          ← safe_iff_clean]
        constructor
        · rintro ⟨earlier, now⟩ before action early
          rcases List.prefix_concat_iff.mp early with whole | shorter
          · obtain ⟨rfl, same⟩ := List.append_inj' whole rfl
            rw [(List.cons.inj same).1]
            exact now
          · exact earlier before action shorter
        · intro all
          refine ⟨?_, all actions last (List.prefix_refl _)⟩
          exact fun before action early => all before action
            (early.trans (List.prefix_append _ _))

/-- Every response has been popped by the order manager and is in the journal,
behind what the journal held before. -/
structure KeepsResponses (actions : List ThreadAction) : Prop where
  popped : settledOf (produced positive journal io input actions) =
    Pipeline.answersOf (produced positive journal io input actions)
  recorded : recordedAnswers
      (reached positive journal io input actions).runtime.oms.journal.entries =
    recordedAnswers journal.entries ++
      Pipeline.answersOf (produced positive journal io input actions)

/-- When all threads have left their loops, every response is in the journal
exactly when no step of the run left one behind. -/
theorem keepsResponses_iff (actions : List ThreadAction)
    (complete : (reached positive journal io input actions).Complete) :
    KeepsResponses positive journal io input actions ↔
      ∀ before action, before ++ [action] <+: actions →
        (reached positive journal io input before).Safe action := by
  rw [← (followed positive journal io input actions).whole]
  have left := complete.oms
  constructor
  · rintro ⟨popped, recorded⟩
    refine ⟨?_, ?_⟩
    · simp [responses, left, popped]
    · simp only [responses]
      rw [recorded, popped]
  · rintro ⟨items, records⟩
    have popped : Pipeline.answersOf (produced positive journal io input actions) =
        settledOf (produced positive journal io input actions) := by
      simpa [responses, left] using items
    refine ⟨popped.symm, ?_⟩
    rw [popped]
    exact records

end Runs

/-- A quote becomes an order in `omsToGateway`. -/
def orderSent : List ThreadAction :=
  [.marketData, .marketData, .strategy 0, .strategy 0, .strategy 0, .oms 0 0 {}, .oms 0 0 {},
    .oms 0 0 {}, .oms 0 0 {}]

/-- The gateway answers it. -/
def answered : List ThreadAction := [.gateway 0, .gateway 0, .gateway 0]

/-- The order manager takes the answer, and everybody leaves. -/
def cleanEnd : List ThreadAction :=
  [.oms 0 0 {}, .oms 0 0 {}, .oms 0 0 {}, .shutdown, .oms 0 0 {}, .gateway 0, .strategy 0,
    .marketData]

/-- The order manager leaves before the gateway takes the order. -/
def earlyEnd : List ThreadAction :=
  [.gateway 0, .shutdown, .oms 0 0 {}, .gateway 0, .gateway 0, .gateway 0, .strategy 0, .marketData]

theorem keepsResponses_cleanEnd :
    KeepsResponses (by decide : 0 < 4) {} {} ThreadedRuntime.twoQuotes
        (orderSent ++ answered ++ cleanEnd) ∧
      ∀ before action, before ++ [action] <+: orderSent ++ answered ++ cleanEnd →
        (reached (by decide : 0 < 4) {} {} ThreadedRuntime.twoQuotes before).Safe action := by
  have complete : (reached (by decide : 0 < 4) {} {} ThreadedRuntime.twoQuotes
      (orderSent ++ answered ++ cleanEnd)).Complete :=
    ⟨by decide +kernel, by decide +kernel, by decide +kernel, by decide +kernel⟩
  have kept : KeepsResponses (by decide : 0 < 4) {} {} ThreadedRuntime.twoQuotes
      (orderSent ++ answered ++ cleanEnd) := ⟨by decide +kernel, by decide +kernel⟩
  exact ⟨kept, (keepsResponses_iff (by decide) {} {} ThreadedRuntime.twoQuotes _ complete).mp kept⟩

/-- The order manager has left when the gateway answers: no queue ever fills, and
the answer is never popped. -/
theorem response_left_behind :
    ¬ ∀ (capacity : Nat) (positive : 0 < capacity) (journal : JournalLog) (io : JournalIo)
        (input : List MarketDataUpdate) (actions : List ThreadAction),
      (reached positive journal io input actions).Complete →
      (reached positive journal io input actions).runtime.dropped = 0 →
        KeepsResponses positive journal io input actions := by
  intro keeps
  have kept := keeps 4 (by decide) {} {} ThreadedRuntime.twoQuotes (orderSent ++ earlyEnd)
    ⟨by decide +kernel, by decide +kernel, by decide +kernel, by decide +kernel⟩
    (by decide +kernel)
  exact absurd kept.popped (by decide +kernel)

end ThreadedShutdown
end TradingPlatform
