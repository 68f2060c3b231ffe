import Mathlib.Data.List.Perm.Subperm
import TradingPlatform.ThreadedRefinement

set_option autoImplicit false

/- Who knows about a live order. Every order on its way, and the response to it,
is live under its own identifier; a message lost on the way leaves an order live
that nobody will answer. -/
namespace TradingPlatform

open Transducer

namespace Pipeline

/-- The identifiers on their way to the gateway or back. -/
def flight (pipeline : Pipeline) : List ClientOrderId :=
  pipeline.orders.map NewOrder.clientOrderId ++ pipeline.answers.filterMap Envelope.answeredId

/-- Every live order is on its way or acknowledged. -/
def Accounted (pipeline : Pipeline) (acked : List ClientOrderId) : Prop :=
  ∀ id ∈ pipeline.oms.liveOrders, id ∈ pipeline.flight ∨ id ∈ acked

/-- Identifiers on their way are distinct, live, and neither acknowledged nor
still to be issued. -/
structure Tracked (pipeline : Pipeline) (acked : List ClientOrderId) : Prop where
  distinct : pipeline.flight.Nodup
  live : ∀ id ∈ pipeline.flight, id ∈ pipeline.oms.liveOrders
  unacked : ∀ id ∈ pipeline.flight, id ∉ acked
  issued : ∀ id ∈ pipeline.flight, id < pipeline.oms.nextClientOrderId
  ackedIssued : ∀ id ∈ acked, id < pipeline.oms.nextClientOrderId

/-- Fewer identifiers on their way, in any order. -/
theorem Tracked.of_subperm {pipeline : Pipeline} {acked : List ClientOrderId}
    (tracked : pipeline.Tracked acked) (next : Pipeline)
    (fewer : next.flight.Subperm pipeline.flight) (oms : next.oms = pipeline.oms) :
    next.Tracked acked := by
  obtain ⟨kept, same, sub⟩ := fewer
  refine ⟨same.nodup_iff.mp (tracked.distinct.sublist sub), ?_, ?_, ?_, ?_⟩
  · intro id member
    rw [oms]
    exact tracked.live id (sub.subset (same.mem_iff.mpr member))
  · exact fun id member => tracked.unacked id (sub.subset (same.mem_iff.mpr member))
  · intro id member
    rw [oms]
    exact tracked.issued id (sub.subset (same.mem_iff.mpr member))
  · rw [oms]
    exact tracked.ackedIssued

@[simp] theorem ackedOf_nil : ackedOf [] = [] := rfl

theorem ackedOf_append (first second : List Output) :
    ackedOf (first ++ second) = ackedOf first ++ ackedOf second := by
  simp [ackedOf]

@[simp] theorem ackedOf_signals (signals : List Signal) : ackedOf (signals.map .signal) = [] := by
  simp [ackedOf, List.filterMap_map]

@[simp] theorem ackedOf_orders (orders : List NewOrder) : ackedOf (orders.map .order) = [] := by
  simp [ackedOf, List.filterMap_map]

@[simp] theorem ackedOf_answers (answers : List Envelope) :
    ackedOf (answers.map .answer) = [] := by
  simp [ackedOf, List.filterMap_map]

/-! ### The order manager -/

section OrderManager

variable (pipeline : Pipeline) (acked : List ClientOrderId)

/-- A signal adds at most the next identifier. -/
theorem order_flight (signal : Signal) (rest : List Signal) (now rejectNow : TimestampNs)
    (waiting : pipeline.signals = signal :: rest) :
    ((pipeline.step (.order now rejectNow)).1.flight = pipeline.flight ∧
        (pipeline.step (.order now rejectNow)).1.oms.liveOrders = pipeline.oms.liveOrders) ∨
      ((pipeline.step (.order now rejectNow)).1.flight.Perm
          (pipeline.oms.nextClientOrderId :: pipeline.flight) ∧
        (pipeline.step (.order now rejectNow)).1.oms.liveOrders =
          insert pipeline.oms.nextClientOrderId pipeline.oms.liveOrders) := by
  simp only [step, waiting, flight]
  by_cases accepted : pipeline.oms.Accepts signal
  · right
    rw [OrderManager.stage_accept _ _ _ _ accepted]
    refine ⟨?_, rfl⟩
    rw [List.map_append, List.append_assoc]
    exact List.perm_middle
  · left
    rw [OrderManager.stage_refuse _ _ _ _ accepted]
    exact ⟨by simp, rfl⟩

theorem exchange_flight (order : NewOrder) (rest : List NewOrder) (now : TimestampNs)
    (waiting : pipeline.orders = order :: rest) :
    (pipeline.step (.exchange now)).1.flight.Perm pipeline.flight := by
  obtain ⟨answer, answered, about⟩ := pipeline.gateway.stage_answer (order, now)
  simp only [step, waiting, flight, answered, List.filterMap_append, List.filterMap_cons, about,
    List.filterMap_nil, List.map_cons, List.cons_append]
  rw [← List.append_assoc]
  exact List.perm_append_singleton _ _

/-- A response handled is one identifier less on its way. -/
theorem settle_flight (answer : Envelope) (rest : List Envelope) (id : ClientOrderId)
    (waiting : pipeline.answers = answer :: rest) (about : answer.answeredId = some id) :
    pipeline.flight.Perm (id :: (pipeline.step .settle).1.flight) := by
  simp only [step, waiting, flight, List.filterMap_cons, about]
  exact List.perm_middle

end OrderManager

/-! ### Steps -/

theorem tracked_settle (pipeline : Pipeline) (acked : List ClientOrderId)
    (tracked : pipeline.Tracked acked) :
    (pipeline.step .settle).1.Tracked (acked ++ ackedOf (pipeline.step .settle).2) := by
  cases waiting : pipeline.answers with
  | nil => simpa [step, waiting] using tracked
  | cons answer rest =>
      cases about : answer.answeredId with
      | none =>
          have quiet : pipeline.oms.settle answer = pipeline.oms ∧
              ackedOf [.settled answer] = [] := by
            cases answer <;> first | exact ⟨rfl, rfl⟩ | cases about
          have same : (pipeline.step .settle).1.flight = pipeline.flight := by
            simp [step, waiting, flight, about]
          have kept := tracked.of_subperm (pipeline.step .settle).1
            (same ▸ List.Subperm.refl _) (by simp [step, waiting, quiet.1])
          simpa [step, waiting, quiet.2] using kept
      | some id =>
          have removed := pipeline.settle_flight answer rest id waiting about
          obtain ⟨gone, distinct⟩ := List.nodup_cons.mp (removed.nodup_iff.mp tracked.distinct)
          have older : ∀ other ∈ (pipeline.step .settle).1.flight, other ∈ pipeline.flight :=
            fun other member => removed.mem_iff.mpr (List.mem_cons_of_mem _ member)
          have own : id ∈ pipeline.flight := removed.mem_iff.mpr List.mem_cons_self
          have next : (pipeline.step .settle).1.oms.nextClientOrderId =
              pipeline.oms.nextClientOrderId := by
            simp [step, waiting]
          have issued : ∀ other ∈ (pipeline.step .settle).1.flight,
              other < (pipeline.step .settle).1.oms.nextClientOrderId := by
            intro other member
            rw [next]
            exact tracked.issued other (older other member)
          cases answer with
          | ack ack =>
              cases about
              have outputs : ackedOf (pipeline.step .settle).2 = [ack.clientOrderId] := by
                simp [step, waiting, ackedOf]
              rw [outputs]
              refine ⟨distinct, ?_, ?_, issued, ?_⟩
              · intro other member
                have live := tracked.live other (older other member)
                simpa [step, waiting, OrderManager.settle, OrderManager.onGatewayAck] using live
              · intro other member
                rw [List.mem_append, List.mem_singleton, not_or]
                exact ⟨tracked.unacked other (older other member),
                  fun same => gone (same ▸ member)⟩
              · intro other member
                rw [next]
                rcases List.mem_append.mp member with before | now
                · exact tracked.ackedIssued other before
                · rw [List.mem_singleton.mp now]
                  exact tracked.issued _ own
          | reject reject =>
              cases about
              have outputs : ackedOf (pipeline.step .settle).2 = [] := by
                simp [step, waiting, ackedOf]
              rw [outputs, List.append_nil]
              refine ⟨distinct, ?_, fun other member => tracked.unacked other (older other member),
                issued, by rw [next]; exact tracked.ackedIssued⟩
              intro other member
              have live := tracked.live other (older other member)
              have apart : other ≠ reject.clientOrderId := fun same => gone (same ▸ member)
              simpa [step, waiting, OrderManager.settle, OrderManager.onGatewayReject, apart]
                using live
          | _ => cases about

theorem tracked_order (pipeline : Pipeline) (acked : List ClientOrderId)
    (now rejectNow : TimestampNs) (tracked : pipeline.Tracked acked) :
    (pipeline.step (.order now rejectNow)).1.Tracked
      (acked ++ ackedOf (pipeline.step (.order now rejectNow)).2) := by
  cases waiting : pipeline.signals with
  | nil => simpa [step, waiting] using tracked
  | cons signal rest =>
      have next : (pipeline.step (.order now rejectNow)).1.oms.nextClientOrderId =
          pipeline.oms.nextClientOrderId + 1 := by
        simp [step, waiting]
      have outputs : ackedOf (pipeline.step (.order now rejectNow)).2 = [] := by
        simp [step, waiting]
      rw [outputs, List.append_nil]
      have ackedIssued : ∀ id ∈ acked,
          id < (pipeline.step (.order now rejectNow)).1.oms.nextClientOrderId := by
        intro id member
        rw [next]
        exact Nat.lt_succ_of_lt (tracked.ackedIssued id member)
      rcases pipeline.order_flight signal rest now rejectNow waiting with
        ⟨same, live⟩ | ⟨grown, live⟩
      · refine ⟨same ▸ tracked.distinct, ?_, same ▸ tracked.unacked, ?_, ackedIssued⟩
        · rw [same, live]
          exact tracked.live
        · intro id member
          rw [next]
          exact Nat.lt_succ_of_lt (tracked.issued id (same ▸ member))
      · have fresh : pipeline.oms.nextClientOrderId ∉ pipeline.flight :=
          fun member => Nat.lt_irrefl _ (tracked.issued _ member)
        refine ⟨grown.nodup_iff.mpr (List.nodup_cons.mpr ⟨fresh, tracked.distinct⟩), ?_, ?_, ?_,
          ackedIssued⟩
        · intro id member
          rw [live, Finset.mem_insert]
          rcases List.mem_cons.mp (grown.mem_iff.mp member) with new | old
          · exact Or.inl new
          · exact Or.inr (tracked.live id old)
        · intro id member
          rcases List.mem_cons.mp (grown.mem_iff.mp member) with new | old
          · intro before
            exact Nat.lt_irrefl _ (new ▸ tracked.ackedIssued id before)
          · exact tracked.unacked id old
        · intro id member
          rw [next]
          rcases List.mem_cons.mp (grown.mem_iff.mp member) with new | old
          · rw [new]
            exact Nat.lt_succ_self _
          · exact Nat.lt_succ_of_lt (tracked.issued id old)

theorem tracked_step (pipeline : Pipeline) (acked : List ClientOrderId) (action : Action)
    (tracked : pipeline.Tracked acked) :
    (pipeline.step action).1.Tracked (acked ++ ackedOf (pipeline.step action).2) := by
  cases action with
  | publish =>
      cases waiting : pipeline.input with
      | nil => simpa [step, waiting] using tracked
      | cons update rest =>
          have kept := tracked.of_subperm (pipeline.step .publish).1
            (by simp [step, waiting, flight]; exact List.Subperm.refl _) (by simp [step, waiting])
          simpa [step, waiting] using kept
  | strategy now =>
      cases waiting : pipeline.quotes with
      | nil => simpa [step, waiting] using tracked
      | cons update rest =>
          have kept := tracked.of_subperm (pipeline.step (.strategy now)).1
            (by simp [step, waiting, flight]; exact List.Subperm.refl _) (by simp [step, waiting])
          simpa [step, waiting] using kept
  | order now rejectNow => exact pipeline.tracked_order acked now rejectNow tracked
  | exchange now =>
      cases waiting : pipeline.orders with
      | nil => simpa [step, waiting] using tracked
      | cons order rest =>
          have kept := tracked.of_subperm (pipeline.step (.exchange now)).1
            (pipeline.exchange_flight order rest now waiting).subperm (by simp [step, waiting])
          simpa [step, waiting] using kept
  | settle => exact pipeline.tracked_settle acked tracked
  | loseQuote =>
      have kept := tracked.of_subperm (pipeline.step .loseQuote).1 (List.Subperm.refl _) rfl
      simpa [step] using kept
  | loseSignal =>
      have kept := tracked.of_subperm (pipeline.step .loseSignal).1 (List.Subperm.refl _) rfl
      simpa [step] using kept
  | loseOrder =>
      have fewer : (pipeline.step .loseOrder).1.flight.Subperm pipeline.flight :=
        (((List.dropLast_sublist _).map _).append (List.Sublist.refl _)).subperm
      simpa [step] using tracked.of_subperm _ fewer rfl
  | loseAnswer =>
      have fewer : (pipeline.step .loseAnswer).1.flight.Subperm pipeline.flight :=
        ((List.Sublist.refl _).append ((List.dropLast_sublist _).filterMap _)).subperm
      simpa [step] using tracked.of_subperm _ fewer rfl

/-- Everything on its way back from the gateway is about an order. -/
def Answered (pipeline : Pipeline) : Prop :=
  ∀ answer ∈ pipeline.answers, answer.answeredId ≠ none

theorem answered_step (pipeline : Pipeline) (action : Action) (answered : pipeline.Answered) :
    (pipeline.step action).1.Answered := by
  intro answer member
  cases action with
  | publish =>
      cases waiting : pipeline.input <;>
        exact answered answer (by simpa [step, waiting] using member)
  | strategy now =>
      cases waiting : pipeline.quotes <;>
        exact answered answer (by simpa [step, waiting] using member)
  | order now rejectNow =>
      cases waiting : pipeline.signals <;>
        exact answered answer (by simpa [step, waiting] using member)
  | exchange now =>
      cases waiting : pipeline.orders with
      | nil => exact answered answer (by simpa [step, waiting] using member)
      | cons order rest =>
          obtain ⟨response, result, about⟩ := pipeline.gateway.stage_answer (order, now)
          simp only [step, waiting, result, List.mem_append, List.mem_singleton] at member
          rcases member with old | new
          · exact answered answer old
          · rw [new, about]
            exact Option.some_ne_none _
  | settle =>
      cases waiting : pipeline.answers with
      | nil => exact answered answer (by simp [step, waiting] at member)
      | cons first rest =>
          simp only [step, waiting] at member
          exact answered answer (by rw [waiting]; exact List.mem_cons_of_mem _ member)
  | loseQuote => exact answered answer member
  | loseSignal => exact answered answer member
  | loseOrder => exact answered answer member
  | loseAnswer => exact answered answer (List.mem_of_mem_dropLast member)

/-- Orders and responses are not lost. -/
def Action.KeepsOrders : Action → Prop
  | .loseOrder | .loseAnswer => False
  | _ => True

/-- A step that loses neither an order nor a response leaves no live order
behind. -/
theorem accounted_step (pipeline : Pipeline) (acked : List ClientOrderId) (action : Action)
    (keeps : action.KeepsOrders) (accounted : pipeline.Accounted acked) :
    (pipeline.step action).1.Accounted (acked ++ ackedOf (pipeline.step action).2) := by
  intro id live
  cases action with
  | publish =>
      cases waiting : pipeline.input <;>
        simpa [step, waiting, flight] using accounted id (by simpa [step, waiting] using live)
  | strategy now =>
      cases waiting : pipeline.quotes <;>
        simpa [step, waiting, flight] using accounted id (by simpa [step, waiting] using live)
  | order now rejectNow =>
      cases waiting : pipeline.signals with
      | nil => simpa [step, waiting] using accounted id (by simpa [step, waiting] using live)
      | cons signal rest =>
          rw [List.mem_append]
          rcases pipeline.order_flight signal rest now rejectNow waiting with
            ⟨same, unchanged⟩ | ⟨grown, inserted⟩
          · rw [same]
            exact (accounted id (unchanged ▸ live)).imp_right Or.inl
          · rw [grown.mem_iff, List.mem_cons]
            rcases Finset.mem_insert.mp (inserted ▸ live) with new | old
            · exact Or.inl (Or.inl new)
            · exact (accounted id old).imp Or.inr Or.inl
  | exchange now =>
      cases waiting : pipeline.orders with
      | nil => simpa [step, waiting] using accounted id (by simpa [step, waiting] using live)
      | cons order rest =>
          rw [List.mem_append, (pipeline.exchange_flight order rest now waiting).mem_iff]
          exact (accounted id (by simpa [step, waiting] using live)).imp_right Or.inl
  | settle =>
      cases waiting : pipeline.answers with
      | nil => simpa [step, waiting] using accounted id (by simpa [step, waiting] using live)
      | cons answer rest =>
          rw [List.mem_append]
          cases answer with
          | ack ack =>
              have removed := pipeline.settle_flight (.ack ack) rest _ waiting rfl
              have unchanged : id ∈ pipeline.oms.liveOrders := by
                simpa [step, waiting, OrderManager.settle, OrderManager.onGatewayAck] using live
              rcases accounted id unchanged with sent | before
              · rcases List.mem_cons.mp (removed.mem_iff.mp sent) with now | later
                · exact Or.inr (Or.inr (by simp [step, waiting, ackedOf, now]))
                · exact Or.inl later
              · exact Or.inr (Or.inl before)
          | reject reject =>
              have removed := pipeline.settle_flight (.reject reject) rest _ waiting rfl
              have erased : id ≠ reject.clientOrderId ∧ id ∈ pipeline.oms.liveOrders := by
                simpa [step, waiting, OrderManager.settle, OrderManager.onGatewayReject] using live
              rcases accounted id erased.2 with sent | before
              · rcases List.mem_cons.mp (removed.mem_iff.mp sent) with now | later
                · exact absurd now erased.1
                · exact Or.inl later
              · exact Or.inr (Or.inl before)
          | _ =>
              have known := accounted id
                (by simpa [step, waiting, OrderManager.settle] using live)
              simpa [step, waiting, flight, Envelope.answeredId, ackedOf, List.filterMap_cons]
                using known
  | loseQuote => simpa [step, flight] using accounted id live
  | loseSignal => simpa [step, flight] using accounted id live
  | loseOrder => exact keeps.elim
  | loseAnswer => exact keeps.elim

theorem tracked_run (pipeline : Pipeline) (acked : List ClientOrderId) (actions : List Action)
    (tracked : pipeline.Tracked acked) :
    (after step pipeline actions).Tracked (acked ++ ackedOf (emitted step pipeline actions)) := by
  induction actions generalizing pipeline acked with
  | nil => simpa using tracked
  | cons action actions ih =>
      rw [after_cons, emitted_cons, ackedOf_append, ← List.append_assoc]
      exact ih _ _ (pipeline.tracked_step acked action tracked)

theorem accounted_run (pipeline : Pipeline) (acked : List ClientOrderId) (actions : List Action)
    (keep : ∀ action ∈ actions, action.KeepsOrders) (accounted : pipeline.Accounted acked) :
    (after step pipeline actions).Accounted
      (acked ++ ackedOf (emitted step pipeline actions)) := by
  induction actions generalizing pipeline acked with
  | nil => simpa using accounted
  | cons action actions ih =>
      rw [after_cons, emitted_cons, ackedOf_append, ← List.append_assoc]
      exact ih _ _ (fun other member => keep other (List.mem_cons_of_mem _ member))
        (pipeline.accounted_step acked action (keep action List.mem_cons_self) accounted)

/-- An identifier that leaves the channels without being handled stays live for
ever. -/
theorem not_accounted_of_lost (pipeline next : Pipeline) (acked : List ClientOrderId)
    (tracked : pipeline.Tracked acked) (oms : next.oms = pipeline.oms) (id : ClientOrderId)
    (lost : pipeline.flight.Perm (id :: next.flight)) : ¬ next.Accounted acked := by
  intro accounted
  have own : id ∈ pipeline.flight := lost.mem_iff.mpr List.mem_cons_self
  obtain ⟨gone, -⟩ := List.nodup_cons.mp (lost.nodup_iff.mp tracked.distinct)
  rcases accounted id (oms ▸ tracked.live id own) with sent | before
  · exact gone sent
  · exact tracked.unacked id own before

end Pipeline

namespace ThreadedRuntime

open Pipeline (Output ackedOf)

variable {capacity : Nat}

/-- The identifiers somebody still knows about: of orders in `omsToGateway`, or
about to be pushed there in the OMS's current turn; of responses in
`gatewayToOms`, or held by the gateway's current turn; and of acknowledgements
that the OMS has processed. -/
def known (runtime : ThreadedRuntime capacity) (outputs : List Output) : List ClientOrderId :=
  (runtime.bus.omsToGateway.contents.filterMap Envelope.newOrder? ++
      runtime.omsAt.held).map NewOrder.clientOrderId ++
    (runtime.bus.gatewayToOms.contents ++ runtime.gatewayAt.held).filterMap
      Envelope.answeredId ++
    ackedOf outputs

/-- No order is live that nobody knows about. -/
def Accounted (runtime : ThreadedRuntime capacity) (outputs : List Output) : Prop :=
  ∀ id ∈ runtime.oms.manager.liveOrders, id ∈ runtime.known outputs

instance (runtime : ThreadedRuntime capacity) (outputs : List Output) :
    Decidable (runtime.Accounted outputs) := by
  unfold Accounted; infer_instance

/-- An order the OMS is about to push finds room, and so does a response of the
gateway. -/
def Fits (runtime : ThreadedRuntime capacity) : ThreadAction → Prop
  | .oms _ _ _ => runtime.omsAt.held ≠ [] → ¬ runtime.bus.omsToGateway.Full
  | .gateway _ => runtime.gatewayAt.held ≠ [] → ¬ runtime.bus.gatewayToOms.Full
  | _ => True

instance (runtime : ThreadedRuntime capacity) (action : ThreadAction) :
    Decidable (runtime.Fits action) := by
  cases action <;> unfold Fits <;> infer_instance

theorem accounted_view (runtime : ThreadedRuntime capacity) (outputs : List Output) :
    runtime.Accounted outputs ↔ runtime.view.Accounted (ackedOf outputs) := by
  simp only [Accounted, known, Pipeline.Accounted, Pipeline.flight, view, List.mem_append]

/-- The pipeline's part in an action that fits keeps orders and responses. -/
theorem moves_keep (runtime : ThreadedRuntime capacity) (action : ThreadAction)
    (fits : runtime.Fits action) :
    ∀ move ∈ runtime.moves action, move.KeepsOrders := by
  intro move member
  cases action with
  | marketData =>
      simp only [moves] at member
      split at member
      · cases member
      · split at member <;> rw [List.mem_singleton.mp member] <;> trivial
  | strategy now =>
      simp only [moves] at member
      split at member
      · split at member
        · rw [List.mem_singleton.mp member]; trivial
        · cases member
      · split at member
        · rw [List.mem_singleton.mp member]; trivial
        · cases member
  | oms now rejectNow io =>
      simp only [moves] at member
      split at member
      · rename_i order phase
        have room := fits (by simp [phase, OmsAt.held])
        simp [room] at member
      · split at member
        · rw [List.mem_singleton.mp member]; trivial
        · cases member
      · split at member
        · cases member
        · rw [List.mem_singleton.mp member]; trivial
  | gateway now =>
      simp only [moves] at member
      split at member
      · rename_i response phase
        have room := fits (by simp [phase, LoopAt.held])
        simp [room] at member
      · split at member
        · rw [List.mem_singleton.mp member]; trivial
        · cases member
  | shutdown => cases member

/-! ### Runs -/

section Runs

variable (positive : 0 < capacity) (journal : JournalLog) (io : JournalIo)
variable (input : List MarketDataUpdate)

theorem tracked_reached (actions : List ThreadAction) :
    (reached positive journal io input actions).view.Tracked
      (ackedOf (produced positive journal io input actions)) := by
  obtain ⟨states, outputs⟩ := reached_refines positive journal io input actions
  have first : (start positive journal io input).view.Tracked [] := by
    rw [view_start]
    exact ⟨List.nodup_nil, by simp [Pipeline.flight], by simp, by simp [Pipeline.flight],
      by simp⟩
  have run := Pipeline.tracked_run _ [] (pipelineActions positive journal io input actions) first
  rw [states, outputs] at run
  exact run

theorem accounted_reached (actions : List ThreadAction)
    (fits : ∀ before action, before ++ [action] <+: actions →
      (reached positive journal io input before).Fits action) :
    (reached positive journal io input actions).Accounted
      (produced positive journal io input actions) := by
  obtain ⟨states, outputs⟩ := reached_refines positive journal io input actions
  have first : (start positive journal io input).view.Accounted [] := by
    rw [view_start]
    intro id live
    exact absurd live (Finset.notMem_empty id)
  have keep : ∀ move ∈ pipelineActions positive journal io input actions,
      move.KeepsOrders := by
    intro move member
    obtain ⟨before, action, early, part⟩ := (mem_translated step moves _ actions move).mp member
    exact moves_keep _ action (fits before action early) move part
  have run := Pipeline.accounted_run _ [] _ keep first
  rw [states, outputs] at run
  rw [accounted_view]
  exact run

theorem answered_reached (actions : List ThreadAction) :
    (reached positive journal io input actions).view.Answered := by
  obtain ⟨states, -⟩ := reached_refines positive journal io input actions
  rw [← states]
  refine after_invariant Pipeline.answered_step _ _ ?_
  rw [view_start]
  exact fun answer member => absurd member List.not_mem_nil

end Runs

/-- A push that does not fit leaves the order live and unknown. -/
theorem not_accounted_of_not_fits (runtime : ThreadedRuntime capacity) (outputs : List Output)
    (action : ThreadAction) (tracked : runtime.view.Tracked (ackedOf outputs))
    (answered : runtime.view.Answered) (overflow : ¬ runtime.Fits action) :
    ¬ (runtime.step action).1.Accounted (outputs ++ (runtime.step action).2) := by
  obtain ⟨states, quiet, -⟩ := step_refines runtime action
  rw [accounted_view, Pipeline.ackedOf_append, ← states, ← quiet]
  cases action with
  | oms now rejectNow io =>
      simp only [Fits, not_forall, not_not] at overflow
      obtain ⟨held, full⟩ := overflow
      cases phase : runtime.omsAt with
      | pushing order =>
          have move : runtime.moves (.oms now rejectNow io) = [.loseOrder] := by
            simp [moves, phase, full]
          rw [move]
          simp only [after_cons, after_nil, emitted_cons, emitted_nil, Pipeline.step,
            List.append_nil, Pipeline.ackedOf_nil]
          refine Pipeline.not_accounted_of_lost runtime.view _ _ tracked rfl order.clientOrderId ?_
          simp only [Pipeline.flight, view, phase, OmsAt.held, List.dropLast_concat,
            List.map_append, List.map_cons, List.map_nil, List.append_assoc, List.cons_append,
            List.nil_append]
          exact List.perm_middle
      | _ => simp [phase, OmsAt.held] at held
  | gateway now =>
      simp only [Fits, not_forall, not_not] at overflow
      obtain ⟨held, full⟩ := overflow
      cases phase : runtime.gatewayAt with
      | pushing response =>
          have move : runtime.moves (.gateway now) = [.loseAnswer] := by
            simp [moves, phase, full]
          have about : response.answeredId ≠ none :=
            answered response (by simp [view, phase, LoopAt.held])
          obtain ⟨id, about⟩ := Option.ne_none_iff_exists'.mp about
          rw [move]
          simp only [after_cons, after_nil, emitted_cons, emitted_nil, Pipeline.step,
            List.append_nil, Pipeline.ackedOf_nil]
          refine Pipeline.not_accounted_of_lost runtime.view _ _ tracked rfl id ?_
          simp only [Pipeline.flight, view, phase, LoopAt.held, List.dropLast_concat,
            List.filterMap_append, List.filterMap_cons, about, List.filterMap_nil]
          rw [← List.append_assoc]
          exact List.perm_append_singleton _ _
      | head => simp [phase, LoopAt.held] at held
  | _ => exact absurd trivial overflow

/-! ### Accounting of live orders -/

/-- No order is ever live that neither a queue nor a thread knows about exactly
when every accepted order finds room on its way to the gateway and every
response on its way back. -/
theorem accounted_iff_fits (positive : 0 < capacity) (journal : JournalLog) (io : JournalIo)
    (input : List MarketDataUpdate) (actions : List ThreadAction) :
    (∀ before, before <+: actions →
        (reached positive journal io input before).Accounted
          (produced positive journal io input before)) ↔
      ∀ before action, before ++ [action] <+: actions →
        (reached positive journal io input before).Fits action := by
  refine ⟨?_, ?_⟩
  · intro accounted before action early
    by_contra overflow
    refine not_accounted_of_not_fits _ _ action
      (tracked_reached positive journal io input before)
      (answered_reached positive journal io input before) overflow ?_
    have next := accounted (before ++ [action]) early
    rw [reached, produced, after_concat, emitted_concat] at next
    exact next
  · intro fits before early
    refine accounted_reached positive journal io input before ?_
    intro earlier action shorter
    exact fits earlier action (shorter.trans early)

/-- A quote becomes an order in `omsToGateway`. -/
def oneOrder : List ThreadAction :=
  [.marketData, .strategy 0, .strategy 0, .oms 0 0 {}, .oms 0 0 {}, .oms 0 0 {}]

/-- The order is answered, and the answer processed. -/
def oneAnswer : List ThreadAction :=
  [.gateway 0, .gateway 0, .oms 0 0 {}, .oms 0 0 {}]

theorem accounted_one_exchange :
    (reached (by decide : 0 < 2) {} {} twoQuotes (oneOrder ++ oneAnswer)).Accounted
      (produced (by decide : 0 < 2) {} {} twoQuotes (oneOrder ++ oneAnswer)) := by
  have fits : ∀ seen ∈ (oneOrder ++ oneAnswer).inits, ∀ action ∈ seen.getLast?,
      (reached (by decide : 0 < 2) {} {} twoQuotes seen.dropLast).Fits action := by
    decide +kernel
  refine (accounted_iff_fits (by decide) {} {} twoQuotes (oneOrder ++ oneAnswer)).mpr ?_
    _ (List.prefix_refl _)
  intro before action early
  simpa using fits (before ++ [action]) ((List.mem_inits _ _).mpr early) action (by simp)

/-- The gateway is not scheduled, the queue to it holds one order, and the
second order is dropped. -/
theorem dropped_order_stays_live :
    ¬ (reached (by decide : 0 < 2) {} {} twoQuotes (oneOrder ++ oneOrder)).Accounted
      (produced (by decide : 0 < 2) {} {} twoQuotes (oneOrder ++ oneOrder)) := by
  decide +kernel

end ThreadedRuntime
end TradingPlatform
