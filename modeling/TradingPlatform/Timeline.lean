import TradingPlatform.Causality
import TradingPlatform.ReplayMerge

set_option autoImplicit false

/- The merge of the nodes' replay files shows the run in the order in which it
happened. -/
namespace TradingPlatform

open Replay (RawEvent readAll readFile replayMerge MergeIo)

/-- The file of a node that has stopped, with nothing of a failed append in front of
an event: what it has recorded, and at the end perhaps a part of an event. -/
def ReplayLog.Stored (log : ReplayLog) (file : Option (List UInt8)) : Prop :=
  ∃ tail, Framing.Torn RawEvent.image RawEvent.Sound tail ∧ file = some (log.image ++ tail)

theorem ReplayLog.readFile_stored (log : ReplayLog) (files : String → Option (List UInt8))
    (path : String) (sound : log.Sound) (stored : log.Stored (files path)) :
    readFile files path = log.events.map ReplayEvent.raw := by
  obtain ⟨tail, torn, file⟩ := stored
  have good : ∀ event ∈ log.events.map ReplayEvent.raw, event.Sound := by
    intro raw member
    obtain ⟨event, recorded, rfl⟩ := List.mem_map.mp member
    exact sound event recorded
  have stuck := Replay.reads_events.torn tail torn
  rw [readFile, file]
  exact Replay.reads_events.parse_frames _ good tail stuck _ (Nat.lt_succ_self _)

namespace Timeline

open DistributedNodes (writtenBy start reached history)

theorem count_writtenBy (actor : Actor) (attempt : ReplayAttempt)
    (attempts : List ReplayAttempt) (event : ReplayEvent) :
    (writtenBy actor (attempt :: attempts)).count event =
      (if attempt.written ∧ attempt.actor = actor then [attempt.event].count event else 0) +
        (writtenBy actor attempts).count event := by
  unfold writtenBy
  by_cases own : attempt.written ∧ attempt.actor = actor
  · rw [if_pos own, List.filter_cons_of_pos (by simpa using own), List.map_cons,
      ← List.singleton_append, List.count_append]
  · rw [if_neg own, List.filter_cons_of_neg (by simpa using own), Nat.zero_add]

/-- The four nodes split their history among them. -/
theorem writtenBy_perm (attempts : List ReplayAttempt) :
    ([.marketData, .strategy, .oms, .gateway].flatMap fun actor =>
        writtenBy actor attempts).Perm
      ((attempts.filter ReplayAttempt.written).map ReplayAttempt.event) := by
  rw [List.perm_iff_count]
  intro event
  simp only [List.flatMap_cons, List.flatMap_nil, List.append_nil, List.count_append]
  induction attempts with
  | nil => rfl
  | cons attempt attempts ih =>
      simp only [count_writtenBy]
      cases written : attempt.written with
      | false => simpa [written] using ih
      | true =>
          have whole : ((attempt :: attempts).filter ReplayAttempt.written).map
                ReplayAttempt.event =
              [attempt.event] ++
                (attempts.filter ReplayAttempt.written).map ReplayAttempt.event := by
            simp [written]
          rw [whole, List.count_append, ← ih]
          cases attempt.actor <;> simp <;> omega

/-- Events with increasing readings are in the order of the merge. -/
theorem increasing_events (attempts : List ReplayAttempt)
    (timed : ∀ attempt ∈ attempts, attempt.now < 2 ^ 64 ∧
      attempt.event.header.timestampNs = UInt64.ofNat attempt.now)
    (clock : (attempts.map ReplayAttempt.now).Pairwise (· < ·)) :
    (attempts.map fun attempt => attempt.event.raw).Pairwise
      fun a b => Replay.comesBefore a b = true := by
  rw [List.pairwise_map] at clock ⊢
  apply List.Pairwise.imp_of_mem _ clock
  intro a b first second earlier
  obtain ⟨boundA, timeA⟩ := timed a first
  obtain ⟨boundB, timeB⟩ := timed b second
  rw [Replay.comesBefore_iff]
  apply Prod.Lex.toLex_lt_toLex.mpr
  left
  have readA : a.event.raw.header.timestampNs.toNat = a.now := by
    rw [ReplayEvent.raw, timeA]
    exact UInt64.toNat_ofNat_of_lt' boundA
  have readB : b.event.raw.header.timestampNs.toNat = b.now := by
    rw [ReplayEvent.raw, timeB]
    exact UInt64.toNat_ofNat_of_lt' boundB
  dsimp only
  rw [readA, readB]
  exact earlier

section Merge

variable (journal : JournalLog) (io : JournalIo) (mode : GatewayMode)
variable (actions : List NodeAction)

/-- What the readers deliver of the four files is the history, in some order. -/
theorem files_perm (files : String → Option (List UInt8)) (paths : Actor → String)
    (stored : ∀ actor, ((reached journal io mode actions).log actor).Stored
      (files (paths actor)))
    (inputs : List String)
    (given : inputs.Perm ([.marketData, .strategy, .oms, .gateway].map paths)) :
    (inputs.flatMap (readFile files)).Perm
      ((((start journal io mode).history actions).filter ReplayAttempt.written).map
        fun attempt => attempt.event.raw) := by
  have read : ∀ actor, readFile files (paths actor) =
      (writtenBy actor ((start journal io mode).history actions)).map ReplayEvent.raw := by
    intro actor
    have events := DistributedNodes.reached_events actions journal io mode actor
    rw [← events]
    apply ReplayLog.readFile_stored _ _ _ _ (stored actor)
    intro event member
    rw [events] at member
    obtain ⟨attempt, kept, rfl⟩ := List.mem_map.mp member
    exact (DistributedNodes.history_attempt actions journal io mode attempt
      (List.mem_of_mem_filter kept)).2.2.1
  have inputs := given.flatMap_right (readFile files)
  have split := (writtenBy_perm ((start journal io mode).history actions)).map ReplayEvent.raw
  rw [List.map_map] at split
  apply inputs.trans
  rw [List.flatMap_map]
  simp only [read]
  rw [← List.map_flatMap]
  exact split

/-- The merge of the four replay files, given in any order, shows what the nodes
have recorded in the order of the clock: every event has its cause among the
events that were recorded, or meant to be, before it, and if all appends work,
among the events before it in the timeline. The numbers of the orders are
distinct, so the order that a response answers is the only one with its number. -/
theorem merged_causal (std : Sorting.Sorter RawEvent)
    (clock : (((start journal io mode).history actions).map ReplayAttempt.now).Pairwise (· < ·))
    (range : ∀ attempt ∈ (start journal io mode).history actions, attempt.now < 2 ^ 64)
    (files : String → Option (List UInt8)) (paths : Actor → String)
    (stored : ∀ actor, ((reached journal io mode actions).log actor).Stored
      (files (paths actor)))
    (inputs : List String)
    (given : inputs.Perm ([.marketData, .strategy, .oms, .gateway].map paths))
    (output : MergeIo) (works : ∀ index, output.fault index = {}) (merged : List UInt8)
    (written : replayMerge std files inputs output = some merged) :
    ∃ timeline : List ReplayEvent, readAll merged = timeline.map ReplayEvent.raw ∧
      timeline = (((start journal io mode).history actions).filter ReplayAttempt.written).map
        ReplayAttempt.event ∧
      ((orders timeline).map NewOrder.clientOrderId).Pairwise (· < ·) ∧
      (∀ past attempt, past ++ [attempt] <+: (start journal io mode).history actions →
        Caused (past.map ReplayAttempt.event) attempt.event) ∧
      ((∀ action ∈ actions, action.input.replay.writes = true) →
        ∀ past event, past ++ [event] <+: timeline → Caused past event) := by
  have sorted := std.sorted Replay.comesBefore Replay.comesBefore_order
    (inputs.flatMap (readFile files))
  have perm := std.perm Replay.comesBefore Replay.comesBefore_order
    (inputs.flatMap (readFile files))
  have increasing := increasing_events
    (((start journal io mode).history actions).filter ReplayAttempt.written)
    (by
      intro attempt member
      have whole := List.mem_of_mem_filter member
      exact ⟨range attempt whole,
        (DistributedNodes.history_attempt actions journal io mode attempt whole).2.1⟩)
    (clock.sublist (List.filter_sublist.map _))
  have timeline : readAll merged =
      (((start journal io mode).history actions).filter ReplayAttempt.written).map
        fun attempt => attempt.event.raw := by
    rw [Replay.readAll_replayMerge std files inputs output works merged written]
    exact Sorting.eq_of_increasing Replay.comesBefore _ _ sorted increasing
      (perm.trans (files_perm journal io mode actions files paths stored inputs given))
  have causes := DistributedNodes.history_caused journal io mode actions
  refine ⟨_, by rw [timeline, List.map_map]; rfl, rfl, ?_, causes, ?_⟩
  · have ids := DistributedNodes.history_ids journal io mode actions
    exact ids.sublist (((List.filter_sublist.map _).filterMap _).map _)
  · intro works past event within
    have all : ((start journal io mode).history actions).filter ReplayAttempt.written =
        (start journal io mode).history actions := by
      apply List.filter_eq_self.mpr
      intro attempt member
      exact (DistributedNodes.history_attempt actions journal io mode attempt member).2.2.2 works
    rw [all] at within
    obtain ⟨before, attempt, made, rfl, rfl⟩ := mapped_by _ _ _ _ within
    exact causes before attempt made

end Merge

/-- The paths that the nodes write to. -/
def replayPath : Actor → String
  | .marketData => "journals/replay_market_data.bin"
  | .strategy => "journals/replay_strategy.bin"
  | .oms => "journals/replay_oms.bin"
  | .gateway => "journals/replay_gateway.bin"

/-- The replay files of nodes that have stopped between two appends. -/
def replayFiles (nodes : DistributedNodes) (path : String) : Option (List UInt8) :=
  ([.marketData, .strategy, .oms, .gateway].find? fun actor => replayPath actor = path).map
    fun actor => (nodes.log actor).file

theorem replayFiles_stored (nodes : DistributedNodes) (actor : Actor)
    (intact : (nodes.log actor).Intact) :
    (nodes.log actor).Stored (replayFiles nodes (replayPath actor)) := by
  refine ⟨[], Or.inl rfl, ?_⟩
  rw [List.append_nil, ← intact]
  cases actor <;> simp [replayFiles, replayPath]

/-- One update becomes an order, which is acknowledged. -/
def answeredTrade : List NodeAction :=
  let answered : List NodeAction :=
    [{ actor := .oms }, { actor := .gateway }, { actor := .gateway }, { actor := .gateway },
      { actor := .oms }, { actor := .oms }]
  (DistributedNodes.oneTrade ++ answered).zipIdx.map fun entry =>
    { entry.1 with input := { entry.1.input with replay := { now := entry.2 + 1 } } }

theorem merged_causal_answeredTrade :
    ∃ merged, replayMerge Sorting.mergeSorter (replayFiles (reached {} {} .sim answeredTrade))
        ([.gateway, .strategy, .oms, .marketData].map replayPath) {} = some merged ∧
      ∃ timeline : List ReplayEvent, readAll merged = timeline.map ReplayEvent.raw ∧
        timeline.map (fun event => event.header.nodeRole) = [1, 2, 3, 4, 3] ∧
        ∀ past event, past ++ [event] <+: timeline → Caused past event := by
  have writes : ∀ action ∈ answeredTrade, action.input.replay.writes = true := by
    decide +kernel
  obtain ⟨timeline, merged, history, -, -, causal⟩ :=
    merged_causal {} {} .sim answeredTrade Sorting.mergeSorter (by decide +kernel)
      (by decide +kernel) (replayFiles (reached {} {} .sim answeredTrade)) replayPath
      (fun actor => replayFiles_stored _ actor
        (DistributedNodes.reached_intact answeredTrade {} {} .sim actor writes))
      ([.gateway, .strategy, .oms, .marketData].map replayPath)
      (by decide +kernel) {} (fun _ => rfl) _ rfl
  refine ⟨_, rfl, timeline, merged, ?_, causal writes⟩
  rw [history]
  decide +kernel

end Timeline
end TradingPlatform
