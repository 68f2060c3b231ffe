import Mathlib.Data.List.Induction
import TradingPlatform.Library.Transducer
import TradingPlatform.SpscQueue

set_option autoImplicit false

/- The bounded ring one memory access at a time. The accesses of one producer
and one consumer interleave in any order. -/
namespace TradingPlatform

/-- Where the producer is in `push`, with its locals. -/
inductive ProducerAt (α : Type) (capacity : Nat) where
  | idle
  /-- The head is loaded, the tail comes next. -/
  | loaded (item : α) (head : Fin capacity)
  | refusing (item : α)
  | writing (item : α) (head : Fin capacity)
  | publishing (item : α) (head : Fin capacity)
  deriving DecidableEq

/-- Where the consumer is in `pop`, with its locals. -/
inductive ConsumerAt (α : Type) (capacity : Nat) where
  | idle
  /-- The tail is loaded, the head comes next. -/
  | loaded (tail : Fin capacity)
  | reading (tail : Fin capacity)
  | releasing (tail : Fin capacity) (item : α)
  deriving DecidableEq

/-- The members of the ring and the two threads that use it. -/
structure SpscMemory (α : Type) (capacity : Nat) where
  queue : SpscQueue α capacity
  producer : ProducerAt α capacity := .idle
  consumer : ConsumerAt α capacity := .idle

/-- A thread enters a call with its first load, or makes its next access. -/
inductive SpscAccess (α : Type) where
  | push (item : α)
  | producer
  | pop
  | consumer
  deriving DecidableEq

/-- What a call returns, at its last access. -/
inductive SpscReturn (α : Type) where
  | pushed (item : α)
  | refused (item : α)
  | popped (item : α)
  | empty
  deriving DecidableEq

namespace SpscReturn

variable {α : Type}

def pushed? : SpscReturn α → Option α
  | .pushed item => some item
  | _ => none

def popped? : SpscReturn α → Option α
  | .popped item => some item
  | _ => none

def refused? : SpscReturn α → Option α
  | .refused item => some item
  | _ => none

end SpscReturn

namespace SpscMemory

open SpscQueue (cell store increment)

variable {α : Type} {capacity : Nat}

/-- The ring at rest, whatever its slots hold. -/
def start (positive : 0 < capacity) (buffer : Vector α capacity) : SpscMemory α capacity where
  queue := { buffer, head := ⟨0, positive⟩, tail := ⟨0, positive⟩ }

def push (memory : SpscMemory α capacity) (item : α) : SpscMemory α capacity :=
  match memory.producer with
  | .idle => { memory with producer := .loaded item memory.queue.head }
  | _ => memory

def produce (memory : SpscMemory α capacity) : SpscMemory α capacity × List (SpscReturn α) :=
  match memory.producer with
  | .idle => (memory, [])
  | .loaded item head =>
      if increment head = memory.queue.tail then ({ memory with producer := .refusing item }, [])
      else ({ memory with producer := .writing item head }, [])
  | .refusing item =>
      ({ memory with
          queue := { memory.queue with dropped := memory.queue.dropped + 1 }
          producer := .idle }, [.refused item])
  | .writing item head =>
      ({ memory with
          queue := { memory.queue with buffer := store memory.queue.buffer head item }
          producer := .publishing item head }, [])
  | .publishing item head =>
      ({ memory with
          queue := { memory.queue with head := increment head }
          producer := .idle }, [.pushed item])

def pop (memory : SpscMemory α capacity) : SpscMemory α capacity :=
  match memory.consumer with
  | .idle => { memory with consumer := .loaded memory.queue.tail }
  | _ => memory

def consume (memory : SpscMemory α capacity) : SpscMemory α capacity × List (SpscReturn α) :=
  match memory.consumer with
  | .idle => (memory, [])
  | .loaded tail =>
      if tail = memory.queue.head then ({ memory with consumer := .idle }, [.empty])
      else ({ memory with consumer := .reading tail }, [])
  | .reading tail =>
      ({ memory with consumer := .releasing tail (cell memory.queue.buffer tail) }, [])
  | .releasing tail item =>
      ({ memory with
          queue := { memory.queue with tail := increment tail }
          consumer := .idle }, [.popped item])

def step (memory : SpscMemory α capacity) :
    SpscAccess α → SpscMemory α capacity × List (SpscReturn α)
  | .push item => (memory.push item, [])
  | .producer => memory.produce
  | .pop => (memory.pop, [])
  | .consumer => memory.consume

/-! ### The invariant -/

/-- The locals of the producer against the ring: once there is room, there is
room until it publishes. -/
def ProducerValid (queue : SpscQueue α capacity) : ProducerAt α capacity → Prop
  | .idle => True
  | .loaded _ head => head = queue.head
  | .refusing _ => True
  | .writing _ head => head = queue.head ∧ ¬ queue.Full
  | .publishing item head => head = queue.head ∧ ¬ queue.Full ∧ cell queue.buffer head = item

/-- The locals of the consumer against the ring: once there is an item, there is
one until it is released. -/
def ConsumerValid (queue : SpscQueue α capacity) : ConsumerAt α capacity → Prop
  | .idle => True
  | .loaded tail => tail = queue.tail
  | .reading tail => tail = queue.tail ∧ queue.contents ≠ []
  | .releasing tail item =>
      tail = queue.tail ∧ queue.contents ≠ [] ∧ cell queue.buffer tail = item

structure Valid (memory : SpscMemory α capacity) : Prop where
  producer : ProducerValid memory.queue memory.producer
  consumer : ConsumerValid memory.queue memory.consumer

theorem valid_start (positive : 0 < capacity) (buffer : Vector α capacity) :
    (start positive buffer).Valid := ⟨trivial, trivial⟩

/-- Writing the free slot at the head does not show. -/
theorem contents_write (queue : SpscQueue α capacity) (item : α) :
    SpscQueue.contents { queue with buffer := store queue.buffer queue.head item } =
      queue.contents := by
  have head := queue.head.isLt
  have tail := queue.tail.isLt
  have bound := queue.size_lt
  unfold SpscQueue.contents
  apply List.map_congr_left
  intro offset member
  have inside : offset < queue.size := List.mem_range.mp member
  refine SpscQueue.cell_store_ne _ _ _ _ fun same => ?_
  have equal : (queue.slot offset).val = queue.head.val := congrArg Fin.val same
  rw [SpscQueue.slot_val queue offset (by omega)] at equal
  unfold SpscQueue.size at inside
  split at inside <;> split at equal <;> omega

/-- Publishing the head is the push of what the slot holds. -/
theorem contents_publish (queue : SpscQueue α capacity) (room : ¬ queue.Full) :
    SpscQueue.contents { queue with head := increment queue.head } =
      queue.contents ++ [cell queue.buffer queue.head] := by
  have same := SpscQueue.store_cell queue.buffer queue.head
  unfold store at same
  have pushed := (SpscQueue.push_room queue (cell queue.buffer queue.head) room).2.2
  have unfolded : (queue.push (cell queue.buffer queue.head)).1 =
      { queue with head := increment queue.head } := by
    unfold SpscQueue.Full at room
    simp only [SpscQueue.push, room, ↓reduceIte, same]
  rw [← pushed, unfolded]

/-- Advancing the tail is the pop of the oldest item. -/
theorem contents_release (queue : SpscQueue α capacity) (some : queue.contents ≠ []) :
    queue.contents = cell queue.buffer queue.tail ::
      SpscQueue.contents { queue with tail := increment queue.tail } := by
  have apart : queue.tail ≠ queue.head :=
    fun same => some ((SpscQueue.contents_eq_nil_iff queue).mpr same)
  have popped : queue.pop = ({ queue with tail := increment queue.tail },
      Option.some (cell queue.buffer queue.tail)) := by
    simp only [SpscQueue.pop, apart, ↓reduceIte]
  rcases queue.pop_cases with ⟨none, -⟩ | ⟨item, rest, next, contents, pop, left, -⟩
  · exact absurd none some
  · rw [popped] at pop
    obtain ⟨same, first⟩ := Prod.mk.inj pop
    rw [same, left, contents, Option.some.inj first]

/-- The write does not reach the slot that the consumer reads. -/
theorem consumerValid_write (queue : SpscQueue α capacity) (item : α)
    (consumer : ConsumerAt α capacity) (valid : ConsumerValid queue consumer) :
    ConsumerValid { queue with buffer := store queue.buffer queue.head item } consumer := by
  have same := contents_write queue item
  cases consumer with
  | idle => exact trivial
  | loaded tail => exact valid
  | reading tail => exact ⟨valid.1, same ▸ valid.2⟩
  | releasing tail item' =>
      obtain ⟨atTail, some, holds⟩ := valid
      have apart : tail ≠ queue.head := fun equal =>
        some ((SpscQueue.contents_eq_nil_iff queue).mpr (atTail ▸ equal))
      exact ⟨atTail, same ▸ some, (SpscQueue.cell_store_ne _ _ _ _ apart).trans holds⟩

theorem consumerValid_publish (queue : SpscQueue α capacity) (room : ¬ queue.Full)
    (consumer : ConsumerAt α capacity) (valid : ConsumerValid queue consumer) :
    ConsumerValid { queue with head := increment queue.head } consumer := by
  have some : SpscQueue.contents { queue with head := increment queue.head } ≠ [] := by
    rw [contents_publish queue room]
    exact List.concat_ne_nil _ _
  cases consumer with
  | idle => exact trivial
  | loaded tail => exact valid
  | reading tail => exact ⟨valid.1, some⟩
  | releasing tail item => exact ⟨valid.1, some, valid.2.2⟩

/-- The counter of losses concerns nobody. -/
theorem consumerValid_dropped (queue : SpscQueue α capacity) (dropped : UInt64)
    (consumer : ConsumerAt α capacity) (valid : ConsumerValid queue consumer) :
    ConsumerValid { queue with dropped := dropped } consumer := by
  cases consumer <;> exact valid

/-- A release makes room. -/
theorem producerValid_release (queue : SpscQueue α capacity) (some : queue.contents ≠ [])
    (producer : ProducerAt α capacity) (valid : ProducerValid queue producer) :
    ProducerValid { queue with tail := increment queue.tail } producer := by
  have room : ¬ SpscQueue.Full { queue with tail := increment queue.tail } := by
    have bound := queue.size_lt
    have shorter := congrArg List.length (contents_release queue some)
    rw [List.length_cons, SpscQueue.length_contents, SpscQueue.length_contents] at shorter
    rw [SpscQueue.full_iff]
    omega
  cases producer with
  | idle => exact trivial
  | loaded item head => exact valid
  | refusing item => exact trivial
  | writing item head => exact ⟨valid.1, room⟩
  | publishing item head => exact ⟨valid.1, room, valid.2.2⟩

/-- What an access can do to the ring, seen as a queue, and what it returns. -/
inductive Effect (before after : SpscQueue α capacity) : List (SpscReturn α) → Prop
  | silent (contents : after.contents = before.contents) (dropped : after.dropped = before.dropped) :
      Effect before after []
  | empty (contents : after.contents = before.contents) (dropped : after.dropped = before.dropped) :
      Effect before after [.empty]
  | pushed (item : α) (room : ¬ before.Full) (contents : after.contents = before.contents ++ [item])
      (dropped : after.dropped = before.dropped) : Effect before after [.pushed item]
  | popped (item : α) (contents : before.contents = item :: after.contents)
      (dropped : after.dropped = before.dropped) : Effect before after [.popped item]
  | refused (item : α) (contents : after.contents = before.contents)
      (dropped : after.dropped = before.dropped + 1) : Effect before after [.refused item]

theorem produce_effect (memory : SpscMemory α capacity) (valid : memory.Valid) :
    memory.produce.1.Valid ∧ Effect memory.queue memory.produce.1.queue memory.produce.2 := by
  obtain ⟨producer, consumer⟩ := valid
  unfold produce
  cases phase : memory.producer with
  | idle => exact ⟨⟨producer, consumer⟩, .silent rfl rfl⟩
  | loaded item head =>
      rw [phase] at producer
      dsimp only
      split
      · exact ⟨⟨trivial, consumer⟩, .silent rfl rfl⟩
      · rename_i room
        have room' : ¬ memory.queue.Full := fun full => room (producer ▸ full)
        exact ⟨⟨⟨producer, room'⟩, consumer⟩, .silent rfl rfl⟩
  | refusing item =>
      exact ⟨⟨trivial, consumerValid_dropped memory.queue _ memory.consumer consumer⟩,
        .refused item rfl rfl⟩
  | writing item head =>
      rw [phase] at producer
      obtain ⟨rfl, room⟩ := producer
      exact ⟨⟨⟨rfl, room, SpscQueue.cell_store_self _ _ _⟩,
        consumerValid_write memory.queue item memory.consumer consumer⟩,
        .silent (contents_write memory.queue item) rfl⟩
  | publishing item head =>
      rw [phase] at producer
      obtain ⟨rfl, room, rfl⟩ := producer
      exact ⟨⟨trivial, consumerValid_publish memory.queue room memory.consumer consumer⟩,
        .pushed _ room (contents_publish memory.queue room) rfl⟩

theorem consume_effect (memory : SpscMemory α capacity) (valid : memory.Valid) :
    memory.consume.1.Valid ∧ Effect memory.queue memory.consume.1.queue memory.consume.2 := by
  obtain ⟨producer, consumer⟩ := valid
  unfold consume
  cases phase : memory.consumer with
  | idle => exact ⟨⟨producer, consumer⟩, .silent rfl rfl⟩
  | loaded tail =>
      rw [phase] at consumer
      dsimp only
      split
      · exact ⟨⟨producer, trivial⟩, .empty rfl rfl⟩
      · rename_i apart
        have some : memory.queue.contents ≠ [] := fun none =>
          apart (consumer.trans ((SpscQueue.contents_eq_nil_iff _).mp none))
        exact ⟨⟨producer, consumer, some⟩, .silent rfl rfl⟩
  | reading tail =>
      rw [phase] at consumer
      exact ⟨⟨producer, consumer.1, consumer.2, rfl⟩, .silent rfl rfl⟩
  | releasing tail item =>
      rw [phase] at consumer
      obtain ⟨rfl, some, rfl⟩ := consumer
      exact ⟨⟨producerValid_release memory.queue some memory.producer producer, trivial⟩,
        .popped _ (contents_release memory.queue some) rfl⟩

/-- Every access keeps the invariant and is quiet, a push, a pop or a refusal. -/
theorem step_effect (memory : SpscMemory α capacity) (valid : memory.Valid)
    (access : SpscAccess α) :
    (memory.step access).1.Valid ∧
      Effect memory.queue (memory.step access).1.queue (memory.step access).2 := by
  obtain ⟨producer, consumer⟩ := valid
  cases access with
  | push item =>
      unfold step push
      cases phase : memory.producer with
      | idle => exact ⟨⟨rfl, consumer⟩, .silent rfl rfl⟩
      | _ => exact ⟨⟨producer, consumer⟩, .silent rfl rfl⟩
  | producer => exact produce_effect memory ⟨producer, consumer⟩
  | pop =>
      unfold step pop
      cases phase : memory.consumer with
      | idle => exact ⟨⟨producer, rfl⟩, .silent rfl rfl⟩
      | _ => exact ⟨⟨producer, consumer⟩, .silent rfl rfl⟩
  | consumer => exact consume_effect memory ⟨producer, consumer⟩

/-- A push that returns true is the atomic push, at its last access. -/
theorem Effect.push {before after : SpscQueue α capacity} {item : α}
    (effect : Effect before after [.pushed item]) :
    ∃ next, before.push item = (next, true) ∧ next.contents = after.contents := by
  cases effect with
  | pushed _ room contents dropped =>
      rcases before.push_cases item with ⟨full, -⟩ | ⟨-, next, pushed, grown, -⟩
      · exact absurd full room
      · exact ⟨next, pushed, grown.trans contents.symm⟩

/-- A pop that returns an item is the atomic pop, at its last access. -/
theorem Effect.pop {before after : SpscQueue α capacity} {item : α}
    (effect : Effect before after [.popped item]) :
    ∃ next, before.pop = (next, some item) ∧ next.contents = after.contents := by
  cases effect with
  | popped _ contents dropped =>
      obtain ⟨popped, -, left⟩ := SpscQueue.pop_cons before item _ contents
      exact ⟨before.pop.1, Prod.ext rfl popped, left⟩

/-! ### Runs -/

/-- What has been pushed is what has been popped and what is waiting. -/
structure History (memory : SpscMemory α capacity) (returns : List (SpscReturn α)) : Prop where
  valid : memory.Valid
  fifo : returns.filterMap SpscReturn.pushed? =
    returns.filterMap SpscReturn.popped? ++ memory.queue.contents
  losses : memory.queue.dropped =
    UInt64.ofNat (returns.filterMap SpscReturn.refused?).length

theorem History.extend {memory next : SpscMemory α capacity} {returns new : List (SpscReturn α)}
    (history : History memory returns) (valid : next.Valid)
    (effect : Effect memory.queue next.queue new) : History next (returns ++ new) := by
  refine ⟨valid, ?_, ?_⟩
  · rw [List.filterMap_append, List.filterMap_append, history.fifo]
    cases effect with
    | silent contents dropped => simp [contents]
    | empty contents dropped =>
        rw [contents]
        exact (List.append_nil _).trans (congrArg (· ++ _) (List.append_nil _).symm)
    | pushed item room contents dropped =>
        simp [contents, SpscReturn.pushed?, SpscReturn.popped?]
    | popped item contents dropped => simp [contents, SpscReturn.pushed?, SpscReturn.popped?]
    | refused item contents dropped =>
        rw [contents]
        exact (List.append_nil _).trans (congrArg (· ++ _) (List.append_nil _).symm)
  · rw [List.filterMap_append, List.length_append, UInt64.ofNat_add, ← history.losses]
    cases effect with
    | silent contents dropped => exact dropped.trans (UInt64.add_zero _).symm
    | empty contents dropped => exact dropped.trans (UInt64.add_zero _).symm
    | pushed item room contents dropped => exact dropped.trans (UInt64.add_zero _).symm
    | popped item contents dropped => exact dropped.trans (UInt64.add_zero _).symm
    | refused item contents dropped => exact dropped

theorem history_run (positive : 0 < capacity) (buffer : Vector α capacity)
    (accesses : List (SpscAccess α)) :
    History (Transducer.after step (start positive buffer) accesses)
      (Transducer.emitted step (start positive buffer) accesses) := by
  induction accesses using List.reverseRecOn with
  | nil => exact ⟨valid_start positive buffer, rfl, rfl⟩
  | append_singleton accesses access ih =>
      rw [Transducer.after_concat, Transducer.emitted_concat]
      obtain ⟨valid, effect⟩ := step_effect _ ih.valid access
      exact ih.extend valid effect

end SpscMemory

/-- The slot that the producer is about to write. -/
def ProducerAt.slot {α : Type} {capacity : Nat} : ProducerAt α capacity → Option (Fin capacity)
  | .writing _ head => some head
  | _ => none

/-- The slot that the consumer is about to read. -/
def ConsumerAt.slot {α : Type} {capacity : Nat} : ConsumerAt α capacity → Option (Fin capacity)
  | .reading tail => some tail
  | _ => none

namespace SpscMemory

variable {α : Type} {capacity : Nat}

theorem Valid.apart {memory : SpscMemory α capacity} (valid : memory.Valid) (slot : Fin capacity)
    (writes : memory.producer.slot = some slot) : memory.consumer.slot ≠ some slot := by
  obtain ⟨producer, consumer⟩ := valid
  intro reads
  cases writing : memory.producer with
  | writing item head =>
      cases reading : memory.consumer with
      | reading tail =>
          rw [writing] at producer writes
          rw [reading] at consumer reads
          have same : tail = head := Option.some.inj (reads.trans writes.symm)
          apply consumer.2
          rw [SpscQueue.contents_eq_nil_iff, ← consumer.1, ← producer.1]
          exact same
      | _ =>
          rw [reading] at reads
          cases reads
  | _ =>
      rw [writing] at writes
      cases writes

/-- However the accesses of the two threads interleave, the ring is a bounded
queue: first in first out, with room for all slots but one, the two threads
never at the same slot, and a count of what was refused. -/
theorem run_fifo (enough : 2 ≤ capacity) (buffer : Vector α capacity)
    (accesses : List (SpscAccess α)) :
    let memory := Transducer.after step (start (by omega) buffer) accesses
    let returns := Transducer.emitted step (start (by omega) buffer) accesses
    let pushed := returns.filterMap SpscReturn.pushed?
    let popped := returns.filterMap SpscReturn.popped?
    popped <+: pushed ∧
      pushed = popped ++ memory.queue.contents ∧
      pushed.length - popped.length ≤ capacity - 1 ∧
      (∀ slot, memory.producer.slot = some slot → memory.consumer.slot ≠ some slot) ∧
      memory.queue.dropped = UInt64.ofNat (returns.filterMap SpscReturn.refused?).length := by
  intro memory returns pushed popped
  obtain ⟨valid, fifo, losses⟩ := history_run (by omega) buffer accesses
  have bound := memory.queue.size_lt
  have lengths := congrArg List.length fifo
  rw [List.length_append, SpscQueue.length_contents] at lengths
  refine ⟨⟨memory.queue.contents, fifo.symm⟩, fifo, ?_, valid.apart, losses⟩
  change pushed.length = popped.length + memory.queue.size at lengths
  omega

/-- The accesses to a ring of two slots, of which one can be used: the second push
meets a full ring, the third does not. -/
def twoSlots : List (SpscAccess Nat) :=
  [.push 1, .producer, .producer, .pop, .producer, .push 2, .consumer, .producer, .producer,
    .consumer, .consumer, .push 3, .producer, .producer, .producer]

theorem run_fifo_two_slots :
    let memory := Transducer.after step (start (by decide) (Vector.replicate 2 0)) twoSlots
    let returns := Transducer.emitted step (start (by decide) (Vector.replicate 2 0)) twoSlots
    returns = [.pushed 1, .refused 2, .popped 1, .pushed 3] ∧
      [1, 3] = [1] ++ memory.queue.contents ∧
      (∀ slot, memory.producer.slot = some slot → memory.consumer.slot ≠ some slot) ∧
      memory.queue.dropped = 1 := by
  intro memory returns
  obtain ⟨-, fifo, -, apart, losses⟩ := run_fifo (by decide) (Vector.replicate 2 0) twoSlots
  exact ⟨by decide, fifo, apart, losses⟩

end SpscMemory
end TradingPlatform
