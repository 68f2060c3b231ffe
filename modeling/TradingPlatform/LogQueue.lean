import Mathlib.Data.Fintype.Basic
import Mathlib.Data.List.TakeDrop
import Mathlib.Logic.Function.Basic
import TradingPlatform.Library.History
import TradingPlatform.Library.Ring
import TradingPlatform.SpscMemory

set_option autoImplicit false

/- The queue of the asynchronous logger, one memory access at a time. Any number
of threads log, and one thread takes the events out. -/
namespace TradingPlatform

open SpscQueue (increment)
open Transducer

def logQueueCapacity : Nat := 1 <<< 15

structure AsyncLogQueue (α : Type) (capacity : Nat) where
  buffer : Fin capacity → α
  head : Fin capacity
  tail : Fin capacity
  dropped : UInt64 := 0

/-- Where a thread is in `try_push_log_event`, with its locals. -/
inductive LoggerAt (α : Type) (capacity : Nat) where
  | idle
  /-- At the top of the loop, before the load of the head. -/
  | looping (event : α)
  | loaded (event : α) (head : Fin capacity)
  | refusing (event : α)
  | claiming (event : α) (head : Fin capacity)
  | writing (event : α) (head : Fin capacity)
  deriving DecidableEq

namespace LoggerAt

variable {α : Type} {capacity : Nat}

/-- The slot that the thread tries to claim. -/
def target : LoggerAt α capacity → Option (Fin capacity)
  | .claiming _ head => some head
  | _ => none

/-- The slot that the thread is about to write. -/
def slot : LoggerAt α capacity → Option (Fin capacity)
  | .writing _ head => some head
  | _ => none

end LoggerAt

/-- The queue and the threads that use it. The consumer goes through the same
accesses as the one of the bounded ring. -/
structure LogMemory (ι α : Type) (capacity : Nat) where
  queue : AsyncLogQueue α capacity
  logger : ι → LoggerAt α capacity := fun _ => .idle
  consumer : ConsumerAt α capacity := .idle

/-- A thread enters a call, or makes its next access. A weak exchange may fail
without a reason. -/
inductive LogAccess (ι α : Type) where
  | log (thread : ι) (event : α)
  | logger (thread : ι) (spurious : Bool)
  | pop
  | consumer
  deriving DecidableEq

/-- What an access shows of the calls. -/
inductive LogMark (ι α : Type) where
  | claimed (thread : ι) (event : α)
  | pushed (thread : ι) (event : α)
  | refused (thread : ι) (event : α)
  | read (event : α)
  | popped (event : α)
  | empty
  deriving DecidableEq

namespace LogMark

variable {ι α : Type}

def claim? : LogMark ι α → Option (ι × α)
  | .claimed thread event => some (thread, event)
  | _ => none

def popped? : LogMark ι α → Option α
  | .popped event => some event
  | _ => none

end LogMark

namespace LogMemory

variable {ι α : Type} {capacity : Nat}

def start (ι : Type) (positive : 0 < capacity) (buffer : Fin capacity → α) :
    LogMemory ι α capacity where
  queue := { buffer, head := ⟨0, positive⟩, tail := ⟨0, positive⟩ }

section Accesses

variable [DecidableEq ι]

/-- One thread goes on, the others stay where they are. -/
def move (memory : LogMemory ι α capacity) (thread : ι) (at' : LoggerAt α capacity) :
    LogMemory ι α capacity :=
  { memory with logger := Function.update memory.logger thread at' }

def log (memory : LogMemory ι α capacity) (thread : ι) (event : α) : LogMemory ι α capacity :=
  match memory.logger thread with
  | .idle => memory.move thread (.looping event)
  | _ => memory

def push (memory : LogMemory ι α capacity) (thread : ι) (spurious : Bool) :
    LogMemory ι α capacity × List (LogMark ι α) :=
  match memory.logger thread with
  | .idle => (memory, [])
  | .looping event => (memory.move thread (.loaded event memory.queue.head), [])
  | .loaded event head =>
      if increment head = memory.queue.tail then (memory.move thread (.refusing event), [])
      else (memory.move thread (.claiming event head), [])
  | .refusing event =>
      ({ memory.move thread .idle with
          queue := { memory.queue with dropped := memory.queue.dropped + 1 } },
        [.refused thread event])
  | .claiming event head =>
      if memory.queue.head = head ∧ ¬ spurious then
        ({ memory.move thread (.writing event head) with
            queue := { memory.queue with head := increment head } },
          [.claimed thread event])
      else (memory.move thread (.looping event), [])
  | .writing event head =>
      ({ memory.move thread .idle with
          queue := { memory.queue with
            buffer := Function.update memory.queue.buffer head event } },
        [.pushed thread event])

def pop (memory : LogMemory ι α capacity) : LogMemory ι α capacity :=
  match memory.consumer with
  | .idle => { memory with consumer := .loaded memory.queue.tail }
  | _ => memory

def consume (memory : LogMemory ι α capacity) :
    LogMemory ι α capacity × List (LogMark ι α) :=
  match memory.consumer with
  | .idle => (memory, [])
  | .loaded tail =>
      if tail = memory.queue.head then ({ memory with consumer := .idle }, [.empty])
      else ({ memory with consumer := .reading tail }, [])
  | .reading tail =>
      let event := memory.queue.buffer tail
      ({ memory with consumer := .releasing tail event }, [.read event])
  | .releasing tail event =>
      ({ memory with
          queue := { memory.queue with tail := increment tail }
          consumer := .idle }, [.popped event])

def step (memory : LogMemory ι α capacity) :
    LogAccess ι α → LogMemory ι α capacity × List (LogMark ι α)
  | .log thread event => (memory.log thread event, [])
  | .logger thread spurious => memory.push thread spurious
  | .pop => (memory.pop, [])
  | .consumer => memory.consume

end Accesses

/-! ### What the marks say -/

/-- The events in the order in which their slots were claimed, with the threads. -/
def claims (marks : List (LogMark ι α)) : List (ι × α) := marks.filterMap LogMark.claim?

def popped (marks : List (LogMark ι α)) : List α := marks.filterMap LogMark.popped?

/-- The claim with some number is that of some thread for some event, and the
thread has written the event into its slot since. -/
def Written (marks : List (LogMark ι α)) (number : Nat) (thread : ι) (event : α) : Prop :=
  ∃ first rest, marks = first ++ .claimed thread event :: rest ∧
    (claims first).length = number ∧ .pushed thread event ∈ rest

/-- A read and a pop show the next event in claim order, after its thread has
written it, and the queue is found empty when everything claimed is popped. -/
def Sound (before : List (LogMark ι α)) : LogMark ι α → Prop
  | .read event => ∃ thread, Written before (popped before).length thread event
  | .popped event => ∃ thread, Written before (popped before).length thread event
  | .empty => popped before = (claims before).map Prod.snd
  | _ => True

/-- The slot that the consumer reads is not one that a thread has claimed and
still has to write, and the queue that a thread found with room has room at its
exchange. -/
def Clear (memory : LogMemory ι α capacity) : LogAccess ι α → Prop
  | .consumer => ∀ tail ∈ memory.consumer.slot, ∀ thread, (memory.logger thread).slot ≠ some tail
  | .logger thread spurious => ∀ head ∈ (memory.logger thread).target,
      memory.queue.head = head → spurious = false → increment head ≠ memory.queue.tail
  | _ => True

instance [Fintype ι] (memory : LogMemory ι α capacity) :
    (access : LogAccess ι α) → Decidable (memory.Clear access)
  | .log .. => inferInstanceAs (Decidable True)
  | .logger thread _ => Option.decidableForallMem (memory.logger thread).target
  | .pop => inferInstanceAs (Decidable True)
  | .consumer => Option.decidableForallMem memory.consumer.slot

/-! ### The slots of the ring -/

/-- The slot of the claim, or of the pop, with some number. -/
def slot (positive : 0 < capacity) (number : Nat) : Fin capacity :=
  ⟨number % capacity, Nat.mod_lt _ positive⟩

section Slots

variable (positive : 0 < capacity)

theorem increment_slot (number : Nat) :
    increment (slot positive number) = slot positive (number + 1) :=
  Fin.ext (Nat.mod_add_mod number capacity 1)

/-- Less than a round apart, different numbers have different slots. -/
theorem slot_inj {first second : Nat} (order : first ≤ second) (near : second < first + capacity)
    (same : slot positive first = slot positive second) : first = second :=
  Ring.mod_inj order near (Fin.mk.inj same)

theorem slot_round (number : Nat) : slot positive (number + capacity) = slot positive number :=
  Fin.ext (Nat.add_mod_right number capacity)

end Slots

/-! ### Marks and what they add -/

section Marks

variable (marks more : List (LogMark ι α))

theorem claims_append : claims (marks ++ more) = claims marks ++ claims more :=
  List.filterMap_append

theorem popped_append : popped (marks ++ more) = popped marks ++ popped more :=
  List.filterMap_append

theorem Written.append {number : Nat} {thread : ι} {event : α}
    (written : Written marks number thread event) :
    Written (marks ++ more) number thread event := by
  obtain ⟨first, rest, rfl, count, pushed⟩ := written
  exact ⟨first, rest ++ more, by simp, count, List.mem_append_left more pushed⟩

/-- The thread of a claim writes. -/
theorem written_push {number : Nat} {thread : ι} {event : α}
    (claimed : (claims marks)[number]? = some (thread, event)) :
    Written (marks ++ [.pushed thread event]) number thread event := by
  obtain ⟨first, mark, rest, rfl, shows, count⟩ := History.split_at_shown claimed
  cases mark with
  | claimed other held =>
      obtain ⟨rfl, rfl⟩ := Prod.mk.inj (Option.some.inj shows)
      refine ⟨first, rest ++ [.pushed other held], by simp, count, ?_⟩
      exact List.mem_append_right rest (List.mem_singleton_self _)
  | _ => cases shows

theorem claims_claimed (thread : ι) (event : α) :
    claims (marks ++ [.claimed thread event]) = claims marks ++ [(thread, event)] :=
  claims_append _ _

theorem popped_claimed (thread : ι) (event : α) :
    popped (marks ++ [.claimed thread event]) = popped marks :=
  (popped_append _ _).trans (List.append_nil _)

theorem claims_claimed_iff (thread other : ι) (event held : α) (number : Nat) :
    (claims (marks ++ [.claimed thread event]))[number]? = some (other, held) ↔
      (claims marks)[number]? = some (other, held) ∨
        (number = (claims marks).length ∧ other = thread ∧ event = held) := by
  rw [claims_claimed, List.getElem?_append]
  split
  · rename_i old
    have apart : number ≠ (claims marks).length := by omega
    simp [apart]
  · rename_i new
    have past : (claims marks)[number]? = none := List.getElem?_eq_none (by omega)
    rw [past, List.getElem?_singleton]
    by_cases last : number = (claims marks).length
    · simp [last, eq_comm]
    · have far : number - (claims marks).length ≠ 0 := by omega
      simp [far, last]

end Marks

/-! ### The invariant -/

/-- The locals of the consumer: the tail, whether there is an event, and the
event itself once it is read. -/
def ConsumerValid (memory : LogMemory ι α capacity) (marks : List (LogMark ι α)) :
    ConsumerAt α capacity → Prop
  | .idle => True
  | .loaded tail => tail = memory.queue.tail
  | .reading tail => tail = memory.queue.tail ∧ (popped marks).length < (claims marks).length
  | .releasing tail event => tail = memory.queue.tail ∧
      (∃ thread, (claims marks)[(popped marks).length]? = some (thread, event)) ∧
      ∀ thread held, memory.logger thread ≠ .writing held tail

/-- The head and the tail count the claims and the pops around the ring. A slot
between them is still to be written by the thread that claimed it, or holds its
event. -/
structure Valid (positive : 0 < capacity) (memory : LogMemory ι α capacity)
    (marks : List (LogMark ι α)) : Prop where
  head : memory.queue.head = slot positive (claims marks).length
  tail : memory.queue.tail = slot positive (popped marks).length
  order : popped marks <+: (claims marks).map Prod.snd
  room : (claims marks).length < (popped marks).length + capacity
  held : ∀ number thread event, (popped marks).length ≤ number →
    (claims marks)[number]? = some (thread, event) →
    memory.logger thread = .writing event (slot positive number) ∨
      (memory.queue.buffer (slot positive number) = event ∧ Written marks number thread event)
  writing : ∀ thread event head, memory.logger thread = .writing event head →
    ∃ number, (popped marks).length ≤ number ∧
      (claims marks)[number]? = some (thread, event) ∧ slot positive number = head
  consumer : ConsumerValid memory marks memory.consumer
  sound : History.Always Sound marks

theorem valid_start (positive : 0 < capacity) (buffer : Fin capacity → α) :
    Valid positive (start ι positive buffer) [] where
  head := Fin.ext (Nat.zero_mod capacity).symm
  tail := Fin.ext (Nat.zero_mod capacity).symm
  order := List.nil_prefix
  room := by
    show 0 < 0 + capacity
    omega
  held := by
    intro number thread event _ claimed
    simp [claims] at claimed
  writing := by
    intro thread event head at'
    cases at'
  consumer := trivial
  sound := History.always_nil _

section Steps

variable {positive : 0 < capacity} {memory : LogMemory ι α capacity}
  {marks : List (LogMark ι α)}

theorem Valid.popped_le (valid : Valid positive memory marks) :
    (popped marks).length ≤ (claims marks).length := by
  have bound := valid.order.length_le
  rwa [List.length_map] at bound

/-- A claim of a thread that has room there leaves the queue short of full. -/
theorem Valid.claimed_room (valid : Valid positive memory marks)
    (clear : increment memory.queue.head ≠ memory.queue.tail) :
    (claims marks).length + 1 < (popped marks).length + capacity := by
  have room := valid.room
  by_contra full
  apply clear
  rw [valid.head, increment_slot, valid.tail, ← slot_round positive (popped marks).length]
  congr 1
  omega

/-- Of the marks the consumer needs the claims and the pops. -/
theorem ConsumerValid.congr {more : List (LogMark ι α)} {at' : ConsumerAt α capacity}
    (valid : ConsumerValid memory marks at') (claimed : claims more = claims marks)
    (taken : popped more = popped marks) : ConsumerValid memory more at' := by
  cases at' with
  | idle => exact trivial
  | loaded tail => exact valid
  | reading tail =>
      unfold ConsumerValid
      rw [claimed, taken]
      exact valid
  | releasing tail event =>
      unfold ConsumerValid
      rw [claimed, taken]
      exact valid

/-- An access that claims nothing, writes nothing and pops nothing. -/
theorem Valid.quiet (valid : Valid positive memory marks) (next : LogMemory ι α capacity)
    (shown : List (LogMark ι α)) (head : next.queue.head = memory.queue.head)
    (tail : next.queue.tail = memory.queue.tail)
    (buffer : next.queue.buffer = memory.queue.buffer)
    (writers : ∀ thread event head,
      next.logger thread = .writing event head ↔ memory.logger thread = .writing event head)
    (noClaim : claims shown = []) (noPop : popped shown = [])
    (consumer : ConsumerValid next marks next.consumer)
    (sound : History.Always Sound (marks ++ shown)) : Valid positive next (marks ++ shown) := by
  have claimed : claims (marks ++ shown) = claims marks := by
    rw [claims_append, noClaim, List.append_nil]
  have taken : popped (marks ++ shown) = popped marks := by
    rw [popped_append, noPop, List.append_nil]
  refine ⟨?_, ?_, ?_, ?_, ?_, ?_, ?_, sound⟩
  · rw [head, claimed, valid.head]
  · rw [tail, taken, valid.tail]
  · rw [claimed, taken]
    exact valid.order
  · rw [claimed, taken]
    exact valid.room
  · intro number thread event behind found
    rw [taken] at behind
    rw [claimed] at found
    rw [buffer, writers]
    exact (valid.held number thread event behind found).imp_right
      (And.imp_right fun written => written.append marks shown)
  · intro thread event head at'
    rw [claimed, taken]
    exact valid.writing thread event head ((writers thread event head).mp at')
  · exact consumer.congr claimed taken

/-- The consumer does not notice what the threads do that are not writing. -/
theorem ConsumerValid.frame {next : LogMemory ι α capacity}
    (valid : ConsumerValid memory marks memory.consumer)
    (same : next.consumer = memory.consumer) (tail : next.queue.tail = memory.queue.tail)
    (writers : ∀ thread event head,
      next.logger thread = .writing event head → memory.logger thread = .writing event head) :
    ConsumerValid next marks next.consumer := by
  rw [same]
  cases phase : memory.consumer with
  | idle => exact trivial
  | loaded slot =>
      rw [phase] at valid
      exact valid.trans tail.symm
  | reading slot =>
      rw [phase] at valid
      exact ⟨valid.1.trans tail.symm, valid.2⟩
  | releasing slot event =>
      rw [phase] at valid
      obtain ⟨place, claimed, unwritten⟩ := valid
      exact ⟨place.trans tail.symm, claimed,
        fun thread held at' => unwritten thread held (writers thread held slot at')⟩

/-- The load of the head, which decides whether there is an event. -/
theorem Valid.load (valid : Valid positive memory marks) (tail : Fin capacity)
    (phase : memory.consumer = .loaded tail) :
    Valid positive memory.consume.1 (marks ++ memory.consume.2) := by
  have consumer := valid.consumer
  rw [phase] at consumer
  have atTail : tail = slot positive (popped marks).length := Eq.trans consumer valid.tail
  simp only [consume, phase]
  split
  · rename_i none
    have all : (popped marks).length = (claims marks).length :=
      slot_inj positive valid.popped_le valid.room
        (atTail.symm.trans (none.trans valid.head))
    refine valid.quiet _ _ rfl rfl rfl (fun _ _ _ => Iff.rfl) rfl rfl trivial ?_
    rw [History.always_concat]
    refine ⟨valid.sound, ?_⟩
    exact valid.order.eq_of_length (by rw [List.length_map]; exact all)
  · rename_i present
    refine valid.quiet _ _ rfl rfl rfl (fun _ _ _ => Iff.rfl) rfl rfl ⟨consumer, ?_⟩
      (by rw [List.append_nil]; exact valid.sound)
    apply Nat.lt_of_le_of_ne valid.popped_le
    intro all
    exact present (by rw [atTail, all, valid.head])

/-- A read of a slot that nobody still has to write. -/
theorem Valid.read (valid : Valid positive memory marks) (tail : Fin capacity)
    (phase : memory.consumer = .reading tail)
    (clear : memory.Clear .consumer) :
    Valid positive memory.consume.1 (marks ++ memory.consume.2) := by
  have unwritten : ∀ thread event, memory.logger thread ≠ .writing event tail := by
    intro thread event writing
    exact clear tail (by rw [phase]; rfl) thread (by rw [writing]; rfl)
  have consumer := valid.consumer
  rw [phase] at consumer
  obtain ⟨atTail, present⟩ := consumer
  have place : slot positive (popped marks).length = tail := (atTail.trans valid.tail).symm
  obtain ⟨⟨thread, event⟩, found⟩ : ∃ claim, (claims marks)[(popped marks).length]? = some claim :=
    ⟨_, List.getElem?_eq_getElem present⟩
  rcases valid.held _ thread event (Nat.le_refl _) found with writing | ⟨stored, written⟩
  · rw [place] at writing
    exact absurd writing (unwritten thread event)
  · rw [place] at stored
    simp only [consume, phase, stored]
    refine valid.quiet _ _ rfl rfl rfl (fun _ _ _ => Iff.rfl) rfl rfl
      ⟨atTail, ⟨thread, found⟩, unwritten⟩ ?_
    rw [History.always_concat]
    exact ⟨valid.sound, thread, written⟩

theorem Valid.release (valid : Valid positive memory marks) (tail : Fin capacity) (event : α)
    (phase : memory.consumer = .releasing tail event) :
    Valid positive memory.consume.1 (marks ++ memory.consume.2) := by
  have consumer := valid.consumer
  rw [phase] at consumer
  obtain ⟨atTail, ⟨owner, found⟩, unwritten⟩ := consumer
  have place : tail = slot positive (popped marks).length := atTail.trans valid.tail
  have claimed : claims (marks ++ [.popped event]) = claims marks :=
    (claims_append _ _).trans (List.append_nil _)
  have taken : popped (marks ++ [.popped event]) = popped marks ++ [event] := popped_append _ _
  have more : (popped (marks ++ [.popped event])).length = (popped marks).length + 1 := by
    rw [taken, List.length_append, List.length_singleton]
  simp only [consume, phase]
  refine ⟨?_, ?_, ?_, ?_, ?_, ?_, trivial, ?_⟩
  · rw [claimed]
    exact valid.head
  · show increment tail = _
    rw [more, ← increment_slot, place]
  · rw [claimed, taken, List.prefix_iff_eq_take, List.length_append, List.length_singleton,
      List.take_add_one, ← List.prefix_iff_eq_take.mp valid.order, List.getElem?_map, found]
    rfl
  · rw [claimed, more]
    have room := valid.room
    omega
  · intro number thread held behind claim
    rw [more] at behind
    rw [claimed] at claim
    exact (valid.held number thread held (by omega) claim).imp_right
      (And.imp_right fun written => written.append marks _)
  · intro thread held head writes
    obtain ⟨number, behind, claim, here⟩ := valid.writing thread held head writes
    refine ⟨number, ?_, by rw [claimed]; exact claim, here⟩
    rw [more]
    apply Nat.lt_of_le_of_ne behind
    intro first
    exact unwritten thread held (by rw [place, first, here]; exact writes)
  · rw [History.always_concat]
    refine ⟨valid.sound, owner, ?_⟩
    rcases valid.held _ owner event (Nat.le_refl _) found with writing | ⟨-, written⟩
    · exact absurd (place ▸ writing) (unwritten owner event)
    · exact written

section Accesses

variable [DecidableEq ι]

theorem move_logger (thread other : ι) (at' : LoggerAt α capacity) :
    (memory.move thread at').logger other =
      if other = thread then at' else memory.logger other :=
  Function.update_apply ..

/-- A thread that is not writing and does not begin to write. -/
theorem writing_move (thread : ι) (at' : LoggerAt α capacity)
    (before : ∀ event head, memory.logger thread ≠ .writing event head)
    (after : ∀ event head, at' ≠ .writing event head) (other : ι) (event : α)
    (head : Fin capacity) :
    (memory.move thread at').logger other = .writing event head ↔
      memory.logger other = .writing event head := by
  rw [move_logger]
  split
  · rename_i same
    rw [same]
    exact iff_of_false (after event head) (before event head)
  · exact Iff.rfl

theorem Valid.move (valid : Valid positive memory marks) (thread : ι) (at' : LoggerAt α capacity)
    (before : ∀ event head, memory.logger thread ≠ .writing event head)
    (after : ∀ event head, at' ≠ .writing event head) :
    Valid positive (memory.move thread at') marks := by
  have writers := writing_move thread at' before after
  have moved := valid.quiet (memory.move thread at') [] rfl rfl rfl writers rfl rfl
    (valid.consumer.frame rfl rfl fun other event head => (writers other event head).mp)
    (by rw [List.append_nil]; exact valid.sound)
  rwa [List.append_nil] at moved

/-- A claim of a thread that found room there. -/
def claimed (memory : LogMemory ι α capacity) (thread : ι) (event : α) (head : Fin capacity) :
    LogMemory ι α capacity :=
  { memory.move thread (.writing event head) with
    queue := { memory.queue with head := increment head } }

theorem claimed_writing (thread other : ι) (event held : α) (head place : Fin capacity) :
    (memory.claimed thread event head).logger other = .writing held place ↔
      (other = thread ∧ event = held ∧ head = place) ∨
        (other ≠ thread ∧ memory.logger other = .writing held place) := by
  show (memory.move thread (.writing event head)).logger other = _ ↔ _
  rw [move_logger]
  split
  · rename_i same
    simp [same]
  · rename_i apart
    simp [apart]

/-- The consumer keeps its event, and the claimed slot is not the one it reads. -/
theorem Valid.claimed_consumer (valid : Valid positive memory marks) (thread : ι) (event : α) :
    ConsumerValid (memory.claimed thread event memory.queue.head)
      (marks ++ [.claimed thread event]) memory.consumer := by
  have consumer := valid.consumer
  cases reading : memory.consumer with
  | idle => exact trivial
  | loaded tail =>
      rw [reading] at consumer
      exact consumer
  | reading tail =>
      rw [reading] at consumer
      refine ⟨consumer.1, ?_⟩
      rw [claims_claimed, popped_claimed, List.length_append]
      exact Nat.lt_add_right _ consumer.2
  | releasing tail item =>
      rw [reading] at consumer
      obtain ⟨atTail, ⟨owner, found⟩, unwritten⟩ := consumer
      have inside := (List.getElem?_eq_some_iff.mp found).1
      refine ⟨atTail, ⟨owner, ?_⟩, ?_⟩
      · rw [claims_claimed_iff, popped_claimed]
        exact Or.inl found
      · intro other held writes
        rcases (claimed_writing ..).mp writes with ⟨-, -, place⟩ | ⟨-, before⟩
        · have meet := slot_inj positive valid.popped_le valid.room
            (valid.tail.symm.trans (atTail.symm.trans (place.symm.trans valid.head)))
          omega
        · exact unwritten other held before

/-- A claim takes the next slot. -/
theorem Valid.claim (valid : Valid positive memory marks) (thread : ι) (event : α)
    (phase : memory.logger thread = .claiming event memory.queue.head)
    (clear : increment memory.queue.head ≠ memory.queue.tail) :
    Valid positive (memory.claimed thread event memory.queue.head)
      (marks ++ [.claimed thread event]) := by
  refine ⟨?_, ?_, ?_, ?_, ?_, ?_, valid.claimed_consumer thread event, ?_⟩
  · show increment memory.queue.head = _
    rw [claims_claimed, List.length_append, List.length_singleton, ← increment_slot, valid.head]
  · rw [popped_claimed]
    exact valid.tail
  · rw [claims_claimed, popped_claimed, List.map_append]
    exact valid.order.trans (List.prefix_append _ _)
  · rw [claims_claimed, popped_claimed, List.length_append]
    exact valid.claimed_room clear
  · intro number other held behind found
    rw [popped_claimed] at behind
    rw [claimed_writing]
    rcases (claims_claimed_iff ..).mp found with old | ⟨last, mine, same⟩
    · rcases valid.held number other held behind old with writing | ⟨stored, written⟩
      · refine Or.inl (Or.inr ⟨?_, writing⟩)
        rintro rfl
        rw [phase] at writing
        cases writing
      · exact Or.inr ⟨stored, written.append _ _⟩
    · rw [last, ← valid.head]
      exact Or.inl (Or.inl ⟨mine, same, rfl⟩)
  · intro other held place writes
    rw [popped_claimed]
    rcases (claimed_writing ..).mp writes with ⟨mine, same, here⟩ | ⟨-, before⟩
    · refine ⟨(claims marks).length, valid.popped_le, ?_, valid.head.symm.trans here⟩
      rw [claims_claimed_iff]
      exact Or.inr ⟨rfl, mine, same⟩
    · obtain ⟨number, behind, found, at'⟩ := valid.writing other held place before
      refine ⟨number, behind, ?_, at'⟩
      rw [claims_claimed_iff]
      exact Or.inl found
  · rw [History.always_concat]
    exact ⟨valid.sound, trivial⟩

/-- The write of a thread into the slot it has claimed. -/
def stored (memory : LogMemory ι α capacity) (thread : ι) (event : α) (head : Fin capacity) :
    LogMemory ι α capacity :=
  { memory.move thread .idle with
    queue := { memory.queue with buffer := Function.update memory.queue.buffer head event } }

theorem stored_writing (thread other : ι) (event held : α) (head place : Fin capacity) :
    (memory.stored thread event head).logger other = .writing held place ↔
      other ≠ thread ∧ memory.logger other = .writing held place := by
  show (memory.move thread .idle).logger other = _ ↔ _
  rw [move_logger]
  split
  · rename_i same
    simp [same]
  · rename_i apart
    simp [apart]

theorem Valid.store (valid : Valid positive memory marks) (thread : ι) (event : α)
    (head : Fin capacity) (phase : memory.logger thread = .writing event head) :
    Valid positive (memory.stored thread event head) (marks ++ [.pushed thread event]) := by
  have claimed : claims (marks ++ [.pushed thread event]) = claims marks :=
    (claims_append _ _).trans (List.append_nil _)
  have taken : popped (marks ++ [.pushed thread event]) = popped marks :=
    (popped_append _ _).trans (List.append_nil _)
  obtain ⟨own, waiting, mine, place⟩ := valid.writing thread event head phase
  refine ⟨?_, ?_, ?_, ?_, ?_, ?_, ?_, ?_⟩
  · rw [claimed]
    exact valid.head
  · rw [taken]
    exact valid.tail
  · rw [claimed, taken]
    exact valid.order
  · rw [claimed, taken]
    exact valid.room
  · intro number other held behind found
    rw [taken] at behind
    rw [claimed] at found
    rw [stored_writing]
    by_cases same : number = own
    · -- the claim that the write completes
      rw [same, mine] at found
      obtain ⟨rfl, rfl⟩ := Prod.mk.inj (Option.some.inj found)
      rw [same, place]
      exact Or.inr ⟨Function.update_self .., written_push marks mine⟩
    · have inside := (List.getElem?_eq_some_iff.mp found).1
      have ownInside := (List.getElem?_eq_some_iff.mp mine).1
      have room := valid.room
      have apart : slot positive number ≠ head := by
        intro equal
        rcases Nat.le_total number own with order | order
        · exact same (slot_inj positive order (by omega) (equal.trans place.symm))
        · exact same (slot_inj positive order (by omega) (place.trans equal.symm)).symm
      rcases valid.held number other held behind found with writing | ⟨stored, written⟩
      · refine Or.inl ⟨?_, writing⟩
        rintro rfl
        rw [phase] at writing
        exact apart (LoggerAt.writing.inj writing).2.symm
      · exact Or.inr ⟨(Function.update_of_ne apart ..).trans stored, written.append _ _⟩
  · intro other held at' writes
    rw [claimed, taken]
    exact valid.writing other held at' ((stored_writing ..).mp writes).2
  · have consumer : ConsumerValid (memory.stored thread event head) marks
        (memory.stored thread event head).consumer :=
      valid.consumer.frame rfl rfl fun other held at' writes => ((stored_writing ..).mp writes).2
    exact consumer.congr claimed taken
  · rw [History.always_concat]
    exact ⟨valid.sound, trivial⟩

theorem Valid.push (valid : Valid positive memory marks) (thread : ι) (spurious : Bool)
    (clear : memory.Clear (.logger thread spurious)) :
    Valid positive (memory.push thread spurious).1 (marks ++ (memory.push thread spurious).2) := by
  cases phase : memory.logger thread with
  | idle =>
      simp only [LogMemory.push, phase, List.append_nil]
      exact valid
  | looping event =>
      simp only [LogMemory.push, phase, List.append_nil]
      exact valid.move thread _ (by simp [phase]) (by simp)
  | loaded event head =>
      simp only [LogMemory.push, phase]
      split
      · rw [List.append_nil]
        exact valid.move thread _ (by simp [phase]) (by simp)
      · rw [List.append_nil]
        exact valid.move thread _ (by simp [phase]) (by simp)
  | refusing event =>
      simp only [LogMemory.push, phase]
      have moved := valid.move thread .idle (by simp [phase]) (by simp)
      refine moved.quiet _ _ rfl rfl rfl (fun _ _ _ => Iff.rfl) rfl rfl
        (moved.consumer.frame rfl rfl fun _ _ _ => id) ?_
      rw [History.always_concat]
      exact ⟨valid.sound, trivial⟩
  | claiming event head =>
      simp only [LogMemory.push, phase]
      split
      · rename_i exchanged
        obtain ⟨rfl, genuine⟩ := exchanged
        exact valid.claim thread event phase
          (clear _ (by rw [phase]; rfl) rfl (Bool.eq_false_of_not_eq_true genuine))
      · rw [List.append_nil]
        exact valid.move thread _ (by simp [phase]) (by simp)
  | writing event head =>
      simp only [LogMemory.push, phase]
      exact valid.store thread event head phase

theorem Valid.step (valid : Valid positive memory marks) (access : LogAccess ι α)
    (clear : memory.Clear access) :
    Valid positive (memory.step access).1 (marks ++ (memory.step access).2) := by
  cases access with
  | log thread event =>
      show Valid positive (memory.log thread event) (marks ++ [])
      rw [List.append_nil]
      unfold LogMemory.log
      split
      · rename_i idle
        exact valid.move thread _ (by simp [idle]) (by simp)
      · exact valid
  | logger thread spurious => exact valid.push thread spurious clear
  | pop =>
      show Valid positive memory.pop (marks ++ [])
      unfold LogMemory.pop
      split
      · exact valid.quiet _ [] rfl rfl rfl (fun _ _ _ => Iff.rfl) rfl rfl rfl
          (by rw [List.append_nil]; exact valid.sound)
      · rw [List.append_nil]
        exact valid
  | consumer =>
      cases phase : memory.consumer with
      | idle =>
          simp only [LogMemory.step, LogMemory.consume, phase, List.append_nil]
          exact valid
      | loaded tail => exact valid.load tail phase
      | reading tail => exact valid.read tail phase clear
      | releasing tail event => exact valid.release tail event phase

end Accesses

end Steps

/-! ### Runs -/

section Runs

variable [DecidableEq ι]

theorem valid_run (positive : 0 < capacity) (buffer : Fin capacity → α)
    (accesses : List (LogAccess ι α))
    (clear : History.Always
      (fun before access => (after step (start ι positive buffer) before).Clear access) accesses) :
    Valid positive (after step (start ι positive buffer) accesses)
      (emitted step (start ι positive buffer) accesses) := by
  induction accesses using List.reverseRecOn with
  | nil => exact valid_start positive buffer
  | append_singleton accesses last ih =>
      rw [History.always_concat] at clear
      rw [after_concat, emitted_concat]
      exact (ih clear.1).step last clear.2

/-- In a run whose reads and exchanges are clear the events come out in the order
of the claims, each read when it is written, and none is left in an empty queue. -/
theorem run_claim_order (positive : 0 < capacity) (buffer : Fin capacity → α)
    (accesses : List (LogAccess ι α))
    (clear : History.Always
      (fun before access => (after step (start ι positive buffer) before).Clear access) accesses) :
    let marks := emitted step (start ι positive buffer) accesses
    popped marks <+: (claims marks).map Prod.snd ∧ History.Always Sound marks := by
  intro marks
  have valid := valid_run positive buffer accesses clear
  exact ⟨valid.order, valid.sound⟩

/-- The queue of the source, with zeros in its slots. -/
def blank (ι : Type) : LogMemory ι Nat logQueueCapacity := start ι (by decide) fun _ => 0

/-- Two threads. The second one sees its head taken and goes round its loop, and
the consumer comes when the first one has written. -/
def twoThreads : List (LogAccess Bool Nat) :=
  [.log true 1, .log false 2, .logger true false, .logger false false, .logger true false,
    .logger false false, .logger true false, .logger false false, .logger true false, .pop,
    .consumer, .consumer, .consumer]

theorem run_claim_order_twoThreads :
    let marks := emitted step (blank Bool) twoThreads
    popped marks <+: (claims marks).map Prod.snd ∧ History.Always Sound marks :=
  run_claim_order _ _ twoThreads (by decide +kernel)

/-- The thread has claimed its slot, and the consumer reads it before it is written. -/
def earlyRead : List (LogAccess Unit Nat) :=
  [.log () 1, .logger () false, .logger () false, .logger () false, .pop, .consumer, .consumer,
    .consumer]

theorem earlyRead_popped :
    ¬ popped (emitted step (blank Unit) earlyRead) <+:
      (claims (emitted step (blank Unit) earlyRead)).map Prod.snd := by
  decide +kernel

end Runs

end LogMemory
end TradingPlatform
