import TradingPlatform.Library.Linearizability
import TradingPlatform.SpscMemory

set_option autoImplicit false

/- The ring of loads and stores against the queue that it stands for: a list of
bounded length that one call at a time works on. -/
namespace TradingPlatform

open Linearizability

inductive SpscThread where
  | producer
  | consumer
  deriving DecidableEq

inductive SpscOperation (α : Type) where
  | push (item : α)
  | pop
  deriving DecidableEq

inductive SpscResult (α : Type) where
  | pushed (success : Bool)
  | popped (item : Option α)
  deriving DecidableEq

/-- A queue of at most `limit` items, with a count of those it had no room for. -/
structure BoundedQueue (α : Type) (limit : Nat) where
  items : List α
  bounded : items.length ≤ limit
  lost : Nat := 0

namespace BoundedQueue

variable {α : Type} {limit : Nat}

def empty : BoundedQueue α limit := { items := [], bounded := Nat.zero_le limit }

def push (queue : BoundedQueue α limit) (item : α) : BoundedQueue α limit × SpscResult α :=
  if room : queue.items.length < limit then
    ({ queue with
        items := queue.items ++ [item]
        bounded := by rw [List.length_append]; exact room }, .pushed true)
  else ({ queue with lost := queue.lost + 1 }, .pushed false)

def pop (queue : BoundedQueue α limit) : BoundedQueue α limit × SpscResult α :=
  ({ queue with
      items := queue.items.tail
      bounded := by rw [List.length_tail]; have bounded := queue.bounded; omega },
    .popped queue.items.head?)

def apply (queue : BoundedQueue α limit) :
    SpscOperation α → BoundedQueue α limit × SpscResult α
  | .push item => queue.push item
  | .pop => queue.pop

theorem push_room (queue : BoundedQueue α limit) (item : α) (room : queue.items.length < limit) :
    ∃ next, queue.apply (.push item) = (next, .pushed true) ∧
      next.items = queue.items ++ [item] ∧ next.lost = queue.lost := by
  refine ⟨(queue.push item).1, ?_⟩
  simp only [apply, push, room, ↓reduceDIte, and_self]

theorem push_full (queue : BoundedQueue α limit) (item : α) (full : queue.items.length = limit) :
    ∃ next, queue.apply (.push item) = (next, .pushed false) ∧
      next.items = queue.items ∧ next.lost = queue.lost + 1 := by
  refine ⟨(queue.push item).1, ?_⟩
  simp only [apply, push, full, Nat.lt_irrefl, ↓reduceDIte, and_self]

theorem pop_nil (queue : BoundedQueue α limit) (drained : queue.items = []) :
    queue.apply .pop = (queue, .popped none) := by
  cases queue
  subst drained
  rfl

theorem pop_cons (queue : BoundedQueue α limit) (item : α) (rest : List α)
    (waiting : queue.items = item :: rest) :
    ∃ next, queue.apply .pop = (next, .popped (some item)) ∧
      next.items = rest ∧ next.lost = queue.lost := by
  refine ⟨queue.pop.1, ?_, congrArg List.tail waiting, rfl⟩
  simp only [apply, pop, waiting, List.head?_cons]

end BoundedQueue

/-- A return of the ring, as it is seen from outside. -/
def SpscReturn.event {α : Type} :
    SpscReturn α → Event SpscThread (SpscOperation α) (SpscResult α)
  | .pushed _ => .response .producer (.pushed true)
  | .refused _ => .response .producer (.pushed false)
  | .popped item => .response .consumer (.popped (some item))
  | .empty => .response .consumer (.popped none)

namespace SpscMemory

variable {α : Type} {capacity : Nat}

/-- The call that an access enters. -/
def enters (memory : SpscMemory α capacity) :
    SpscAccess α → List (Event SpscThread (SpscOperation α) (SpscResult α))
  | .push item =>
      match memory.producer with
      | .idle => [.invoke .producer (.push item)]
      | _ => []
  | .pop =>
      match memory.consumer with
      | .idle => [.invoke .consumer .pop]
      | _ => []
  | _ => []

/-- An access with the calls entered and the results returned. -/
def observe (memory : SpscMemory α capacity) (access : SpscAccess α) :
    SpscMemory α capacity × List (Event SpscThread (SpscOperation α) (SpscResult α)) :=
  ((memory.step access).1,
    memory.enters access ++ (memory.step access).2.map SpscReturn.event)

end SpscMemory

/-- A push takes effect when its store publishes the head, or when its load of
the tail shows a full ring. -/
def ProducerAt.progress {α : Type} {capacity : Nat} :
    ProducerAt α capacity → Progress (SpscOperation α) (SpscResult α)
  | .idle => .idle
  | .refusing _ => .effected (.pushed false)
  | .loaded item _ | .writing item _ | .publishing item _ => .invoked (.push item)

/-- A pop takes effect when its store releases the tail, or when its load of the
head shows an empty ring. -/
def ConsumerAt.progress {α : Type} {capacity : Nat} :
    ConsumerAt α capacity → Progress (SpscOperation α) (SpscResult α)
  | .idle => .idle
  | .loaded _ | .reading _ | .releasing _ _ => .invoked .pop

/-- A refusal that is not counted yet. -/
def ProducerAt.uncounted {α : Type} {capacity : Nat} : ProducerAt α capacity → UInt64
  | .refusing _ => 1
  | _ => 0

namespace SpscMemory

variable {α : Type} {capacity : Nat}

def progress (memory : SpscMemory α capacity) :
    SpscThread → Progress (SpscOperation α) (SpscResult α)
  | .producer => memory.producer.progress
  | .consumer => memory.consumer.progress

/-- The bounded queue that the members of the ring stand for. -/
structure Stands (memory : SpscMemory α capacity) (queue : BoundedQueue α (capacity - 1)) :
    Prop where
  valid : memory.Valid
  items : queue.items = memory.queue.contents
  lost : UInt64.ofNat queue.lost = memory.queue.dropped + memory.producer.uncounted

/-- What the bounded queue does while the ring goes on to the next members. -/
def Matched (memory next : SpscMemory α capacity) (queue : BoundedQueue α (capacity - 1))
    (history : List (Event SpscThread (SpscOperation α) (SpscResult α))) : Prop :=
  ∃ calls queue', next.Stands queue' ∧
    Moves BoundedQueue.apply queue memory.progress history calls queue' next.progress

section Steps

variable {memory next : SpscMemory α capacity} {queue queue' : BoundedQueue α (capacity - 1)}
variable {history : List (Event SpscThread (SpscOperation α) (SpscResult α))}
variable {calls : List (Call SpscThread (SpscOperation α) (SpscResult α))}

theorem matched_producer (stands : next.Stands queue') (kept : next.consumer = memory.consumer)
    (moves : Moves BoundedQueue.apply queue memory.progress history calls queue'
      (Function.update memory.progress .producer next.producer.progress)) :
    memory.Matched next queue history := by
  have same : Function.update memory.progress .producer next.producer.progress = next.progress := by
    funext thread
    cases thread with
    | producer => exact Function.update_self _ _ _
    | consumer => exact (Function.update_of_ne (by decide) _ _).trans (by simp only [progress, kept])
  rw [same] at moves
  exact ⟨calls, queue', stands, moves⟩

theorem matched_consumer (stands : next.Stands queue') (kept : next.producer = memory.producer)
    (moves : Moves BoundedQueue.apply queue memory.progress history calls queue'
      (Function.update memory.progress .consumer next.consumer.progress)) :
    memory.Matched next queue history := by
  have same : Function.update memory.progress .consumer next.consumer.progress = next.progress := by
    funext thread
    cases thread with
    | consumer => exact Function.update_self _ _ _
    | producer => exact (Function.update_of_ne (by decide) _ _).trans (by simp only [progress, kept])
  rw [same] at moves
  exact ⟨calls, queue', stands, moves⟩

theorem matched_silent (stands : next.Stands queue)
    (producer : next.producer.progress = memory.producer.progress)
    (consumer : next.consumer.progress = memory.consumer.progress) :
    memory.Matched next queue [] := by
  have same : memory.progress = next.progress := by
    funext thread
    cases thread with
    | producer => exact producer.symm
    | consumer => exact consumer.symm
  refine ⟨[], queue, stands, ?_⟩
  rw [same]
  exact .rest

theorem Stands.length_full (stands : memory.Stands queue) (full : memory.queue.Full) :
    queue.items.length = capacity - 1 := by
  rw [SpscQueue.full_iff] at full
  rw [stands.items, SpscQueue.length_contents]
  omega

theorem Stands.length_room (stands : memory.Stands queue) (room : ¬ memory.queue.Full) :
    queue.items.length < capacity - 1 := by
  have bound := memory.queue.size_lt
  rw [SpscQueue.full_iff] at room
  rw [stands.items, SpscQueue.length_contents]
  omega

theorem push_matched (stands : memory.Stands queue) (item : α) :
    memory.Matched (memory.push item) queue (memory.enters (.push item)) := by
  have valid : (memory.push item).Valid := (step_effect memory stands.valid (.push item)).1
  have counted := stands.lost
  unfold push at valid
  unfold push enters
  cases phase : memory.producer with
  | idle =>
      rw [phase] at valid counted
      have waiting : memory.progress .producer = .idle := congrArg ProducerAt.progress phase
      exact matched_producer ⟨valid, stands.items, counted⟩ rfl (.invoked _ _ waiting)
  | _ => exact matched_silent stands rfl rfl

theorem pop_matched (stands : memory.Stands queue) :
    memory.Matched memory.pop queue (memory.enters .pop) := by
  have valid : memory.pop.Valid := (step_effect memory stands.valid .pop).1
  unfold pop at valid
  unfold pop enters
  cases phase : memory.consumer with
  | idle =>
      rw [phase] at valid
      have waiting : memory.progress .consumer = .idle := congrArg ConsumerAt.progress phase
      exact matched_consumer ⟨valid, stands.items, stands.lost⟩ rfl (.invoked _ _ waiting)
  | _ => exact matched_silent stands rfl rfl

theorem produce_matched (stands : memory.Stands queue) :
    memory.Matched memory.produce.1 queue (memory.produce.2.map SpscReturn.event) := by
  have valid := (produce_effect memory stands.valid).1
  have atHead := stands.valid.producer
  have counted := stands.lost
  unfold produce at valid ⊢
  cases phase : memory.producer with
  | idle => exact matched_silent stands rfl rfl
  | loaded item head =>
      have called : memory.progress .producer = .invoked (.push item) :=
        congrArg ProducerAt.progress phase
      rw [phase] at valid atHead counted
      dsimp only at valid ⊢
      by_cases full : SpscQueue.increment head = memory.queue.tail
      · rw [if_pos full] at valid ⊢
        have atHead : head = memory.queue.head := atHead
        subst atHead
        obtain ⟨next, pushed, items, lost⟩ := queue.push_full item (stands.length_full full)
        refine matched_producer ⟨valid, items.trans stands.items, ?_⟩ rfl
          (.effected _ _ _ called pushed)
        rw [lost, UInt64.ofNat_add, counted]
        exact congrArg (· + 1) (UInt64.add_zero memory.queue.dropped)
      · rw [if_neg full] at valid ⊢
        exact matched_silent ⟨valid, stands.items, counted⟩
          (congrArg ProducerAt.progress phase).symm rfl
  | refusing item =>
      have refused : memory.progress .producer = .effected (.pushed false) :=
        congrArg ProducerAt.progress phase
      rw [phase] at valid counted
      exact matched_producer ⟨valid, stands.items, counted.trans (UInt64.add_zero _).symm⟩ rfl
        (.returned _ _ refused)
  | writing item head =>
      rw [phase] at valid atHead counted
      obtain ⟨rfl, -⟩ := atHead
      have items := stands.items.trans (contents_write memory.queue item).symm
      exact matched_silent ⟨valid, items, counted⟩ (congrArg ProducerAt.progress phase).symm rfl
  | publishing item head =>
      have called : memory.progress .producer = .invoked (.push item) :=
        congrArg ProducerAt.progress phase
      rw [phase] at valid atHead counted
      obtain ⟨rfl, room, rfl⟩ := atHead
      obtain ⟨next, pushed, items, lost⟩ := queue.push_room _ (stands.length_room room)
      refine matched_producer ⟨valid, ?_, (congrArg UInt64.ofNat lost).trans counted⟩ rfl
        (.completed _ _ _ called pushed)
      rw [items, stands.items]
      exact (contents_publish memory.queue room).symm

theorem consume_matched (stands : memory.Stands queue) :
    memory.Matched memory.consume.1 queue (memory.consume.2.map SpscReturn.event) := by
  have valid := (consume_effect memory stands.valid).1
  have atTail := stands.valid.consumer
  unfold consume at valid ⊢
  cases phase : memory.consumer with
  | idle => exact matched_silent stands rfl rfl
  | loaded tail =>
      have called : memory.progress .consumer = .invoked .pop := congrArg ConsumerAt.progress phase
      rw [phase] at valid atTail
      dsimp only at valid ⊢
      by_cases drained : tail = memory.queue.head
      · rw [if_pos drained] at valid ⊢
        have atTail : tail = memory.queue.tail := atTail
        have none : queue.items = [] :=
          stands.items.trans ((SpscQueue.contents_eq_nil_iff _).mpr (atTail.symm.trans drained))
        exact matched_consumer ⟨valid, stands.items, stands.lost⟩ rfl
          (.completed _ _ _ called (queue.pop_nil none))
      · rw [if_neg drained] at valid ⊢
        exact matched_silent ⟨valid, stands.items, stands.lost⟩ rfl
          (congrArg ConsumerAt.progress phase).symm
  | reading tail =>
      rw [phase] at valid
      exact matched_silent ⟨valid, stands.items, stands.lost⟩ rfl
        (congrArg ConsumerAt.progress phase).symm
  | releasing tail item =>
      have called : memory.progress .consumer = .invoked .pop := congrArg ConsumerAt.progress phase
      rw [phase] at valid atTail
      obtain ⟨rfl, waiting, rfl⟩ := atTail
      have items := stands.items.trans (contents_release memory.queue waiting)
      obtain ⟨next, popped, rest, lost⟩ := queue.pop_cons _ _ items
      exact matched_consumer ⟨valid, rest, (congrArg UInt64.ofNat lost).trans stands.lost⟩ rfl
        (.completed _ _ _ called popped)

theorem step_matched (stands : memory.Stands queue) (access : SpscAccess α) :
    memory.Matched (memory.observe access).1 queue (memory.observe access).2 := by
  cases access with
  | push item =>
      show memory.Matched (memory.push item) queue (memory.enters (.push item) ++ [])
      rw [List.append_nil]
      exact push_matched stands item
  | producer => exact produce_matched stands
  | pop =>
      show memory.Matched memory.pop queue (memory.enters .pop ++ [])
      rw [List.append_nil]
      exact pop_matched stands
  | consumer => exact consume_matched stands

end Steps

/-- However the accesses interleave, what is seen of the ring is a bounded queue
of which every call takes effect at once, between its invocation and its return;
each thread is returned what that queue, used by one thread, gives to its calls.
The ring holds what the queue holds, and has counted its losses but for a refusal
that has not returned. -/
theorem run_linearizable (positive : 0 < capacity) (buffer : Vector α capacity)
    (accesses : List (SpscAccess α)) :
    let memory := Transducer.after step (start positive buffer) accesses
    let history := Transducer.emitted observe (start positive buffer) accesses
    ∃ (calls : List (Call SpscThread (SpscOperation α) (SpscResult α)))
      (queue : BoundedQueue α (capacity - 1)),
      Linearizes BoundedQueue.apply BoundedQueue.empty history calls queue memory.progress ∧
      Sequential BoundedQueue.apply BoundedQueue.empty calls queue ∧
      (∀ thread, resultsOf thread calls =
        results thread history ++ (memory.progress thread).pending) ∧
      queue.items = memory.queue.contents ∧
      UInt64.ofNat queue.lost = memory.queue.dropped + memory.producer.uncounted := by
  have begins : (start positive buffer).Stands BoundedQueue.empty :=
    ⟨valid_start positive buffer, ((SpscQueue.contents_eq_nil_iff _).mpr rfl).symm, rfl⟩
  have resting : (start positive buffer).progress = fun _ => .idle := by
    funext thread
    cases thread <;> rfl
  obtain ⟨calls, queue, progress, ⟨stands, same⟩, linearizes⟩ :=
    linearizes_of_simulation observe
      (fun memory queue progress => memory.Stands queue ∧ progress = memory.progress)
      (fun memory access queue progress related => by
        obtain ⟨stands, rfl⟩ := related
        obtain ⟨calls, queue', stands', moves⟩ := step_matched stands access
        exact ⟨calls, queue', _, ⟨stands', rfl⟩, moves⟩)
      (start positive buffer) BoundedQueue.empty ⟨begins, resting.symm⟩ accesses
  subst same
  exact ⟨calls, queue, linearizes, linearizes.sequential, linearizes.results_pending, stands.items,
    stands.lost⟩

/-- The push that meets a full ring has taken effect before the pop that makes
room, and returns after it. -/
theorem run_linearizable_lateRefusal :
    let accesses : List (SpscAccess Nat) :=
      [.push 1, .producer, .producer, .producer, .pop, .push 2, .producer, .consumer, .consumer,
        .consumer, .producer]
    let memory := Transducer.after step (start (by decide) (Vector.replicate 2 0)) accesses
    let history := Transducer.emitted observe (start (by decide) (Vector.replicate 2 0)) accesses
    ∃ (calls : List (Call SpscThread (SpscOperation Nat) (SpscResult Nat)))
      (queue : BoundedQueue Nat (2 - 1)),
      Linearizes BoundedQueue.apply BoundedQueue.empty history calls queue memory.progress ∧
      Sequential BoundedQueue.apply BoundedQueue.empty calls queue ∧
      (∀ thread, resultsOf thread calls =
        results thread history ++ (memory.progress thread).pending) ∧
      queue.items = memory.queue.contents ∧
      UInt64.ofNat queue.lost = memory.queue.dropped + memory.producer.uncounted :=
  run_linearizable (by decide) _ _

end SpscMemory
end TradingPlatform
