import Mathlib.Data.List.Basic

set_option autoImplicit false

/- The bounded ring, one whole `push` or `pop` at a time. One slot always stays
empty, so that equal indices mean an empty ring. -/
namespace TradingPlatform

structure SpscQueue (α : Type) (capacity : Nat) where
  buffer : Vector α capacity
  head : Fin capacity
  tail : Fin capacity
  dropped : UInt64 := 0

namespace SpscQueue

variable {α : Type} {capacity : Nat}

def cell (buffer : Vector α capacity) (index : Fin capacity) : α := buffer[index]

/-- The buffer with an item in one slot. -/
def store (buffer : Vector α capacity) (index : Fin capacity) (item : α) : Vector α capacity :=
  buffer.set index item

def increment (index : Fin capacity) : Fin capacity :=
  ⟨(index.val + 1) % capacity, Nat.mod_lt _ index.pos⟩

def empty [Inhabited α] (positive : 0 < capacity) : SpscQueue α capacity where
  buffer := Vector.replicate capacity default
  head := ⟨0, positive⟩
  tail := ⟨0, positive⟩

def push (queue : SpscQueue α capacity) (item : α) : SpscQueue α capacity × Bool :=
  let next := increment queue.head
  if next = queue.tail then
    ({ queue with dropped := queue.dropped + 1 }, false)
  else
    ({ queue with buffer := queue.buffer.set queue.head item, head := next }, true)

def pop (queue : SpscQueue α capacity) : SpscQueue α capacity × Option α :=
  if queue.tail = queue.head then
    (queue, none)
  else
    ({ queue with tail := increment queue.tail }, some (cell queue.buffer queue.tail))

/-- The number of items between the indices. -/
def size (queue : SpscQueue α capacity) : Nat :=
  if queue.tail.val ≤ queue.head.val then queue.head.val - queue.tail.val
  else queue.head.val + capacity - queue.tail.val

/-- The slot `offset` places behind the tail. -/
def slot (queue : SpscQueue α capacity) (offset : Nat) : Fin capacity :=
  ⟨(queue.tail.val + offset) % capacity, Nat.mod_lt _ queue.tail.pos⟩

/-- The queue as the consumer will see it. -/
def contents (queue : SpscQueue α capacity) : List α :=
  (List.range queue.size).map fun offset => cell queue.buffer (queue.slot offset)

def Full (queue : SpscQueue α capacity) : Prop := increment queue.head = queue.tail

instance (queue : SpscQueue α capacity) : Decidable queue.Full :=
  inferInstanceAs (Decidable (_ = _))

theorem cell_set_self (buffer : Vector α capacity) (index : Fin capacity) (item : α) :
    cell (buffer.set index item) index = item := by
  simp [cell]

theorem cell_set_ne (buffer : Vector α capacity) (index other : Fin capacity) (item : α)
    (apart : other ≠ index) : cell (buffer.set index item) other = cell buffer other := by
  have differ : index.val ≠ other.val := fun equal => apart (Fin.ext equal.symm)
  simp [cell, Vector.getElem_set_ne _ _ differ]

theorem cell_store_self (buffer : Vector α capacity) (index : Fin capacity) (item : α) :
    cell (store buffer index item) index = item :=
  cell_set_self buffer index item

theorem cell_store_ne (buffer : Vector α capacity) (index other : Fin capacity) (item : α)
    (apart : other ≠ index) : cell (store buffer index item) other = cell buffer other :=
  cell_set_ne buffer index other item apart

theorem store_cell (buffer : Vector α capacity) (index : Fin capacity) :
    store buffer index (cell buffer index) = buffer := by
  simp [store, cell]

theorem increment_val (index : Fin capacity) :
    (increment index).val = if index.val + 1 = capacity then 0 else index.val + 1 := by
  have bound := index.isLt
  unfold increment
  split
  · rename_i wraps
    simp only [wraps, Nat.mod_self]
  · exact Nat.mod_eq_of_lt (by omega)

theorem slot_val (queue : SpscQueue α capacity) (offset : Nat) (inside : offset < capacity) :
    (queue.slot offset).val =
      if queue.tail.val + offset < capacity then queue.tail.val + offset
      else queue.tail.val + offset - capacity := by
  have bound := queue.tail.isLt
  unfold slot
  split
  · rename_i short
    exact Nat.mod_eq_of_lt short
  · rename_i wraps
    change (queue.tail.val + offset) % capacity = _
    rw [Nat.mod_eq_sub_mod (by omega), Nat.mod_eq_of_lt (by omega)]

theorem size_lt (queue : SpscQueue α capacity) : queue.size < capacity := by
  have head := queue.head.isLt
  have tail := queue.tail.isLt
  unfold size
  split <;> omega

@[simp] theorem length_contents (queue : SpscQueue α capacity) :
    queue.contents.length = queue.size := by
  simp only [contents, List.length_map, List.length_range]

theorem full_iff (queue : SpscQueue α capacity) : queue.Full ↔ queue.size + 1 = capacity := by
  have head := queue.head.isLt
  have tail := queue.tail.isLt
  unfold Full size
  rw [Fin.ext_iff, increment_val]
  split <;> split <;> omega

theorem size_eq_zero_iff (queue : SpscQueue α capacity) :
    queue.size = 0 ↔ queue.tail = queue.head := by
  have head := queue.head.isLt
  have tail := queue.tail.isLt
  rw [Fin.ext_iff]
  unfold size
  split <;> omega

theorem contents_eq_nil_iff (queue : SpscQueue α capacity) :
    queue.contents = [] ↔ queue.tail = queue.head := by
  rw [← size_eq_zero_iff, ← length_contents, List.length_eq_zero_iff]

@[simp] theorem contents_empty [Inhabited α] (positive : 0 < capacity) :
    (empty positive : SpscQueue α capacity).contents = [] :=
  (contents_eq_nil_iff _).mpr rfl

/-- A full ring refuses the item and counts the loss. -/
theorem push_full (queue : SpscQueue α capacity) (item : α) (full : queue.Full) :
    queue.push item = ({ queue with dropped := queue.dropped + 1 }, false) := by
  unfold Full at full
  simp only [push, full, ↓reduceIte]

/-- The item goes behind everything that is waiting. -/
theorem push_room (queue : SpscQueue α capacity) (item : α) (room : ¬ queue.Full) :
    (queue.push item).2 = true ∧ (queue.push item).1.dropped = queue.dropped ∧
      (queue.push item).1.contents = queue.contents ++ [item] := by
  have head := queue.head.isLt
  have tail := queue.tail.isLt
  have bound := queue.size_lt
  have space : queue.size + 1 ≠ capacity := fun equal => room ((full_iff queue).mpr equal)
  unfold Full at room
  have pushed : queue.push item =
      ({ queue with
          buffer := queue.buffer.set queue.head item
          head := increment queue.head }, true) := by
    simp only [push, room, ↓reduceIte]
  rw [pushed]
  refine ⟨rfl, rfl, ?_⟩
  have grown : size { queue with
      buffer := queue.buffer.set queue.head item
      head := increment queue.head } = queue.size + 1 := by
    unfold size at *
    simp only [increment_val] at *
    split at space <;> split <;> split <;> omega
  have last : queue.slot queue.size = queue.head := by
    apply Fin.ext
    rw [slot_val queue queue.size bound]
    unfold size
    split <;> split <;> omega
  unfold contents
  rw [grown, List.range_succ, List.map_append, List.map_singleton]
  congr 1
  · apply List.map_congr_left
    intro offset member
    have inside : offset < queue.size := List.mem_range.mp member
    refine cell_set_ne _ _ _ _ fun equal => ?_
    have same := congrArg Fin.val (equal.trans last.symm)
    change (queue.slot offset).val = _ at same
    rw [slot_val queue offset (by omega), slot_val queue queue.size bound] at same
    split at same <;> split at same <;> omega
  · change [cell (queue.buffer.set queue.head item) (queue.slot queue.size)] = [item]
    rw [last, cell_set_self]

theorem pop_nil (queue : SpscQueue α capacity) (idle : queue.contents = []) :
    queue.pop = (queue, none) := by
  simp only [pop, (contents_eq_nil_iff queue).mp idle, ↓reduceIte]

/-- The oldest item leaves, the rest stay in order. -/
theorem pop_cons (queue : SpscQueue α capacity) (item : α) (rest : List α)
    (waiting : queue.contents = item :: rest) :
    queue.pop.2 = some item ∧ queue.pop.1.dropped = queue.dropped ∧
      queue.pop.1.contents = rest := by
  have head := queue.head.isLt
  have tail := queue.tail.isLt
  have bound := queue.size_lt
  have nonempty : queue.tail ≠ queue.head := by
    intro equal
    rw [(contents_eq_nil_iff queue).mpr equal] at waiting
    cases waiting
  have popped : queue.pop =
      ({ queue with tail := increment queue.tail }, some (cell queue.buffer queue.tail)) := by
    simp only [pop, nonempty, ↓reduceIte]
  have shrunk : size { queue with tail := increment queue.tail } + 1 = queue.size := by
    have apart : queue.tail.val ≠ queue.head.val := fun equal => nonempty (Fin.ext equal)
    unfold size
    simp only [increment_val]
    split <;> split <;> split <;> omega
  have moved : ∀ offset, offset + 1 < queue.size →
      slot { queue with tail := increment queue.tail } offset = queue.slot (offset + 1) := by
    intro offset inside
    apply Fin.ext
    rw [slot_val _ _ (by omega), slot_val _ _ (by omega)]
    simp only [increment_val]
    split <;> split <;> split <;> omega
  have first : queue.slot 0 = queue.tail := by
    apply Fin.ext
    rw [slot_val queue 0 (by omega)]
    simp [tail]
  have unrolled : queue.contents = cell queue.buffer queue.tail ::
      contents { queue with tail := increment queue.tail } := by
    unfold contents
    rw [← shrunk, List.range_succ_eq_map, List.map_cons, List.map_map, first]
    congr 1
    apply List.map_congr_left
    intro offset member
    have inside := List.mem_range.mp member
    simp only [Function.comp_apply, Nat.succ_eq_add_one]
    rw [moved offset (by omega)]
  rw [unrolled] at waiting
  obtain ⟨same, kept⟩ := List.cons.inj waiting
  rw [popped]
  exact ⟨congrArg some same, rfl, kept⟩

/-- What a push can do. -/
theorem push_cases (queue : SpscQueue α capacity) (item : α) :
    (queue.Full ∧ ∃ next, queue.push item = (next, false) ∧
        next.contents = queue.contents ∧ next.dropped = queue.dropped + 1) ∨
      (¬ queue.Full ∧ ∃ next, queue.push item = (next, true) ∧
        next.contents = queue.contents ++ [item] ∧ next.dropped = queue.dropped) := by
  by_cases full : queue.Full
  · exact Or.inl ⟨full, _, push_full queue item full, rfl, rfl⟩
  · obtain ⟨pushed, dropped, contents⟩ := push_room queue item full
    exact Or.inr ⟨full, (queue.push item).1, Prod.ext rfl pushed, contents, dropped⟩

/-- What a pop can do. -/
theorem pop_cases (queue : SpscQueue α capacity) :
    (queue.contents = [] ∧ queue.pop = (queue, none)) ∨
      ∃ item rest next, queue.contents = item :: rest ∧ queue.pop = (next, some item) ∧
        next.contents = rest ∧ next.dropped = queue.dropped := by
  cases waiting : queue.contents with
  | nil => exact Or.inl ⟨rfl, pop_nil queue waiting⟩
  | cons item rest =>
      obtain ⟨popped, dropped, contents⟩ := pop_cons queue item rest waiting
      exact Or.inr ⟨item, rest, queue.pop.1, rfl, Prod.ext rfl popped, contents, dropped⟩

/-- An empty ring takes an item. -/
theorem push_empty (queue : SpscQueue α capacity) (item : α) (enough : 2 ≤ capacity)
    (idle : queue.contents = []) :
    ∃ next, queue.push item = (next, true) ∧ next.contents = [item] := by
  have size : queue.size = 0 := by rw [← length_contents, idle, List.length_nil]
  have room : ¬ queue.Full := by
    rw [full_iff]
    omega
  obtain ⟨pushed, -, contents⟩ := push_room queue item room
  exact ⟨(queue.push item).1, Prod.ext rfl pushed, by rw [contents, idle, List.nil_append]⟩

/-- The only item leaves an empty ring. -/
theorem pop_single (queue : SpscQueue α capacity) (item : α) (single : queue.contents = [item]) :
    ∃ next, queue.pop = (next, some item) ∧ next.contents = [] := by
  obtain ⟨popped, -, contents⟩ := pop_cons queue item [] single
  exact ⟨queue.pop.1, Prod.ext rfl popped, contents⟩

end SpscQueue
end TradingPlatform
