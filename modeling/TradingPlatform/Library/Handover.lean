import Mathlib.Data.List.Basic

set_option autoImplicit false

/- Items handed from a producer to a consumer through a channel that may lose
its newest item, with a record of what was settled and a consumer that may close
before the producer has finished. -/

structure Handover (α : Type) where
  produced : List α := []
  waiting : List α := []
  settled : List α := []
  recorded : List α := []
  closed : Bool := false

namespace Handover

variable {α : Type}

inductive Event (α : Type) where
  | quiet
  | produce (item : α)
  /-- The item handed over last does not fit. -/
  | lose
  /-- The oldest waiting item is settled, with a record of it or without. -/
  | settle (kept : Bool)
  | close

/-- A closed consumer settles nothing. -/
def settleOldest (handover : Handover α) (kept : Bool) : Handover α :=
  match handover.closed, handover.waiting with
  | false, item :: rest =>
      { handover with
          waiting := rest
          settled := handover.settled ++ [item]
          recorded := if kept then handover.recorded ++ [item] else handover.recorded }
  | _, _ => handover

def apply (handover : Handover α) : Event α → Handover α
  | .quiet => handover
  | .produce item =>
      { handover with
          produced := handover.produced ++ [item]
          waiting := handover.waiting ++ [item] }
  | .lose => { handover with waiting := handover.waiting.dropLast }
  | .settle kept => handover.settleOldest kept
  | .close => { handover with closed := true }

/-- The event forgets nothing that the consumer could still settle. -/
def Clean (handover : Handover α) : Event α → Prop
  | .quiet => True
  | .produce _ => handover.closed = false
  | .lose => handover.closed = true ∨ handover.waiting = []
  | .settle kept => handover.closed = true ∨ handover.waiting = [] ∨ kept = true
  | .close => handover.closed = true ∨ handover.waiting = []

variable (base : List α)

/-- Items are settled in the order of their production, and recorded in that
order behind the records that were there before. -/
structure Sound (handover : Handover α) : Prop where
  order : (handover.settled ++ handover.waiting).Sublist handover.produced
  records : handover.recorded.Sublist (base ++ handover.settled)

/-- What was produced is settled or can still be, and what was settled is
recorded. -/
structure Whole (handover : Handover α) : Prop where
  items : handover.produced =
    handover.settled ++ if handover.closed then [] else handover.waiting
  records : handover.recorded = base ++ handover.settled

variable {base} {handover : Handover α}

theorem settleOldest_idle (kept : Bool)
    (idle : handover.closed = true ∨ handover.waiting = []) :
    handover.settleOldest kept = handover := by
  unfold settleOldest
  split
  · rename_i item rest opened waiting
    rcases idle with closed | none
    · rw [opened] at closed
      cases closed
    · rw [waiting] at none
      cases none
  · rfl

theorem settleOldest_cons (kept : Bool) {item : α} {rest : List α}
    (opened : handover.closed = false) (waiting : handover.waiting = item :: rest) :
    handover.settleOldest kept =
      { handover with
          waiting := rest
          settled := handover.settled ++ [item]
          recorded := if kept then handover.recorded ++ [item] else handover.recorded } := by
  simp only [settleOldest, opened, waiting]

theorem idle_or_cons (handover : Handover α) :
    (handover.closed = true ∨ handover.waiting = []) ∨
      ∃ item rest, handover.closed = false ∧ handover.waiting = item :: rest := by
  cases closed : handover.closed with
  | true => exact Or.inl (Or.inl rfl)
  | false =>
      cases waiting : handover.waiting with
      | nil => exact Or.inl (Or.inr rfl)
      | cons item rest => exact Or.inr ⟨item, rest, rfl, rfl⟩

/-! ### What always holds -/

theorem Sound.apply (sound : Sound base handover) (event : Event α) :
    Sound base (handover.apply event) := by
  cases event with
  | quiet => exact sound
  | produce item =>
      refine ⟨?_, sound.records⟩
      have longer := sound.order.append (List.Sublist.refl [item])
      rw [List.append_assoc] at longer
      exact longer
  | lose =>
      refine ⟨?_, sound.records⟩
      exact ((List.Sublist.refl _).append (List.dropLast_sublist _)).trans sound.order
  | settle kept =>
      rw [Handover.apply]
      rcases idle_or_cons handover with idle | ⟨item, rest, opened, waiting⟩
      · rw [settleOldest_idle kept idle]
        exact sound
      · rw [settleOldest_cons kept opened waiting]
        have order := sound.order
        rw [waiting, List.append_cons] at order
        refine ⟨order, ?_⟩
        have longer := sound.records.append (List.Sublist.refl [item])
        rw [List.append_assoc] at longer
        cases kept with
        | true => exact longer
        | false => exact (List.sublist_append_left _ _).trans longer
  | close => exact ⟨sound.order, sound.records⟩

/-- What is left to settle fits behind what was settled. -/
theorem Sound.length (sound : Sound base handover) :
    handover.settled.length + handover.waiting.length ≤ handover.produced.length ∧
      handover.recorded.length ≤ base.length + handover.settled.length := by
  have order := sound.order.length_le
  have records := sound.records.length_le
  rw [List.length_append] at order records
  exact ⟨order, records⟩

/-- A waiting item was waiting before, or is new. -/
theorem mem_waiting_apply (event : Event α) (item : α)
    (member : item ∈ (handover.apply event).waiting) :
    item ∈ handover.waiting ∨ event = .produce item := by
  cases event with
  | quiet => exact Or.inl member
  | produce other =>
      rcases List.mem_append.mp member with old | new
      · exact Or.inl old
      · exact Or.inr (by rw [List.mem_singleton.mp new])
  | lose => exact Or.inl ((List.dropLast_sublist _).subset member)
  | settle kept =>
      left
      rw [apply] at member
      rcases idle_or_cons handover with idle | ⟨first, rest, opened, waiting⟩
      · rwa [settleOldest_idle kept idle] at member
      · rw [settleOldest_cons kept opened waiting] at member
        rw [waiting]
        exact List.mem_cons_of_mem _ member
  | close => exact Or.inl member

/-! ### What clean events keep -/

theorem Sound.whole_produce (sound : Sound base handover) (item : α) :
    Whole base (handover.apply (.produce item)) ↔
      Whole base handover ∧ handover.closed = false := by
  have lengths := sound.length.1
  constructor
  · rintro ⟨items, same⟩
    cases closed : handover.closed with
    | true =>
        have counts := congrArg List.length items
        simp [Handover.apply, closed] at counts
        omega
    | false =>
        refine ⟨⟨?_, same⟩, rfl⟩
        simp only [Handover.apply, closed, Bool.false_eq_true, ↓reduceIte] at items ⊢
        rw [← List.append_assoc] at items
        exact List.append_cancel_right items
  · rintro ⟨⟨items, same⟩, opened⟩
    refine ⟨?_, same⟩
    simp only [Handover.apply, opened, Bool.false_eq_true, ↓reduceIte] at items ⊢
    rw [items, List.append_assoc]

theorem Sound.whole_lose (sound : Sound base handover) :
    Whole base (handover.apply .lose) ↔
      Whole base handover ∧ (handover.closed = true ∨ handover.waiting = []) := by
  have lengths := sound.length.1
  constructor
  · rintro ⟨items, same⟩
    cases closed : handover.closed with
    | true =>
        refine ⟨⟨?_, same⟩, Or.inl rfl⟩
        simpa only [Handover.apply, closed, ↓reduceIte] using items
    | false =>
        simp only [Handover.apply, closed, Bool.false_eq_true, ↓reduceIte] at items
        have counts := congrArg List.length items
        rw [List.length_append, List.length_dropLast] at counts
        have none : handover.waiting = [] := by
          apply List.length_eq_zero_iff.mp
          omega
        refine ⟨⟨?_, same⟩, Or.inr none⟩
        rw [none] at items ⊢
        simpa [closed] using items
  · rintro ⟨⟨items, same⟩, closed | none⟩
    · refine ⟨?_, same⟩
      simpa [Handover.apply, closed] using items
    · refine ⟨?_, same⟩
      simpa [Handover.apply, none] using items

theorem Sound.whole_settle (sound : Sound base handover) (kept : Bool) {item : α}
    {rest : List α} (opened : handover.closed = false)
    (waiting : handover.waiting = item :: rest) :
    Whole base (handover.settleOldest kept) ↔ Whole base handover ∧ kept = true := by
  have lengths := sound.length.2
  rw [settleOldest_cons kept opened waiting]
  constructor
  · rintro ⟨items, records⟩
    simp only [opened, Bool.false_eq_true, ↓reduceIte] at items records
    cases kept with
    | true =>
        rw [if_pos rfl, ← List.append_assoc] at records
        refine ⟨⟨?_, List.append_cancel_right records⟩, rfl⟩
        rw [items, opened, waiting, if_neg Bool.false_ne_true, List.append_assoc,
          List.singleton_append]
    | false =>
        have counts := congrArg List.length records
        simp at counts
        omega
  · rintro ⟨⟨items, records⟩, rfl⟩
    rw [opened, waiting, if_neg Bool.false_ne_true] at items
    refine ⟨?_, ?_⟩
    · simp only [opened, Bool.false_eq_true, ↓reduceIte]
      rw [items, List.append_assoc, List.singleton_append]
    · simp only [↓reduceIte]
      rw [records, List.append_assoc]

theorem Sound.whole_close (sound : Sound base handover) :
    Whole base (handover.apply .close) ↔
      Whole base handover ∧ (handover.closed = true ∨ handover.waiting = []) := by
  have lengths := sound.length.1
  constructor
  · rintro ⟨items, same⟩
    have all : handover.produced = handover.settled := by simpa [Handover.apply] using items
    have counts := congrArg List.length all
    have none : handover.waiting = [] := by
      apply List.length_eq_zero_iff.mp
      omega
    refine ⟨⟨?_, same⟩, Or.inr none⟩
    rw [all, none, ite_self, List.append_nil]
  · rintro ⟨⟨items, same⟩, closed | none⟩
    · refine ⟨?_, same⟩
      simpa [Handover.apply, closed] using items
    · refine ⟨?_, same⟩
      simpa [Handover.apply, none] using items

/-- One event keeps a handover whole exactly when it is clean, and never makes
it whole. -/
theorem Sound.whole_apply (sound : Sound base handover) (event : Event α) :
    Whole base (handover.apply event) ↔ Whole base handover ∧ handover.Clean event := by
  cases event with
  | quiet => exact ⟨fun whole => ⟨whole, trivial⟩, fun both => both.1⟩
  | produce item => exact sound.whole_produce item
  | lose => exact sound.whole_lose
  | settle kept =>
      rw [Handover.apply]
      rcases idle_or_cons handover with idle | ⟨item, rest, opened, waiting⟩
      · rw [settleOldest_idle kept idle]
        exact ⟨fun whole => ⟨whole, idle.imp id Or.inl⟩, fun both => both.1⟩
      · rw [sound.whole_settle kept opened waiting]
        simp [Clean, opened, waiting]
  | close => exact sound.whole_close

end Handover
