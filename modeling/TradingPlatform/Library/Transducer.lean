import Mathlib.Data.List.Basic
import Mathlib.Data.List.Forall2

set_option autoImplicit false

/- Deterministic sequential transducers: a state, one input at a time, any
number of outputs for each. A stage of a pipeline is such a step, and what the
stage emits depends only on the inputs it has consumed. -/
namespace Transducer

variable {σ α β γ : Type*}

/-- The state after consuming a whole input history. -/
def after (step : σ → α → σ × List β) (s : σ) (inputs : List α) : σ :=
  inputs.foldl (fun s input => (step s input).1) s

/-- Everything emitted while consuming an input history. -/
def emitted (step : σ → α → σ × List β) : σ → List α → List β
  | _, [] => []
  | s, input :: rest => (step s input).2 ++ emitted step (step s input).1 rest

section Histories

variable (step : σ → α → σ × List β)

@[simp] theorem after_nil (s : σ) : after step s [] = s := rfl

@[simp] theorem after_cons (s : σ) (input : α) (rest : List α) :
    after step s (input :: rest) = after step (step s input).1 rest := rfl

@[simp] theorem emitted_nil (s : σ) : emitted step s [] = [] := rfl

@[simp] theorem emitted_cons (s : σ) (input : α) (rest : List α) :
    emitted step s (input :: rest) = (step s input).2 ++ emitted step (step s input).1 rest := rfl

theorem after_append (s : σ) (first second : List α) :
    after step s (first ++ second) = after step (after step s first) second :=
  List.foldl_append

theorem emitted_append (s : σ) (first second : List α) :
    emitted step s (first ++ second) =
      emitted step s first ++ emitted step (after step s first) second := by
  induction first generalizing s with
  | nil => rfl
  | cons input rest ih =>
      simp only [List.cons_append, emitted_cons, after_cons, ih, List.append_assoc]

theorem after_concat (s : σ) (inputs : List α) (last : α) :
    after step s (inputs ++ [last]) = (step (after step s inputs) last).1 := by
  rw [after_append]
  rfl

theorem emitted_concat (s : σ) (inputs : List α) (last : α) :
    emitted step s (inputs ++ [last]) =
      emitted step s inputs ++ (step (after step s inputs) last).2 := by
  rw [emitted_append, emitted_cons, emitted_nil, List.append_nil]

/-- Outputs already emitted are final: more input only extends them. -/
theorem prefix_emitted (s : σ) {shorter longer : List α} (grows : shorter <+: longer) :
    emitted step s shorter <+: emitted step s longer := by
  obtain ⟨rest, rfl⟩ := grows
  rw [emitted_append]
  exact List.prefix_append _ _

/-- Of a transducer that emits at most one output for an input, every output has
an input that made it, behind the inputs that made the earlier outputs. -/
theorem cause (single : ∀ s input, (step s input).2.length ≤ 1) (s : σ) (inputs : List α)
    (outputs : List β) (output : β) (emits : outputs ++ [output] <+: emitted step s inputs) :
    ∃ earlier input, earlier ++ [input] <+: inputs ∧ emitted step s earlier = outputs ∧
      (step (after step s earlier) input).2 = [output] := by
  induction inputs generalizing s outputs with
  | nil =>
      rw [emitted_nil, List.prefix_nil] at emits
      simp at emits
  | cons head rest ih =>
      rw [emitted_cons] at emits
      match made : (step s head).2, single s head with
      | [], _ =>
          rw [made, List.nil_append] at emits
          obtain ⟨earlier, input, within, same, last⟩ := ih (step s head).1 outputs emits
          refine ⟨head :: earlier, input, List.cons_prefix_cons.mpr ⟨rfl, within⟩, ?_, last⟩
          rw [emitted_cons, made, same, List.nil_append]
      | [first], _ =>
          rw [made, List.singleton_append] at emits
          cases outputs with
          | nil =>
              obtain ⟨same, -⟩ := List.cons_prefix_cons.mp emits
              refine ⟨[], head, by simp, rfl, ?_⟩
              rw [same]
              exact made
          | cons before outputs =>
              obtain ⟨same, emits⟩ := List.cons_prefix_cons.mp emits
              obtain ⟨earlier, input, within, later, last⟩ := ih (step s head).1 outputs emits
              refine ⟨head :: earlier, input, List.cons_prefix_cons.mpr ⟨rfl, within⟩, ?_, last⟩
              rw [emitted_cons, made, later, same]
              rfl

/-- Of such a transducer a beginning of the outputs is what has been emitted at
some moment: at the start, or behind the step that emits the last of them. -/
theorem moment (single : ∀ s input, (step s input).2.length ≤ 1) (s : σ) (inputs : List α)
    (outputs : List β) (emits : outputs <+: emitted step s inputs) :
    outputs = [] ∨ ∃ earlier input, earlier ++ [input] <+: inputs ∧
      emitted step s (earlier ++ [input]) = outputs ∧ (step (after step s earlier) input).2 ≠ [] := by
  rcases List.eq_nil_or_concat outputs with rfl | ⟨before, last, rfl⟩
  · exact Or.inl rfl
  · rw [List.concat_eq_append] at emits ⊢
    obtain ⟨earlier, input, within, same, made⟩ := cause step single s inputs before last emits
    refine Or.inr ⟨earlier, input, within, ?_, ?_⟩
    · rw [emitted_concat, same, made]
    · rw [made]
      exact List.cons_ne_nil _ _

end Histories

/-- A predicate that every step preserves holds after every history. -/
theorem after_invariant {step : σ → α → σ × List β} {valid : σ → Prop}
    (preserved : ∀ s input, valid s → valid (step s input).1)
    (inputs : List α) (s : σ) (start : valid s) : valid (after step s inputs) := by
  induction inputs generalizing s with
  | nil => exact start
  | cons input rest ih => exact ih _ (preserved s input start)

/-- A measure that every round lowers, as long as it is not zero, is down by the
number of rounds. -/
theorem foldl_rounds (step : σ → α → σ) {valid : σ → Prop} {round : List α → Prop}
    {measure : σ → Nat}
    (lowers : ∀ s inputs, valid s → round inputs →
      valid (inputs.foldl step s) ∧ measure (inputs.foldl step s) ≤ measure s - 1)
    (rounds : List (List α)) (each : ∀ inputs ∈ rounds, round inputs) (s : σ) (start : valid s) :
    valid (rounds.flatten.foldl step s) ∧
      measure (rounds.flatten.foldl step s) ≤ measure s - rounds.length := by
  induction rounds generalizing s with
  | nil => exact ⟨start, Nat.le_refl _⟩
  | cons inputs rounds ih =>
      obtain ⟨now, later⟩ := List.forall_mem_cons.mp each
      obtain ⟨next, lower⟩ := lowers s inputs start now
      obtain ⟨final, rest⟩ := ih later _ next
      rw [List.flatten_cons, List.foldl_append, List.length_cons]
      exact ⟨final, by omega⟩

/-- A counter that no step raises by more than a bound is, after a run, at most that
much further on for every step. -/
theorem foldl_counter_le (step : σ → α → σ) (counter : σ → Nat) (bound : Nat)
    (raises : ∀ s input, counter (step s input) ≤ counter s + bound) (s : σ) (inputs : List α) :
    counter (inputs.foldl step s) ≤ counter s + bound * inputs.length := by
  induction inputs generalizing s with
  | nil => exact Nat.le_refl _
  | cons input rest ih =>
      have first := raises s input
      have later := ih (step s input)
      rw [List.foldl_cons, List.length_cons, Nat.mul_add, Nat.mul_one]
      omega

section Simulation

variable {τ α' β' : Type*}
variable (step : σ → α → σ × List β) (step' : τ → α' → τ × List β')

/-- Two transducers that agree step by step, up to a relation on states, a
relation on inputs and an erasure of outputs, agree on whole histories. -/
theorem simulation (related : σ → τ → Prop) (paired : α → α' → Prop)
    (erase : β → γ) (erase' : β' → γ)
    (stepwise : ∀ s t input input', related s t → paired input input' →
      related (step s input).1 (step' t input').1 ∧
        (step s input).2.map erase = (step' t input').2.map erase')
    {inputs : List α} {inputs' : List α'} (aligned : List.Forall₂ paired inputs inputs')
    (s : σ) (t : τ) (start : related s t) :
    related (after step s inputs) (after step' t inputs') ∧
      (emitted step s inputs).map erase = (emitted step' t inputs').map erase' := by
  induction aligned generalizing s t with
  | nil => exact ⟨start, rfl⟩
  | cons head _ ih =>
      obtain ⟨next, same⟩ := stepwise s t _ _ start head
      obtain ⟨final, rest⟩ := ih _ _ next
      refine ⟨final, ?_⟩
      simp only [emitted_cons, List.map_append, same, rest]

/-- A stage whose extra input, a clock say, reaches no state and only the erased
part of its outputs is, up to the erasure, the stage without it. -/
theorem erasure {δ : Type*} (step : σ → α → σ × List β) (bare : σ → δ → σ × List γ)
    (project : α → δ) (erase : β → γ)
    (stepwise : ∀ s input, (step s input).1 = (bare s (project input)).1 ∧
      (step s input).2.map erase = (bare s (project input)).2) (s : σ) (inputs : List α) :
    after step s inputs = after bare s (inputs.map project) ∧
      (emitted step s inputs).map erase = emitted bare s (inputs.map project) := by
  have aligned : List.Forall₂ (fun input bareInput => project input = bareInput) inputs
      (inputs.map project) :=
    List.forall₂_map_right_iff.mpr (List.forall₂_same.mpr fun _ _ => rfl)
  have agreed := simulation step bare Eq (fun input bareInput => project input = bareInput)
    erase id (fun s t input bareInput same fed => by
      subst same fed
      simpa only [List.map_id] using stepwise s input) aligned s s rfl
  simpa only [List.map_id] using agreed

end Simulation

section Refinement

variable {τ : Type*} (concrete : σ → α → σ × List β) (abstract : τ → γ → τ × List β)

/-- The abstract inputs that stand for a concrete history, when each concrete
step stands for some, or none. -/
def translated (moves : σ → α → List γ) : σ → List α → List γ
  | _, [] => []
  | s, input :: rest => moves s input ++ translated moves (concrete s input).1 rest

theorem mem_translated (moves : σ → α → List γ) (s : σ) (inputs : List α) (move : γ) :
    move ∈ translated concrete moves s inputs ↔
      ∃ before input, before ++ [input] <+: inputs ∧
        move ∈ moves (after concrete s before) input := by
  induction inputs generalizing s with
  | nil => simp [translated]
  | cons head rest ih =>
      rw [translated, List.mem_append, ih]
      refine ⟨?_, ?_⟩
      · rintro (now | ⟨before, input, early, later⟩)
        · exact ⟨[], head, by simp, now⟩
        · exact ⟨head :: before, input, List.cons_prefix_cons.mpr ⟨rfl, early⟩, later⟩
      · rintro ⟨before, input, early, member⟩
        cases before with
        | nil =>
            obtain ⟨rfl, -⟩ := List.cons_prefix_cons.mp early
            exact Or.inl member
        | cons first before =>
            obtain ⟨same, shorter⟩ := List.cons_prefix_cons.mp early
            subst same
            exact Or.inr ⟨before, input, shorter, member⟩

/-- Where each step stands for as many costly inputs as it leaves marks, so does a
whole history. -/
theorem countP_translated {δ : Type*} (moves : σ → α → List γ) (marks : σ → α → List δ)
    (costs : γ → Bool) (stepwise : ∀ s input, (moves s input).countP costs = (marks s input).length)
    (s : σ) (inputs : List α) :
    (translated concrete moves s inputs).countP costs =
      (translated concrete marks s inputs).length := by
  induction inputs generalizing s with
  | nil => rfl
  | cons input rest ih =>
      rw [translated, translated, List.countP_append, List.length_append, stepwise, ih]

/-- A 64-bit word that counts the marks of each step counts those of a history. -/
theorem translated_counter {δ : Type*} (marks : σ → α → List δ) (counter : σ → UInt64)
    (stepwise : ∀ s input,
      counter (concrete s input).1 = counter s + UInt64.ofNat (marks s input).length)
    (s : σ) (inputs : List α) :
    counter (after concrete s inputs) =
      counter s + UInt64.ofNat (translated concrete marks s inputs).length := by
  induction inputs generalizing s with
  | nil => exact (UInt64.add_zero _).symm
  | cons input rest ih =>
      rw [after_cons, ih, stepwise, translated, List.length_append, UInt64.ofNat_add,
        UInt64.add_assoc]

/-- Forward simulation along a view of the states: a concrete history and its
translation end in the same view and emit the same. -/
theorem refinement (view : σ → τ) (moves : σ → α → List γ)
    (stepwise : ∀ s input,
      after abstract (view s) (moves s input) = view (concrete s input).1 ∧
        emitted abstract (view s) (moves s input) = (concrete s input).2)
    (s : σ) (inputs : List α) :
    after abstract (view s) (translated concrete moves s inputs) =
        view (after concrete s inputs) ∧
      emitted abstract (view s) (translated concrete moves s inputs) =
        emitted concrete s inputs := by
  induction inputs generalizing s with
  | nil => exact ⟨rfl, rfl⟩
  | cons input rest ih =>
      obtain ⟨next, same⟩ := stepwise s input
      obtain ⟨final, later⟩ := ih (concrete s input).1
      rw [translated, after_append, emitted_append, next, same]
      exact ⟨final, congrArg ((concrete s input).2 ++ ·) later⟩

end Refinement

end Transducer
