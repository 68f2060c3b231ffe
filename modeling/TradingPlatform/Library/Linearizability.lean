import Mathlib.Data.List.Induction
import Mathlib.Logic.Function.Basic
import TradingPlatform.Library.Transducer

set_option autoImplicit false

/- Objects shared by threads. A call takes effect at one moment between its
invocation and its response, and the effects together are a run of the object
used by one thread alone. -/
namespace Linearizability

open Transducer

variable {ι ο ρ τ σ α : Type*}

inductive Event (ι ο ρ : Type*) where
  | invoke (thread : ι) (operation : ο)
  | response (thread : ι) (result : ρ)
  deriving DecidableEq

/-- A call that has taken effect, with its result. -/
structure Call (ι ο ρ : Type*) where
  thread : ι
  operation : ο
  result : ρ
  deriving DecidableEq

/-- Where a thread is in its call. -/
inductive Progress (ο ρ : Type*) where
  | idle
  | invoked (operation : ο)
  | effected (result : ρ)
  deriving DecidableEq

/-- The result of a call that has taken effect and not returned. -/
def Progress.pending : Progress ο ρ → List ρ
  | .effected result => [result]
  | _ => []

/-- One thread uses the object: the calls in their order, each with the result
that the object gives. -/
inductive Sequential (apply : τ → ο → τ × ρ) : τ → List (Call ι ο ρ) → τ → Prop
  | nil (object : τ) : Sequential apply object [] object
  | concat {object object' : τ} {calls : List (Call ι ο ρ)} (thread : ι) (operation : ο)
      (before : Sequential apply object calls object') :
      Sequential apply object
        (calls ++ [⟨thread, operation, (apply object' operation).2⟩]) (apply object' operation).1

section Atomic

variable [DecidableEq ι] (apply : τ → ο → τ × ρ)

/-- What threads do with the object when every call takes effect at once: the
history that is seen of it, and the calls in the order of their effects. -/
inductive Moves (object : τ) (progress : ι → Progress ο ρ) :
    List (Event ι ο ρ) → List (Call ι ο ρ) → τ → (ι → Progress ο ρ) → Prop
  | rest : Moves object progress [] [] object progress
  | invoke {history : List (Event ι ο ρ)} {calls : List (Call ι ο ρ)} {object' : τ}
      {progress' : ι → Progress ο ρ} (thread : ι) (operation : ο)
      (before : Moves object progress history calls object' progress')
      (ready : progress' thread = .idle) :
      Moves object progress (history ++ [.invoke thread operation]) calls object'
        (Function.update progress' thread (.invoked operation))
  | effect {history : List (Event ι ο ρ)} {calls : List (Call ι ο ρ)} {object' : τ}
      {progress' : ι → Progress ο ρ} (thread : ι) (operation : ο)
      (before : Moves object progress history calls object' progress')
      (ready : progress' thread = .invoked operation) :
      Moves object progress history
        (calls ++ [⟨thread, operation, (apply object' operation).2⟩]) (apply object' operation).1
        (Function.update progress' thread (.effected (apply object' operation).2))
  | response {history : List (Event ι ο ρ)} {calls : List (Call ι ο ρ)} {object' : τ}
      {progress' : ι → Progress ο ρ} (thread : ι) (result : ρ)
      (before : Moves object progress history calls object' progress')
      (ready : progress' thread = .effected result) :
      Moves object progress (history ++ [.response thread result]) calls object'
        (Function.update progress' thread .idle)

/-- The results a history shows a thread, in order. -/
def results (thread : ι) (history : List (Event ι ο ρ)) : List ρ :=
  history.filterMap fun event =>
    match event with
    | .response other result => if other = thread then some result else none
    | _ => none

/-- The results of the calls of a thread, in order. -/
def resultsOf (thread : ι) (calls : List (Call ι ο ρ)) : List ρ :=
  (calls.filter fun call => call.thread = thread).map Call.result

/-- From the start some moves of the atomic object show the history. -/
def Linearizes (start : τ) (history : List (Event ι ο ρ)) (calls : List (Call ι ο ρ)) (object : τ)
    (progress : ι → Progress ο ρ) : Prop :=
  Moves apply start (fun _ => .idle) history calls object progress

variable {apply}

namespace Moves

variable {object object' object'' : τ} {progress progress' progress'' : ι → Progress ο ρ}
variable {history later : List (Event ι ο ρ)} {calls more : List (Call ι ο ρ)}

theorem trans (first : Moves apply object progress history calls object' progress')
    (second : Moves apply object' progress' later more object'' progress'') :
    Moves apply object progress (history ++ later) (calls ++ more) object'' progress'' := by
  induction second with
  | rest => simpa using first
  | invoke thread operation _ ready ih =>
      rw [← List.append_assoc]
      exact ih.invoke thread operation ready
  | effect thread operation _ ready ih =>
      rw [← List.append_assoc]
      exact ih.effect thread operation ready
  | response thread result _ ready ih =>
      rw [← List.append_assoc]
      exact ih.response thread result ready

section Single

variable (thread : ι) (operation : ο) (result : ρ)

theorem invoked (ready : progress thread = .idle) :
    Moves apply object progress [.invoke thread operation] [] object
      (Function.update progress thread (.invoked operation)) :=
  Moves.rest.invoke thread operation ready

theorem effected (ready : progress thread = .invoked operation)
    (gives : apply object operation = (object', result)) :
    Moves apply object progress [] [⟨thread, operation, result⟩] object'
      (Function.update progress thread (.effected result)) := by
  have effect := (Moves.rest : Moves apply object progress [] [] object progress).effect
    thread operation ready
  rw [gives] at effect
  exact effect

theorem returned (ready : progress thread = .effected result) :
    Moves apply object progress [.response thread result] [] object
      (Function.update progress thread .idle) :=
  Moves.rest.response thread result ready

/-- A call that takes effect and returns at once. -/
theorem completed (ready : progress thread = .invoked operation)
    (gives : apply object operation = (object', result)) :
    Moves apply object progress [.response thread result] [⟨thread, operation, result⟩] object'
      (Function.update progress thread .idle) := by
  have effect := effected thread operation result ready gives
  have response := effect.response thread result (Function.update_self thread _ progress)
  rw [Function.update_idem] at response
  exact response

end Single

/-- The effects are a run of the object. -/
theorem sequential (moves : Moves apply object progress history calls object' progress') :
    Sequential apply object calls object' := by
  induction moves with
  | rest => exact .nil object
  | invoke _ _ _ _ ih => exact ih
  | effect thread operation _ _ ih => exact ih.concat thread operation
  | response _ _ _ _ ih => exact ih

end Moves

/-- Every thread has been returned the results of its calls, the last one
perhaps not yet. -/
theorem Linearizes.results_pending {start object : τ} {history : List (Event ι ο ρ)}
    {calls : List (Call ι ο ρ)} {progress : ι → Progress ο ρ}
    (linearizes : Linearizes apply start history calls object progress) (thread : ι) :
    resultsOf thread calls = results thread history ++ (progress thread).pending := by
  induction linearizes with
  | rest => rfl
  | invoke other operation _ ready ih =>
      rw [ih, results, results, List.filterMap_append]
      by_cases same : thread = other
      · subst same
        simp [ready, Progress.pending]
      · simp [Function.update_of_ne same]
  | effect other operation _ ready ih =>
      rw [resultsOf, List.filter_append, List.map_append]
      rw [resultsOf] at ih
      rw [ih]
      by_cases same : thread = other
      · subst same
        simp [ready, Progress.pending]
      · have apart : other ≠ thread := fun equal => same equal.symm
        simp [Function.update_of_ne same, apart]
  | response other result _ ready ih =>
      rw [ih, results, results, List.filterMap_append]
      by_cases same : thread = other
      · subst same
        simp [ready, Progress.pending]
      · have apart : other ≠ thread := fun equal => same equal.symm
        simp [Function.update_of_ne same, apart]

/-- A forward simulation: every access of an implementation is matched by some
moves of the atomic object. What relates the two may depend on the number of
accesses so far, and is kept up to some number of them. -/
theorem linearizes_of_bounded_simulation (step : σ → α → σ × List (Event ι ο ρ))
    (related : Nat → σ → τ → (ι → Progress ο ρ) → Prop) (bound : Nat)
    (stepwise : ∀ count s action object progress, count < bound →
      related count s object progress →
      ∃ calls object' progress', related (count + 1) (step s action).1 object' progress' ∧
        Moves apply object progress (step s action).2 calls object' progress')
    (s : σ) (object : τ) (start : related 0 s object fun _ => .idle) (actions : List α)
    (short : actions.length ≤ bound) :
    ∃ calls object' progress, related actions.length (after step s actions) object' progress ∧
      Linearizes apply object (emitted step s actions) calls object' progress := by
  induction actions using List.reverseRecOn with
  | nil => exact ⟨[], object, _, start, .rest⟩
  | append_singleton actions action ih =>
      rw [List.length_append, List.length_singleton] at short ⊢
      have ⟨calls, object', progress, related, moves⟩ := ih (by omega)
      have ⟨more, final, progress', next, steps⟩ :=
        stepwise _ _ action _ _ (by omega) related
      rw [after_concat, emitted_concat]
      exact ⟨calls ++ more, final, progress', next, moves.trans steps⟩

theorem linearizes_of_simulation (step : σ → α → σ × List (Event ι ο ρ))
    (related : σ → τ → (ι → Progress ο ρ) → Prop)
    (stepwise : ∀ s action object progress, related s object progress →
      ∃ calls object' progress', related (step s action).1 object' progress' ∧
        Moves apply object progress (step s action).2 calls object' progress')
    (s : σ) (object : τ) (start : related s object fun _ => .idle) (actions : List α) :
    ∃ calls object' progress, related (after step s actions) object' progress ∧
      Linearizes apply object (emitted step s actions) calls object' progress :=
  linearizes_of_bounded_simulation step (fun _ => related) actions.length
    (fun _ s action object progress _ => stepwise s action object progress) s object start actions
    (Nat.le_refl _)

end Atomic
end Linearizability
