import Mathlib.Logic.Function.Basic
import Mathlib.Data.List.Basic

set_option autoImplicit false

/- Hashes that fold a step over their input, one unit at a time. When a step
loses neither its state nor its unit, inputs that differ in one place only have
different hashes. -/
namespace FoldHash

variable {σ β : Type*}

structure Separates (step : σ → β → σ) : Prop where
  states : ∀ unit, Function.Injective fun state => step state unit
  units : ∀ state, Function.Injective (step state)

/-- Inputs of one length that differ at one position and nowhere else. -/
structure DifferOnce (first second : List β) : Prop where
  sized : first.length = second.length
  once : ∃! position : Nat, first[position]? ≠ second[position]?

/-- One of them is the other with a unit replaced. -/
theorem DifferOnce.eq_set {first second : List β} (apart : DifferOnce first second) :
    ∃ position unit, second = first.set position unit ∧ first.set position unit ≠ first := by
  obtain ⟨position, differs, only⟩ := apart.once
  have sized := apart.sized
  have inside : position < second.length := by
    by_contra outside
    apply differs
    rw [List.getElem?_eq_none (by omega), List.getElem?_eq_none (by omega)]
  have replaced : second = first.set position second[position] := by
    apply List.ext_getElem?
    intro index
    by_cases here : position = index
    · rw [← here, List.getElem?_set_self (by omega), List.getElem?_eq_getElem inside]
    · rw [List.getElem?_set_ne here]
      by_contra other
      exact here (only index fun same => other same.symm).symm
  refine ⟨position, second[position], replaced, ?_⟩
  rw [← replaced]
  intro same
  exact differs (by rw [same])

/-- And a replaced unit differs from the one it replaces, and only that. -/
theorem differOnce_set (input : List β) (position : Nat) (unit : β)
    (changed : input.set position unit ≠ input) : DifferOnce input (input.set position unit) where
  sized := List.length_set.symm
  once := by
    have elsewhere : ∀ index, input[index]? ≠ (input.set position unit)[index]? →
        index = position := by
      intro index differs
      by_contra other
      exact differs (List.getElem?_set_ne fun same => other same.symm).symm
    refine ⟨position, ?_, elsewhere⟩
    intro same
    apply changed
    apply List.ext_getElem?
    intro index
    by_contra differs
    have here := elsewhere index fun equal => differs equal.symm
    rw [here] at differs
    exact differs same.symm

variable {step : σ → β → σ} (separates : Separates step)
include separates

/-- The rest of the input keeps different states apart. -/
theorem foldl_injective (input : List β) :
    Function.Injective fun state => input.foldl step state := by
  induction input with
  | nil => exact fun _ _ same => same
  | cons unit rest ih =>
      intro first second same
      exact separates.states unit (ih same)

theorem foldl_substitute (state : σ) (before after : List β) (old new : β)
    (changed : new ≠ old) :
    (before ++ new :: after).foldl step state ≠ (before ++ old :: after).foldl step state := by
  rw [List.foldl_append, List.foldl_append, List.foldl_cons, List.foldl_cons]
  intro same
  exact changed (separates.units _ (foldl_injective separates after same))

/-- One unit replaced by another one is detected. -/
theorem foldl_set (state : σ) (input : List β) (position : Nat) (unit : β)
    (changed : input.set position unit ≠ input) :
    (input.set position unit).foldl step state ≠ input.foldl step state := by
  by_cases inside : position < input.length
  · have altered := List.set_eq_take_append_cons_drop (l := input) (i := position) (a := unit)
    rw [if_pos inside] at altered
    have whole : input = input.take position ++ input[position] :: input.drop (position + 1) := by
      rw [← List.drop_eq_getElem_cons inside, List.take_append_drop]
    have different : unit ≠ input[position] := by
      rintro rfl
      exact changed (List.set_getElem_self inside)
    have separated := foldl_substitute separates state (input.take position)
      (input.drop (position + 1)) input[position] unit different
    rwa [← altered, ← whole] at separated
  · exact absurd (List.set_eq_of_length_le (by omega)) changed

theorem foldl_once (state : σ) (first second : List β) (apart : DifferOnce first second) :
    first.foldl step state ≠ second.foldl step state := by
  obtain ⟨position, unit, replaced, changed⟩ := apart.eq_set
  rw [replaced]
  exact (foldl_set separates state first position unit changed).symm

end FoldHash
