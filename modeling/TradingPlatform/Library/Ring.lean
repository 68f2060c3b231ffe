import Mathlib.Data.List.Nodup
import Mathlib.Data.List.Perm.Subperm
import Mathlib.Data.Nat.ModEq
import Mathlib.Logic.Function.Basic

set_option autoImplicit false

/- Rings of slots that are used one after another, round after round. -/
namespace Ring

variable {α : Type*} {capacity : Nat}

/-- Less than a round apart, different numbers have different slots. -/
theorem mod_inj {first second : Nat} (order : first ≤ second) (near : second < first + capacity)
    (same : first % capacity = second % capacity) : first = second := by
  have divides := (Nat.modEq_iff_dvd' order).mp same
  have none := Nat.eq_zero_of_dvd_of_lt divides (by omega)
  omega

/-- A whole round, from any number on, comes to every slot once. -/
theorem round_perm (capacity start : Nat) :
    ((List.range' start capacity).map (· % capacity)).Perm (List.range capacity) := by
  have distinct : ((List.range' start capacity).map (· % capacity)).Nodup := by
    refine List.Nodup.map_on ?_ List.nodup_range'
    intro first before second after same
    rw [List.mem_range'_1] at before after
    rcases Nat.le_total first second with order | order
    · exact mod_inj order (by omega) same
    · exact (mod_inj order (by omega) same.symm).symm
  apply (List.subperm_of_subset distinct _).perm_of_length_le
  · rw [List.length_map, List.length_range', List.length_range]
  · intro slot member
    obtain ⟨number, within, rfl⟩ := List.mem_map.mp member
    rw [List.mem_range'_1] at within
    exact List.mem_range.mpr (Nat.mod_lt _ (by omega))

/-- The slots hold the last round of some items. -/
def Holds (capacity : Nat) (slots : Nat → α) (items : List α) : Prop :=
  ∀ number item, items.length - capacity ≤ number → items[number]? = some item →
    slots (number % capacity) = item

theorem holds_nil (slots : Nat → α) : Holds capacity slots [] := by
  intro number item _ found
  simp at found

/-- The next item overwrites the one a round ago. -/
theorem Holds.concat {slots : Nat → α} {items : List α} (holds : Holds capacity slots items)
    (last : α) :
    Holds capacity (Function.update slots (items.length % capacity) last) (items ++ [last]) := by
  intro number item recent found
  rw [List.length_append, List.length_singleton] at recent
  rw [List.getElem?_append] at found
  split at found
  · rename_i old
    have apart : number % capacity ≠ items.length % capacity := by
      intro same
      have equal := mod_inj (Nat.le_of_lt old) (by omega) same
      omega
    rw [Function.update_of_ne apart]
    exact holds number item (by omega) found
  · obtain ⟨bound, same⟩ := List.getElem?_eq_some_iff.mp found
    rw [List.length_singleton] at bound
    have place : number = items.length := by omega
    rw [List.getElem_singleton] at same
    rw [place, Function.update_self, same]

/-- What is in the slots that have been written is the last round of the items. -/
theorem Holds.window_perm {slots : Nat → α} {items : List α}
    (holds : Holds capacity slots items) :
    ((List.range (min items.length capacity)).map slots).Perm
      (items.drop (items.length - capacity)) := by
  have window : items.drop (items.length - capacity) =
      ((List.range' (items.length - capacity) (min items.length capacity)).map
        (· % capacity)).map slots := by
    apply List.ext_getElem?
    intro offset
    rw [List.getElem?_drop, List.getElem?_map, List.getElem?_map]
    by_cases inside : offset < min items.length capacity
    · obtain ⟨item, found⟩ : ∃ item, items[items.length - capacity + offset]? = some item :=
        ⟨_, List.getElem?_eq_getElem (by omega)⟩
      rw [found, List.getElem?_range' inside]
      exact congrArg some (holds _ item (by omega) (by simpa using found)).symm
    · have past : items[items.length - capacity + offset]? = none :=
        List.getElem?_eq_none (by omega)
      rw [past, List.getElem?_eq_none (by rw [List.length_range']; omega)]
      rfl
  rw [window]
  apply List.Perm.map
  rcases Nat.le_total items.length capacity with partly | whole
  · rw [Nat.min_eq_left partly, Nat.sub_eq_zero_of_le partly, ← List.range_eq_range']
    have same : (List.range items.length).map (· % capacity) = List.range items.length := by
      have stays : ∀ number ∈ List.range items.length, number % capacity = number := by
        intro number member
        exact Nat.mod_eq_of_lt ((List.mem_range.mp member).trans_le partly)
      rw [List.map_congr_left stays, List.map_id']
    rw [same]
  · rw [Nat.min_eq_right whole]
    exact (round_perm capacity _).symm

end Ring
