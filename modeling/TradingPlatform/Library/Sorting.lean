import Mathlib.Data.List.Perm.Subperm
import Mathlib.Order.Defs.Unbundled
import Mathlib.Order.Lattice

set_option autoImplicit false

/- Sorting by a comparator, with no promise about elements that compare equal. -/
namespace Sorting

variable {α κ : Type*}

/-- No element stands before one that is less. -/
def Sorted (less : α → α → Bool) (items : List α) : Prop :=
  items.Pairwise fun first second => less second first = false

/-- A sorting function: for a strict weak order it returns some sorted
permutation, for other comparators anything. -/
structure Sorter (α : Type*) where
  sort : (α → α → Bool) → List α → List α
  perm : ∀ less, IsStrictWeakOrder α (fun a b => less a b = true) →
    ∀ items, (sort less items).Perm items
  sorted : ∀ less, IsStrictWeakOrder α (fun a b => less a b = true) →
    ∀ items, Sorted less (sort less items)

/-- Comparing keys of a linear order is a strict weak order. -/
theorem strictWeakOrder_of_key [LinearOrder κ] (less : α → α → Bool) (key : α → κ)
    (compares : ∀ a b, less a b = true ↔ key a < key b) :
    IsStrictWeakOrder α fun a b => less a b = true where
  irrefl := by
    intro a
    rw [compares]
    exact lt_irrefl (key a)
  trans := by
    intro a b c
    rw [compares, compares, compares]
    exact lt_trans
  incomp_trans := by
    intro a b c
    rw [compares, compares, compares, compares, compares, compares]
    rintro ⟨ab, ba⟩ ⟨bc, cb⟩
    have same : key a = key c :=
      (le_antisymm (not_lt.mp ba) (not_lt.mp ab)).trans
        (le_antisymm (not_lt.mp cb) (not_lt.mp bc))
    rw [same]
    exact ⟨lt_irrefl _, lt_irrefl _⟩

theorem sorted_iff_key [LinearOrder κ] (less : α → α → Bool) (key : α → κ)
    (compares : ∀ a b, less a b = true ↔ key a < key b) (items : List α) :
    Sorted less items ↔ items.Pairwise fun first second => key first ≤ key second := by
  unfold Sorted
  apply iff_of_eq
  congr 1
  funext first second
  rw [← Bool.not_eq_true, compares, not_lt]

/-- An increasing part of the input keeps its order in any sorted permutation,
although the sort may exchange elements that compare equal. -/
theorem sublist_of_increasing [DecidableEq α] (less : α → α → Bool) (part whole : List α)
    (sorted : Sorted less whole) (increasing : part.Pairwise fun a b => less a b = true)
    (within : part.Subperm whole) : part.Sublist whole := by
  induction whole generalizing part with
  | nil =>
      rw [List.subperm_nil.mp within]
  | cons first whole ih =>
      cases part with
      | nil => exact List.nil_sublist _
      | cons item part =>
          by_cases same : item = first
          · subst same
            exact (ih part sorted.of_cons increasing.of_cons
              ((List.subperm_cons item).mp within)).cons_cons item
          · -- `first` is not in the part: what stands before it there would be less
            have absent : first ∉ item :: part := by
              intro member
              have later : first ∈ part := (List.mem_cons.mp member).resolve_left (Ne.symm same)
              have before := List.rel_of_pairwise_cons increasing later
              have behind : item ∈ whole :=
                (List.mem_cons.mp (within.subset (by simp))).resolve_left same
              have after := List.rel_of_pairwise_cons sorted behind
              rw [before] at after
              cases after
            have rest : (item :: part).Subperm whole := by
              rw [← List.erase_of_not_mem absent]
              have erased := within.erase first
              rwa [List.erase_cons_head] at erased
            exact (ih (item :: part) sorted.of_cons increasing rest).cons first

/-- If the whole input increases it is the only sorted permutation. -/
theorem eq_of_increasing [DecidableEq α] (less : α → α → Bool) (items whole : List α)
    (sorted : Sorted less whole) (increasing : items.Pairwise fun a b => less a b = true)
    (perm : whole.Perm items) : whole = items :=
  ((sublist_of_increasing less items whole sorted increasing perm.symm.subperm).eq_of_length
    perm.length_eq.symm).symm

/-- The merge sort of the core library, as a sorter. -/
def mergeSorter : Sorter α where
  sort less items := items.mergeSort fun first second => !less second first
  perm _ _ items := List.mergeSort_perm items _
  sorted := by
    intro less order items
    have transitive : ∀ a b c, (!less b a) = true → (!less c b) = true → (!less c a) = true := by
      simp only [Bool.not_eq_true', ← Bool.not_eq_true]
      intro a b c ba cb ca
      have ab : ¬ less a b = true := fun ab => cb (order.trans c a b ca ab)
      have bc : ¬ less b c = true := fun bc => ba (order.trans b c a bc ca)
      exact (order.incomp_trans a b c ⟨ab, ba⟩ ⟨bc, cb⟩).2 ca
    have total : ∀ a b, ((!less b a) || (!less a b)) = true := by
      intro a b
      cases ab : less a b with
      | false => simp
      | true =>
          have ba : less b a = false := by
            rw [← Bool.not_eq_true]
            exact fun both => order.irrefl a (order.trans a b a ab both)
          simp [ba]
    have sorted := List.pairwise_mergeSort transitive total items
    exact sorted.imp (by simp)

end Sorting
