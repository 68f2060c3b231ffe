import Mathlib.Data.Finset.Insert
import Mathlib.Data.Finset.Erase
import Mathlib.Logic.Equiv.Basic

set_option autoImplicit false

/- Handles that an environment gives out and takes back, and the owners that keep
them: at most one handle an owner, and one owner a handle. -/
namespace Ownership

variable {ο η : Type*}

/-- Every open handle has one owner, or has been lost. -/
structure Sound (opened : Finset η) (held : ο → Option η) (lost : List η) : Prop where
  opened_iff : ∀ handle, handle ∈ opened ↔ (∃ owner, held owner = some handle) ∨ handle ∈ lost
  single : ∀ first second handle,
    held first = some handle → held second = some handle → first = second
  kept : ∀ owner handle, held owner = some handle → handle ∉ lost

theorem sound_empty : Sound (∅ : Finset η) (fun _ : ο => none) [] where
  opened_iff := by simp
  single := by simp
  kept := by simp

section

variable [DecidableEq η]

/-- The handles that stay open when one, or none, is closed. -/
def without (opened : Finset η) (handle : Option η) : Finset η :=
  handle.elim opened opened.erase

theorem mem_without (opened : Finset η) (closed : Option η) (handle : η) :
    handle ∈ without opened closed ↔ handle ∈ opened ∧ closed ≠ some handle := by
  cases closed with
  | none => simp [without]
  | some closed => simp [without, and_comm, eq_comm]

end

namespace Sound

variable {opened : Finset η} {held : ο → Option η} {lost : List η}

theorem mem (sound : Sound opened held lost) {owner : ο} {handle : η}
    (holds : held owner = some handle) : handle ∈ opened :=
  (sound.opened_iff handle).mpr (Or.inl ⟨owner, holds⟩)

theorem no_leak_iff (sound : Sound opened held lost) :
    (∀ handle ∈ opened, ∃ owner, held owner = some handle) ↔ lost = [] := by
  constructor
  · intro owned
    rw [List.eq_nil_iff_forall_not_mem]
    intro handle gone
    have ⟨owner, holds⟩ := owned handle ((sound.opened_iff handle).mpr (Or.inr gone))
    exact sound.kept owner handle holds gone
  · rintro rfl handle isOpen
    simpa using (sound.opened_iff handle).mp isOpen

/-- The owners can be renamed. -/
theorem relabel (sound : Sound opened held lost) (place : Equiv.Perm ο) :
    Sound opened (held ∘ place) lost where
  opened_iff := by
    intro handle
    rw [sound.opened_iff]
    have same := place.exists_congr_left (p := fun owner => held (place owner) = some handle)
    simp only [Equiv.apply_symm_apply] at same
    exact or_congr same.symm Iff.rfl
  single := fun first second handle holdsFirst holdsSecond =>
    place.injective (sound.single _ _ handle holdsFirst holdsSecond)
  kept := fun owner handle holds => sound.kept _ handle holds

variable [DecidableEq ο]

/-- An owner without a handle stays one. -/
theorem idle (sound : Sound opened held lost) {owner : ο} (empty : held owner = none) :
    Sound opened (Function.update held owner none) lost := by
  rwa [Function.update_eq_self_iff.mpr empty.symm]

theorem acquire [DecidableEq η] (sound : Sound opened held lost) {owner : ο} {handle : η}
    (empty : held owner = none) (fresh : handle ∉ opened) :
    Sound (insert handle opened) (Function.update held owner (some handle)) lost := by
  have unheld : ∀ other, held other ≠ some handle := fun other holds => fresh (sound.mem holds)
  have unlost : handle ∉ lost := fun gone => fresh ((sound.opened_iff handle).mpr (Or.inr gone))
  constructor
  · intro other
    rw [Finset.mem_insert, sound.opened_iff]
    by_cases same : other = handle
    · subst same
      simp only [true_or, true_iff]
      exact Or.inl ⟨owner, Function.update_self owner _ held⟩
    · have apart : ∀ place, Function.update held owner (some handle) place = some other ↔
          held place = some other := by
        intro place
        by_cases here : place = owner
        · subst here
          simp [empty, Ne.symm same]
        · rw [Function.update_of_ne here]
      simp only [same, false_or, apart]
  · intro first second other holdsFirst holdsSecond
    by_cases atFirst : first = owner
    · by_cases atSecond : second = owner
      · rw [atFirst, atSecond]
      · subst atFirst
        rw [Function.update_self, Option.some.injEq] at holdsFirst
        rw [Function.update_of_ne atSecond] at holdsSecond
        exact absurd (holdsFirst ▸ holdsSecond) (unheld second)
    · rw [Function.update_of_ne atFirst] at holdsFirst
      by_cases atSecond : second = owner
      · subst atSecond
        rw [Function.update_self, Option.some.injEq] at holdsSecond
        exact absurd (holdsSecond ▸ holdsFirst) (unheld first)
      · rw [Function.update_of_ne atSecond] at holdsSecond
        exact sound.single first second other holdsFirst holdsSecond
  · intro place other holds
    by_cases here : place = owner
    · subst here
      rw [Function.update_self, Option.some.injEq] at holds
      exact holds ▸ unlost
    · rw [Function.update_of_ne here] at holds
      exact sound.kept place other holds

/-- An owner without its handle, which is closed or lost. -/
theorem vacate (sound : Sound opened held lost) (owner : ο) (stay : Finset η) (gone : List η)
    (stay_iff : ∀ handle, handle ∈ stay ↔
      (handle ∈ opened ∧ held owner ≠ some handle) ∨ handle ∈ gone)
    (gone_held : ∀ handle ∈ gone, held owner = some handle) :
    Sound stay (Function.update held owner none) (lost ++ gone) := by
  have others : ∀ place handle, Function.update held owner none place = some handle ↔
      place ≠ owner ∧ held place = some handle := by
    intro place handle
    by_cases here : place = owner
    · subst here
      simp
    · simp [here]
  constructor
  · intro handle
    rw [stay_iff, sound.opened_iff, List.mem_append]
    simp only [others]
    constructor
    · rintro (⟨⟨place, holds⟩ | isLost, other⟩ | isGone)
      · exact Or.inl ⟨place, fun here => other (here ▸ holds), holds⟩
      · exact Or.inr (Or.inl isLost)
      · exact Or.inr (Or.inr isGone)
    · rintro (⟨place, elsewhere, holds⟩ | isLost | isGone)
      · exact Or.inl ⟨Or.inl ⟨place, holds⟩, fun too =>
          elsewhere (sound.single place owner handle holds too)⟩
      · exact Or.inl ⟨Or.inr isLost, fun holds => sound.kept owner handle holds isLost⟩
      · exact Or.inr isGone
  · intro first second handle holdsFirst holdsSecond
    exact sound.single first second handle ((others first handle).mp holdsFirst).2
      ((others second handle).mp holdsSecond).2
  · intro place handle holds
    have ⟨elsewhere, own⟩ := (others place handle).mp holds
    rw [List.mem_append, not_or]
    exact ⟨sound.kept place handle own, fun isGone =>
      elsewhere (sound.single place owner handle own (gone_held handle isGone))⟩

theorem release [DecidableEq η] (sound : Sound opened held lost) (owner : ο) :
    Sound (without opened (held owner)) (Function.update held owner none) lost := by
  have vacant := sound.vacate owner (without opened (held owner)) []
    (by simp [mem_without]) (by simp)
  rwa [List.append_nil] at vacant

theorem abandon (sound : Sound opened held lost) (owner : ο) :
    Sound opened (Function.update held owner none) (lost ++ (held owner).toList) := by
  apply sound.vacate owner
  · intro handle
    rw [Option.mem_toList]
    constructor
    · intro isOpen
      by_cases own : held owner = some handle
      · exact Or.inr own
      · exact Or.inl ⟨isOpen, own⟩
    · rintro (⟨isOpen, -⟩ | own)
      · exact isOpen
      · exact sound.mem own
  · intro handle
    exact Option.mem_toList.mp

/-- A handle moves to an owner that has none: the two change places. -/
theorem transfer (sound : Sound opened held lost) {source target : ο}
    (empty : held target = none) :
    Sound opened (Function.update (Function.update held target (held source)) source none)
      lost := by
  have swapped : Function.update (Function.update held target (held source)) source none =
      held ∘ Equiv.swap source target := by
    funext place
    rw [Function.comp_apply, Equiv.swap_apply_def, Function.update_apply, Function.update_apply]
    split
    · exact empty.symm
    · split <;> rfl
  rw [swapped]
  exact sound.relabel _

end Sound
end Ownership
