import Mathlib.Data.List.Perm.Basic
import Mathlib.Logic.Function.Basic

set_option autoImplicit false

/- Several streams and a schedule that says which of them gives its next item. -/
namespace Streams

variable {ι α : Type*} [DecidableEq ι]

/-- What is left of the streams. One that has ended gives nothing. -/
def left (streams : ι → List α) : List ι → ι → List α
  | [] => streams
  | stream :: picks => left (Function.update streams stream (streams stream).tail) picks

/-- The items in the order in which they are taken. -/
def taken (streams : ι → List α) : List ι → List α
  | [] => []
  | stream :: picks =>
      (streams stream).head?.toList ++
        taken (Function.update streams stream (streams stream).tail) picks

/-- One item of a listing of all streams is taken. -/
theorem perm_take (all : List ι) (once : all.Nodup) (stream : ι) (listed : stream ∈ all)
    (streams : ι → List α) :
    ((streams stream).head?.toList ++
      all.flatMap (Function.update streams stream (streams stream).tail)).Perm
        (all.flatMap streams) := by
  induction all with
  | nil => cases listed
  | cons first rest ih =>
      obtain ⟨absent, once⟩ := List.nodup_cons.mp once
      rw [List.flatMap_cons, List.flatMap_cons]
      by_cases here : stream = first
      · subst here
        have others : rest.flatMap (Function.update streams stream (streams stream).tail) =
            rest.flatMap streams := by
          apply List.flatMap_congr
          intro other member
          have apart : other ≠ stream := fun same => absent (same ▸ member)
          rw [Function.update_of_ne apart]
        rw [others, Function.update_self, ← List.append_assoc]
        cases streams stream <;> exact List.Perm.refl _
      · have later := ih once ((List.mem_cons.mp listed).resolve_left here)
        rw [Function.update_of_ne (Ne.symm here)]
        refine List.Perm.trans ?_ (later.append_left (streams first))
        rw [← List.append_assoc, ← List.append_assoc]
        exact List.perm_append_comm.append_right _

/-- Nothing is lost and nothing comes twice. -/
theorem taken_perm (all : List ι) (once : all.Nodup) (complete : ∀ stream, stream ∈ all)
    (picks : List ι) (streams : ι → List α) :
    (taken streams picks ++ all.flatMap (left streams picks)).Perm (all.flatMap streams) := by
  induction picks generalizing streams with
  | nil => exact List.Perm.refl _
  | cons stream picks ih =>
      have next := ih (Function.update streams stream (streams stream).tail)
      rw [taken, left, List.append_assoc]
      exact (next.append_left _).trans (perm_take all once stream (complete stream) streams)

section Keyed

variable {κ : Type*} [DecidableEq κ] (key : α → κ) (own : ι → κ)

theorem filter_self (items : List α) (k : κ) (keyed : ∀ item ∈ items, key item = k) :
    items.filter (fun item => key item = k) = items :=
  List.filter_eq_self.mpr fun item member => decide_eq_true (keyed item member)

theorem filter_other (items : List α) (k other : κ) (keyed : ∀ item ∈ items, key item = k)
    (apart : k ≠ other) : items.filter (fun item => key item = other) = [] := by
  rw [List.filter_eq_nil_iff]
  intro item member
  rw [keyed item member]
  simpa using apart

variable (injective : Function.Injective own)
include injective

/-- The items of one stream keep their order. -/
theorem filter_taken (picks : List ι) (streams : ι → List α)
    (keyed : ∀ stream, ∀ item ∈ streams stream, key item = own stream) (stream : ι) :
    (taken streams picks).filter (fun item => key item = own stream) ++ left streams picks stream =
      streams stream := by
  induction picks generalizing streams with
  | nil => rfl
  | cons pick picks ih =>
      have shorter : ∀ stream,
          ∀ item ∈ Function.update streams pick (streams pick).tail stream,
            key item = own stream := by
        intro stream item member
        by_cases here : stream = pick
        · subst here
          rw [Function.update_self] at member
          exact keyed stream item (List.mem_of_mem_tail member)
        · rw [Function.update_of_ne here] at member
          exact keyed stream item member
      have first : ∀ item ∈ (streams pick).head?.toList, key item = own pick := by
        intro item member
        exact keyed pick item (List.mem_of_mem_head? (Option.mem_toList.mp member))
      have next := ih _ shorter
      rw [taken, left, List.filter_append, List.append_assoc, next]
      by_cases here : stream = pick
      · subst here
        rw [filter_self key _ _ first, Function.update_self]
        cases streams stream <;> rfl
      · rw [filter_other key _ _ _ first (fun same => here (injective same).symm),
          Function.update_of_ne here, List.nil_append]

/-- Nothing else has the key of a stream. -/
theorem filter_flatMap (all : List ι) (once : all.Nodup) (streams : ι → List α)
    (keyed : ∀ stream, ∀ item ∈ streams stream, key item = own stream) (stream : ι) :
    (all.flatMap streams).filter (fun item => key item = own stream) =
      if stream ∈ all then streams stream else [] := by
  induction all with
  | nil => rfl
  | cons first rest ih =>
      obtain ⟨absent, once⟩ := List.nodup_cons.mp once
      rw [List.flatMap_cons, List.filter_append, ih once]
      by_cases here : stream = first
      · subst here
        rw [filter_self key _ _ (keyed stream), if_neg absent, if_pos List.mem_cons_self,
          List.append_nil]
      · rw [filter_other key _ _ _ (keyed first) (fun same => here (injective same).symm),
          List.nil_append]
        simp [here]

/-- Whatever the schedule, once all streams have ended the items of every key are those
that the streams give one after the other. -/
theorem filter_finished (all : List ι) (once : all.Nodup) (complete : ∀ stream, stream ∈ all)
    (picks : List ι) (streams : ι → List α)
    (keyed : ∀ stream, ∀ item ∈ streams stream, key item = own stream)
    (finished : ∀ stream, left streams picks stream = []) (k : κ) :
    (taken streams picks).filter (fun item => key item = k) =
      (all.flatMap streams).filter fun item => key item = k := by
  by_cases known : ∃ stream, own stream = k
  · have ⟨stream, same⟩ := known
    subst same
    have order := filter_taken key own injective picks streams keyed stream
    rw [finished stream, List.append_nil] at order
    rw [order, filter_flatMap key own injective all once streams keyed stream,
      if_pos (complete stream)]
  · have perm := taken_perm all once complete picks streams
    have ended : all.flatMap (left streams picks) = [] := by
      rw [List.flatMap_eq_nil_iff]
      exact fun stream _ => finished stream
    rw [ended, List.append_nil] at perm
    have foreign : ∀ item ∈ all.flatMap streams, key item ≠ k := by
      intro item member same
      have ⟨stream, _, inside⟩ := List.mem_flatMap.mp member
      exact known ⟨stream, (keyed stream item inside).symm.trans same⟩
    rw [List.filter_eq_nil_iff.mpr, List.filter_eq_nil_iff.mpr]
    · intro item member
      simpa using foreign item member
    · intro item member
      simpa using foreign item (perm.mem_iff.mp member)

end Keyed

end Streams
