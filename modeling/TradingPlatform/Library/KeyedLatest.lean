import Mathlib.Data.List.AList
import Mathlib.Data.List.Induction

set_option autoImplicit false

/- Keyed stores that accepted items overwrite: under each key stands the value of
the latest accepted item. -/
namespace KeyedLatest

variable {ι κ υ : Type*} [DecidableEq κ]
variable (accepts : ι → Prop) [DecidablePred accepts] (key : ι → κ) (value : ι → υ)

def write (store : AList fun _ : κ => υ) (item : ι) : AList fun _ : κ => υ :=
  if accepts item then store.insert (key item) (value item) else store

/-- The accepted items of a history under one key, in order. -/
def written (history : List ι) (k : κ) : List ι :=
  history.filter fun item => accepts item ∧ key item = k

theorem lookup_foldl (history : List ι) (k : κ) :
    (history.foldl (write accepts key value) ∅).lookup k =
      (written accepts key history k).getLast?.map value := by
  induction history using List.reverseRecOn with
  | nil => rfl
  | append_singleton history item ih =>
      rw [List.foldl_append, List.foldl_cons, List.foldl_nil, write, written, List.filter_append]
      by_cases accepted : accepts item
      · rw [if_pos accepted]
        by_cases same : key item = k
        · subst same
          simp [accepted, AList.lookup_insert]
        · rw [AList.lookup_insert_ne (Ne.symm same), ih, written]
          simp [same]
      · rw [if_neg accepted, ih, written]
        simp [accepted]

end KeyedLatest
