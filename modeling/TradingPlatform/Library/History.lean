import Mathlib.Data.List.Basic

set_option autoImplicit false

/- Histories of events: what stands after some that put things in place or remove
them, and which one was the first to cause something. -/
namespace History

variable {ε ρ : Type*}

/-- Some event put it in place, given those before, and no later one removed it. -/
def Standing (adds : List ε → ε → Prop) (removes : ε → Prop) (history : List ε) : Prop :=
  ∃ before event after, history = before ++ event :: after ∧ adds before event ∧
    ∀ later ∈ after, ¬ removes later

variable (adds : List ε → ε → Prop) (removes : ε → Prop)

/-- An event of a history with one more is that one, or is in the history. -/
theorem split_concat {history before after : List ε} {last event : ε}
    (split : history ++ [last] = before ++ event :: after) :
    (history = before ∧ last = event ∧ after = []) ∨
      ∃ rest, history = before ++ event :: rest ∧ after = rest ++ [last] := by
  rcases List.eq_nil_or_concat after with rfl | ⟨rest, final, rfl⟩
  · obtain ⟨same, alone⟩ := List.append_inj' split rfl
    exact Or.inl ⟨same, List.singleton_inj.mp alone, rfl⟩
  · rw [List.concat_eq_append, ← List.cons_append, ← List.append_assoc] at split
    obtain ⟨same, alone⟩ := List.append_inj' split rfl
    rw [List.singleton_inj.mp alone]
    exact Or.inr ⟨rest, same, List.concat_eq_append⟩

theorem standing_nil : ¬ Standing adds removes [] := by
  rintro ⟨before, event, after, split, -⟩
  simp at split

/-- One more event puts it in place, or leaves it there. -/
theorem standing_concat (history : List ε) (last : ε) :
    Standing adds removes (history ++ [last]) ↔
      adds history last ∨ (Standing adds removes history ∧ ¬ removes last) := by
  constructor
  · rintro ⟨before, event, after, split, added, kept⟩
    rcases split_concat split with ⟨rfl, rfl, -⟩ | ⟨rest, rfl, rfl⟩
    · exact Or.inl added
    · refine Or.inr ⟨⟨before, event, rest, rfl, added, ?_⟩, ?_⟩
      · exact fun later member => kept later (List.mem_append_left _ member)
      · exact kept last (List.mem_append_right _ (List.mem_singleton_self _))
  · rintro (added | ⟨⟨before, event, after, rfl, added, kept⟩, stays⟩)
    · exact ⟨history, last, [], rfl, added, fun _ member => absurd member List.not_mem_nil⟩
    · refine ⟨before, event, after ++ [last], by simp, added, ?_⟩
      rw [List.forall_mem_append, List.forall_mem_singleton]
      exact ⟨kept, stays⟩

/-- An order of the events is kept when one comes behind all of them. -/
theorem pairwise_concat {relation : ε → ε → Prop} {history : List ε} {last : ε}
    (ordered : history.Pairwise relation) (newest : ∀ event ∈ history, relation event last) :
    (history ++ [last]).Pairwise relation := by
  rw [List.pairwise_append]
  refine ⟨ordered, List.pairwise_singleton _ _, ?_⟩
  intro event member other only
  rw [List.mem_singleton.mp only]
  exact newest event member

/-- Each event is as it should be, given those before it. -/
def Always (good : List ε → ε → Prop) (history : List ε) : Prop :=
  ∀ before event after, history = before ++ event :: after → good before event

theorem always_nil (good : List ε → ε → Prop) : Always good [] := by
  intro before event after split
  simp at split

theorem always_concat (good : List ε → ε → Prop) (history : List ε) (last : ε) :
    Always good (history ++ [last]) ↔ Always good history ∧ good history last := by
  constructor
  · intro always
    refine ⟨fun before event after split => ?_, always history last [] rfl⟩
    exact always before event (after ++ [last]) (by rw [split]; simp)
  · rintro ⟨always, final⟩ before event after split
    rcases split_concat split with ⟨rfl, rfl, -⟩ | ⟨rest, same, -⟩
    · exact final
    · exact always before event rest same

theorem Always.earlier {good : List ε → ε → Prop} {history earlier : List ε}
    (always : Always good history) (begins : earlier <+: history) : Always good earlier := by
  obtain ⟨rest, rfl⟩ := begins
  intro before event after split
  exact always before event (after ++ rest) (by rw [split]; simp)

/-- The same from the front. -/
theorem always_cons (good : List ε → ε → Prop) (first : ε) (history : List ε) :
    Always good (first :: history) ↔
      good [] first ∧ Always (fun before => good (first :: before)) history := by
  constructor
  · intro always
    refine ⟨always [] first history rfl, fun before event after split => ?_⟩
    exact always (first :: before) event after (by rw [split, List.cons_append])
  · rintro ⟨start, always⟩ before event after split
    cases before with
    | nil =>
        rw [(List.cons.inj split).1] at start
        exact start
    | cons head before =>
        obtain ⟨rfl, rest⟩ := List.cons.inj split
        exact always before event after rest

instance decidableAlways (good : List ε → ε → Prop)
    [∀ before event, Decidable (good before event)] :
    (history : List ε) → Decidable (Always good history)
  | [] => isTrue (always_nil good)
  | first :: history =>
      have := decidableAlways (fun before => good (first :: before)) history
      decidable_of_iff _ (always_cons good first history).symm

/-- Whether an event causes something, and what, can depend on the events before it. -/
def Quiet (cause : List ε → ε → Option ρ) (history : List ε) : Prop :=
  Always (fun before event => cause before event = none) history

def Earliest (cause : List ε → ε → Option ρ) (history : List ε) (effect : ρ) : Prop :=
  ∃ before event after, history = before ++ event :: after ∧ cause before event = some effect ∧
    Quiet cause before

variable {cause : List ε → ε → Option ρ}

theorem quiet_nil : Quiet cause [] := always_nil _

theorem quiet_concat (history : List ε) (last : ε) :
    Quiet cause (history ++ [last]) ↔ Quiet cause history ∧ cause history last = none :=
  always_concat _ history last

theorem Earliest.concat {history : List ε} {effect : ρ} (earliest : Earliest cause history effect)
    (last : ε) : Earliest cause (history ++ [last]) effect := by
  obtain ⟨before, event, after, rfl, caused, quiet⟩ := earliest
  exact ⟨before, event, after ++ [last], by simp, caused, quiet⟩

theorem Quiet.earliest_concat {history : List ε} (quiet : Quiet cause history) (last : ε)
    (effect : ρ) (caused : cause history last = some effect) :
    Earliest cause (history ++ [last]) effect :=
  ⟨history, last, [], rfl, caused, quiet⟩

theorem Earliest.not_quiet {history : List ε} {effect : ρ}
    (earliest : Earliest cause history effect) : ¬ Quiet cause history := by
  obtain ⟨before, event, after, split, caused, -⟩ := earliest
  intro quiet
  rw [quiet before event after split] at caused
  simp at caused

/-- An event that shows lies behind those that show before it. -/
theorem split_at_shown {shown : ε → Option ρ} {history : List ε} {number : Nat} {item : ρ}
    (found : (history.filterMap shown)[number]? = some item) :
    ∃ before event after, history = before ++ event :: after ∧ shown event = some item ∧
      (before.filterMap shown).length = number := by
  induction history generalizing number with
  | nil => simp at found
  | cons event history ih =>
      rw [List.filterMap_cons] at found
      cases shows : shown event with
      | none =>
          rw [shows] at found
          obtain ⟨before, other, after, rfl, same, count⟩ := ih found
          exact ⟨event :: before, other, after, rfl, same, by simpa [shows] using count⟩
      | some first =>
          rw [shows] at found
          cases number with
          | zero =>
              rw [List.getElem?_cons_zero] at found
              exact ⟨[], event, history, rfl, shows.trans found, rfl⟩
          | succ number =>
              rw [List.getElem?_cons_succ] at found
              obtain ⟨before, other, after, rfl, same, count⟩ := ih found
              refine ⟨event :: before, other, after, rfl, same, ?_⟩
              rw [List.filterMap_cons, shows, List.length_cons, count]

end History
