import Mathlib.Data.List.Basic

set_option autoImplicit false

/- Texts with separators: the part in front of the first one, splitting at all
of them, and lines that arrive in chunks of any size. -/
namespace Delimited

variable {α : Type} {separator : α}

/-! ### Lines -/

/-- The text consists of these lines, each with its separator, and a rest that
no separator ends yet. -/
structure Lines (separator : α) (text : List α) (lines : List (List α)) (rest : List α) :
    Prop where
  whole : text = lines.flatMap (fun line => line ++ [separator]) ++ rest
  clean : ∀ line ∈ lines, separator ∉ line
  unfinished : separator ∉ rest

theorem Lines.nil (text : List α) (unfinished : separator ∉ text) :
    Lines separator text [] text :=
  ⟨rfl, by simp, unfinished⟩

theorem Lines.cons {text : List α} {lines : List (List α)} {rest : List α} (line : List α)
    (clean : separator ∉ line) (tail : Lines separator text lines rest) :
    Lines separator (line ++ separator :: text) (line :: lines) rest := by
  refine ⟨?_, ?_, tail.unfinished⟩
  · rw [tail.whole]
    simp
  · intro other member
    rcases List.mem_cons.mp member with rfl | later
    · exact clean
    · exact tail.clean other later

/-- Later text continues the unfinished line. -/
theorem Lines.append {text more : List α} {lines later : List (List α)} {rest last : List α}
    (first : Lines separator text lines rest) (second : Lines separator (rest ++ more) later last) :
    Lines separator (text ++ more) (lines ++ later) last := by
  refine ⟨?_, ?_, second.unfinished⟩
  · rw [first.whole, List.append_assoc, second.whole, List.flatMap_append, List.append_assoc]
  · rw [List.forall_mem_append]
    exact ⟨first.clean, second.clean⟩

/-! ### Cutting -/

variable [DecidableEq α]

/-- What is in front of the first separator, and what is behind it. -/
def cut (separator : α) : List α → Option (List α × List α)
  | [] => none
  | unit :: rest =>
      if unit = separator then some ([], rest)
      else (cut separator rest).map fun (before, after) => (unit :: before, after)

theorem cut_append (line rest : List α) (clean : separator ∉ line) :
    cut separator (line ++ separator :: rest) = some (line, rest) := by
  induction line with
  | nil => simp [cut]
  | cons unit line ih =>
      have other : unit ≠ separator := fun same => clean (same ▸ List.mem_cons_self ..)
      have tail := ih fun member => clean (List.mem_cons_of_mem _ member)
      rw [List.cons_append, cut, if_neg other, tail, Option.map_some]

theorem cut_none (text : List α) (clean : separator ∉ text) : cut separator text = none := by
  induction text with
  | nil => rfl
  | cons unit text ih =>
      have other : unit ≠ separator := fun same => clean (same ▸ List.mem_cons_self ..)
      have tail := ih fun member => clean (List.mem_cons_of_mem _ member)
      rw [cut, if_neg other, tail, Option.map_none]

/-- What `cut` can return. -/
theorem cut_cases (separator : α) (text : List α) :
    (separator ∉ text ∧ cut separator text = none) ∨
      ∃ line rest, separator ∉ line ∧ text = line ++ separator :: rest ∧
        cut separator text = some (line, rest) := by
  by_cases present : separator ∈ text
  · obtain ⟨line, rest, whole, clean⟩ := List.eq_append_cons_of_mem present
    refine Or.inr ⟨line, rest, clean, whole, ?_⟩
    rw [whole, cut_append line rest clean]
  · exact Or.inl ⟨present, cut_none text present⟩

/-! ### Splitting -/

/-- At most `fuel` parts. -/
def split (separator : α) : Nat → List α → List (List α)
  | 0, _ => []
  | fuel + 1, text =>
      match cut separator text with
      | none => [text]
      | some (part, rest) => part :: split separator fuel rest

/-- There are no more parts than units and one. -/
theorem split_eq_splitOn (fuel : Nat) (text : List α) (enough : text.length < fuel) :
    split separator fuel text = text.splitOn separator := by
  induction fuel generalizing text with
  | zero => omega
  | succ fuel ih =>
      rw [split]
      rcases cut_cases separator text with ⟨clean, none⟩ | ⟨part, rest, clean, whole, some⟩
      · rw [none, List.splitOn_eq_singleton clean]
      · have shorter : rest.length < fuel := by
          rw [whole, List.length_append, List.length_cons] at enough
          omega
        rw [some, whole, List.splitOn_append_cons_self_of_not_mem clean]
        exact congrArg _ (ih rest shorter)

/-! ### The division into lines -/

/-- A text has only one division into lines. -/
theorem Lines.unique {text : List α} {lines others : List (List α)} {rest last : List α}
    (first : Lines separator text lines rest) (second : Lines separator text others last) :
    lines = others ∧ rest = last := by
  have parts : ∀ {parts : List (List α)} {rest : List α}, Lines separator text parts rest →
      text.splitOn separator = parts ++ [rest] := by
    intro parts
    clear first second
    induction parts generalizing text with
    | nil =>
        intro rest division
        rw [division.whole]
        exact List.splitOn_eq_singleton division.unfinished
    | cons line parts ih =>
        intro rest division
        have tail : Lines separator (parts.flatMap (fun line => line ++ [separator]) ++ rest)
            parts rest :=
          ⟨rfl, fun other member => division.clean other (List.mem_cons_of_mem _ member),
            division.unfinished⟩
        have whole := division.whole
        rw [List.flatMap_cons, List.append_assoc, List.append_assoc, List.singleton_append] at whole
        rw [whole, List.splitOn_append_cons_self_of_not_mem
          (division.clean line (List.mem_cons_self ..)), ih tail, List.cons_append]
  have same := (parts first).symm.trans (parts second)
  obtain ⟨lines', rest'⟩ := List.append_inj' same rfl
  exact ⟨lines', List.cons.inj rest' |>.1⟩

/-- Every text has a division into lines. -/
theorem Lines.exists (separator : α) (text : List α) :
    ∃ lines rest, Lines separator text lines rest := by
  induction size : text.length using Nat.strongRecOn generalizing text with
  | ind length ih =>
      rcases cut_cases separator text with ⟨clean, -⟩ | ⟨line, more, clean, whole, -⟩
      · exact ⟨[], text, .nil text clean⟩
      · have shorter : more.length < length := by
          rw [← size, whole, List.length_append, List.length_cons]
          omega
        obtain ⟨lines, rest, division⟩ := ih more.length shorter more rfl
        exact ⟨line :: lines, rest, whole ▸ division.cons line clean⟩

end Delimited
