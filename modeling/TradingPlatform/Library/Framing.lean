import Mathlib.Data.List.Basic

set_option autoImplicit false

/- Streams of self-delimiting frames. A parser for one frame is iterated until
it fails; the rules below say what the iteration returns on a concatenation of
frames, on any prefix of one, and in front of arbitrary further input. -/
namespace Framing

variable {α β σ τ : Type}

/-- Iterate a parser for one frame, at most `fuel` times. -/
def parse (next : σ → Option (α × σ)) : Nat → σ → List α
  | 0, _ => []
  | fuel + 1, input =>
      match next input with
      | none => []
      | some (item, rest) => item :: parse next fuel rest

/-- What holds of every item the parser yields holds of all it reads. -/
theorem parse_yields (next : σ → Option (α × σ)) (good : α → Prop)
    (yields : ∀ input item rest, next input = some (item, rest) → good item) (fuel : Nat)
    (input : σ) : ∀ item ∈ parse next fuel input, good item := by
  induction fuel generalizing input with
  | zero => simp [parse]
  | succ fuel ih =>
      rw [parse]
      cases result : next input with
      | none => simp
      | some head =>
          obtain ⟨item, rest⟩ := head
          have first := yields input item rest result
          simpa using And.intro first (ih rest)

/-- The state may carry more than what the parser looks at. -/
theorem parse_map (next : σ → Option (α × σ)) (bare : τ → Option (α × τ)) (view : τ → σ)
    (agrees : ∀ input, next (view input) = (bare input).map (Prod.map id view)) (fuel : Nat)
    (input : τ) : parse next fuel (view input) = parse bare fuel input := by
  induction fuel generalizing input with
  | zero => rfl
  | succ fuel ih =>
      simp only [parse, agrees]
      cases bare input with
      | none => rfl
      | some result => exact congrArg (List.cons result.1) (ih result.2)

/-- A proper prefix of a frame, or nothing at all. -/
def Torn (frame : α → List β) (good : α → Prop) (input : List β) : Prop :=
  input = [] ∨ ∃ item, good item ∧ input <+: frame item ∧ input ≠ frame item

/-- A parser reads back each good frame whatever follows it, fails on every
proper prefix of one, and never succeeds without consuming input. -/
structure Reads (next : List β → Option (α × List β)) (frame : α → List β)
    (good : α → Prop) : Prop where
  whole : ∀ item rest, good item → next (frame item ++ rest) = some (item, rest)
  torn : ∀ input, Torn frame good input → next input = none
  shrinks : ∀ item input rest, next input = some (item, rest) → rest.length < input.length

/-- The items whose frames lie entirely within the first `length` input units. -/
def within (frame : α → List β) : Nat → List α → List α
  | _, [] => []
  | length, item :: rest =>
      if (frame item).length ≤ length then
        item :: within frame (length - (frame item).length) rest
      else []

/-- Each item with the number of input units up to the end of its frame. -/
def ends (frame : α → List β) : Nat → List α → List (α × Nat)
  | _, [] => []
  | start, item :: rest =>
      (item, start + (frame item).length) :: ends frame (start + (frame item).length) rest

@[simp] theorem ends_map_fst (frame : α → List β) (start : Nat) (items : List α) :
    (ends frame start items).map Prod.fst = items := by
  induction items generalizing start with
  | nil => rfl
  | cons item rest ih => rw [ends, List.map_cons, ih]

theorem lt_ends (frame : α → List β) (start : Nat) (items : List α) :
    ∀ entry ∈ ends frame start items, start ≤ entry.2 := by
  induction items generalizing start with
  | nil => intro entry member; cases member
  | cons item rest ih =>
      intro entry member
      rcases List.mem_cons.mp member with rfl | later
      · exact Nat.le_add_right _ _
      · have bound := ih _ entry later
        omega

theorem ends_le (frame : α → List β) (start : Nat) (items : List α) :
    ∀ entry ∈ ends frame start items, entry.2 ≤ start + (items.flatMap frame).length := by
  induction items generalizing start with
  | nil => intro entry member; cases member
  | cons item rest ih =>
      intro entry member
      rw [List.flatMap_cons, List.length_append]
      rcases List.mem_cons.mp member with rfl | later
      · dsimp only
        omega
      · have bound := ih _ entry later
        omega

/-- Counted by end offsets instead of by what is left of the input. -/
theorem within_eq_filter (frame : α → List β) (start length : Nat) (items : List α) :
    within frame length items =
      ((ends frame start items).filter (fun entry => entry.2 ≤ start + length)).map Prod.fst := by
  induction items generalizing start length with
  | nil => rfl
  | cons item rest ih =>
      rw [within, ends, List.filter_cons]
      by_cases fits : (frame item).length ≤ length
      · have ending : start + (frame item).length + (length - (frame item).length) =
            start + length := by omega
        have kept : start + (frame item).length ≤ start + length := by omega
        rw [ih (start + (frame item).length), ending]
        simp only [fits, kept, decide_true, ↓reduceIte, List.map_cons]
      · have dropped : ¬ start + (frame item).length ≤ start + length := by omega
        have rest_dropped : (ends frame (start + (frame item).length) rest).filter
            (fun entry => entry.2 ≤ start + length) = [] := by
          apply List.filter_eq_nil_iff.mpr
          intro entry member
          have bound := lt_ends frame _ rest entry member
          simp only [decide_eq_true_eq]
          omega
        simp only [fits, dropped, decide_false, Bool.false_eq_true, ↓reduceIte, rest_dropped,
          List.map_nil]

theorem within_map {γ : Type} (frame : α → List β) (f : γ → α) (length : Nat) (items : List γ) :
    within frame length (items.map f) = (within (frame ∘ f) length items).map f := by
  induction items generalizing length with
  | nil => rfl
  | cons item rest ih =>
      simp only [List.map_cons, within, Function.comp_apply, ih]
      split <;> rfl

/-- A length that reaches behind some items has them all. -/
theorem within_append (frame : α → List β) (length : Nat) (first rest : List α) :
    within frame ((first.flatMap frame).length + length) (first ++ rest) =
      first ++ within frame length rest := by
  induction first with
  | nil => rw [List.flatMap_nil, List.length_nil, Nat.zero_add, List.nil_append, List.nil_append]
  | cons item first ih =>
      have left : (frame item).length + (first.flatMap frame).length + length -
          (frame item).length = (first.flatMap frame).length + length := by omega
      rw [List.flatMap_cons, List.length_append, List.cons_append, within, if_pos (by omega), left,
        ih, List.cons_append]

theorem prefix_within (frame : α → List β) (length : Nat) (items : List α) :
    within frame length items <+: items := by
  induction items generalizing length with
  | nil => exact List.prefix_refl _
  | cons item rest ih =>
      unfold within
      split
      · exact List.cons_prefix_cons.mpr ⟨rfl, ih _⟩
      · exact List.nil_prefix

/-- No beginning of the items that lies within the length is left out. -/
theorem prefix_within_of_length (frame : α → List β) (length : Nat) (first items : List α)
    (begins : first <+: items) (fits : (first.flatMap frame).length ≤ length) :
    first <+: within frame length items := by
  induction first generalizing length items with
  | nil => exact List.nil_prefix
  | cons item first ih =>
      obtain ⟨rest, rfl⟩ := begins
      rw [List.flatMap_cons, List.length_append] at fits
      rw [List.cons_append, within, if_pos (by omega)]
      exact List.cons_prefix_cons.mpr ⟨rfl, ih _ _ (List.prefix_append _ _) (by omega)⟩

/-- A cut stream is the whole frames before the cut and a torn one. -/
theorem take_frames (frame : α → List β) (good : α → Prop) (items : List α)
    (valid : ∀ item ∈ items, good item) (cut : Nat) :
    ∃ rest, (items.flatMap frame).take cut = (within frame cut items).flatMap frame ++ rest ∧
      Torn frame good rest := by
  induction items generalizing cut with
  | nil => exact ⟨[], by simp [within], Or.inl rfl⟩
  | cons item items ih =>
      by_cases fits : (frame item).length ≤ cut
      · obtain ⟨rest, split, torn⟩ :=
          ih (fun other member => valid other (List.mem_cons_of_mem _ member))
            (cut - (frame item).length)
        refine ⟨rest, ?_, torn⟩
        simp only [within, fits, ↓reduceIte, List.flatMap_cons, List.append_assoc]
        rw [List.take_append, List.take_of_length_le fits, split]
      · refine ⟨(frame item).take cut, ?_, Or.inr ⟨item, valid item List.mem_cons_self,
          List.take_prefix _ _, ?_⟩⟩
        · simp only [within, fits, ↓reduceIte, List.flatMap_cons, List.flatMap_nil,
            List.nil_append]
          rw [List.take_append_of_le_length (by omega)]
        · intro equal
          have short := congrArg List.length equal
          rw [List.length_take] at short
          omega

/-- A position of a stream lies in one of its frames. -/
theorem locate (frame : α → List β) (items : List α) (position : Nat)
    (inside : position < (items.flatMap frame).length) :
    ∃ before item after offset, items = before ++ item :: after ∧
      position = (before.flatMap frame).length + offset ∧ offset < (frame item).length := by
  induction items generalizing position with
  | nil => simp at inside
  | cons item rest ih =>
      rw [List.flatMap_cons, List.length_append] at inside
      by_cases here : position < (frame item).length
      · exact ⟨[], item, rest, position, rfl, by simp, here⟩
      · obtain ⟨before, found, after, offset, rfl, place, bound⟩ :=
          ih (position - (frame item).length) (by omega)
        refine ⟨item :: before, found, after, offset, rfl, ?_, bound⟩
        rw [List.flatMap_cons, List.length_append]
        omega

/-- What is replaced in a frame leaves the frames around it alone. -/
theorem set_frames (frame : α → List β) (before after : List α) (item : α) (offset : Nat)
    (unit : β) (inside : offset < (frame item).length) :
    ((before ++ item :: after).flatMap frame).set
        ((before.flatMap frame).length + offset) unit =
      before.flatMap frame ++ ((frame item).set offset unit ++ after.flatMap frame) := by
  rw [List.flatMap_append, List.flatMap_cons, List.set_append_right _ _ (by omega),
    Nat.add_sub_cancel_left, List.set_append_left _ _ inside]

namespace Reads

variable {next : List β → Option (α × List β)} {frame : α → List β} {good : α → Prop}
variable (reads : Reads next frame good)
include reads

theorem frame_nonempty (item : α) (valid : good item) : frame item ≠ [] := by
  intro empty
  have whole := reads.whole item [] valid
  rw [empty, List.append_nil] at whole
  exact Nat.lt_irrefl _ (reads.shrinks item [] [] whole)

/-- Enough fuel is as good as more. -/
theorem parse_fuel (input : List β) (fuel more : Nat) (enough : input.length < fuel)
    (also : input.length < more) : parse next fuel input = parse next more input := by
  induction fuel generalizing input more with
  | zero => omega
  | succ fuel ih =>
      cases more with
      | zero => omega
      | succ more =>
          simp only [parse]
          cases step : next input with
          | none => rfl
          | some result =>
              have shorter := reads.shrinks result.1 input result.2 step
              dsimp only
              rw [ih result.2 more (by omega) (by omega)]

/-- Whole frames come back first, and the rest of the input is parsed as if it
stood alone. -/
theorem parse_append (items : List α) (valid : ∀ item ∈ items, good item) (rest : List β)
    (fuel : Nat) (enough : (items.flatMap frame ++ rest).length < fuel) :
    parse next fuel (items.flatMap frame ++ rest) =
      items ++ parse next (rest.length + 1) rest := by
  induction items generalizing fuel with
  | nil => exact reads.parse_fuel rest fuel _ enough (Nat.lt_succ_self _)
  | cons item items ih =>
      have head := valid item List.mem_cons_self
      cases fuel with
      | zero => omega
      | succ fuel =>
          have positive := List.length_pos_iff.mpr (reads.frame_nonempty item head)
          rw [List.flatMap_cons, List.append_assoc] at enough ⊢
          rw [List.length_append] at enough
          have step : parse next (fuel + 1) (frame item ++ (items.flatMap frame ++ rest)) =
              item :: parse next fuel (items.flatMap frame ++ rest) := by
            simp only [parse, reads.whole item _ head]
          rw [step, List.cons_append,
            ih (fun other member => valid other (List.mem_cons_of_mem _ member)) fuel (by omega)]

theorem parse_frames (items : List α) (valid : ∀ item ∈ items, good item) (rest : List β)
    (stuck : next rest = none) (fuel : Nat)
    (enough : (items.flatMap frame ++ rest).length < fuel) :
    parse next fuel (items.flatMap frame ++ rest) = items := by
  rw [reads.parse_append items valid rest fuel enough]
  simp only [parse, stuck, List.append_nil]

theorem prefix_parse (items : List α) (valid : ∀ item ∈ items, good item) (rest : List β)
    (fuel : Nat) (enough : (items.flatMap frame ++ rest).length < fuel) :
    items <+: parse next fuel (items.flatMap frame ++ rest) := by
  rw [reads.parse_append items valid rest fuel enough]
  exact List.prefix_append _ _

/-- A damaged frame ends the parse in front of it, or shows as another item. -/
theorem parse_damaged (before after : List α) (item : α)
    (valid : ∀ other ∈ before, good other) (damaged : List β) (fuel : Nat)
    (enough : (before.flatMap frame ++ damaged).length < fuel)
    (different : ∀ other rest, next damaged = some (other, rest) → other ≠ item) :
    parse next fuel (before.flatMap frame ++ damaged) <+: before ++ item :: after ↔
      next damaged = none := by
  rw [reads.parse_append before valid damaged fuel enough, List.prefix_append_right_inj, parse]
  cases result : next damaged with
  | none => simp
  | some pass =>
      obtain ⟨other, rest⟩ := pass
      have apart := different other rest result
      simp [List.cons_prefix_cons, apart]

/-- Parsing a cut stream returns exactly the items before the cut. -/
theorem parse_take (items : List α) (valid : ∀ item ∈ items, good item) (cut fuel : Nat)
    (enough : ((items.flatMap frame).take cut).length < fuel) :
    parse next fuel ((items.flatMap frame).take cut) = within frame cut items := by
  obtain ⟨rest, split, torn⟩ := take_frames frame good items valid cut
  rw [split] at enough ⊢
  refine reads.parse_frames _ (fun item member => valid item ?_) rest (reads.torn rest torn)
    fuel enough
  exact (prefix_within frame cut items).subset member

end Reads
end Framing
