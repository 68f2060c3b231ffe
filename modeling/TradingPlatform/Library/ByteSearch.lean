import TradingPlatform.Library.Delimited

set_option autoImplicit false

/- Searching a text for the first occurrence of a pattern, by positions and by
what is left of the text, and for a word between two delimiters. -/
namespace ByteSearch

variable {α : Type} [DecidableEq α]

/-- The position of the first occurrence. -/
def find (pattern : List α) : List α → Option Nat
  | [] => if pattern = [] then some 0 else none
  | unit :: rest =>
      if pattern.isPrefixOf (unit :: rest) then some 0
      else (find pattern rest).map (· + 1)

/-- The position of the first occurrence at some position or behind it. -/
def findFrom (pattern text : List α) (start : Nat) : Option Nat :=
  (find pattern (text.drop start)).map (start + ·)

/-- The text from its first occurrence on. -/
def seek (pattern : List α) : List α → Option (List α)
  | [] => if pattern = [] then some [] else none
  | unit :: rest =>
      if pattern.isPrefixOf (unit :: rest) then some (unit :: rest) else seek pattern rest

/-- What follows the first occurrence. -/
def after (pattern text : List α) : Option (List α) :=
  (seek pattern text).map (List.drop pattern.length)

theorem find_drop (pattern text : List α) : (find pattern text).map text.drop = seek pattern text := by
  induction text with
  | nil =>
      unfold find seek
      split
      · exact rfl
      · exact rfl
  | cons unit rest ih =>
      unfold find seek
      split
      · exact rfl
      · rw [← ih, Option.map_map]
        exact rfl

theorem findFrom_drop (pattern text : List α) (start : Nat) :
    (findFrom pattern text start).map text.drop = seek pattern (text.drop start) := by
  rw [findFrom, Option.map_map, ← find_drop]
  congr 1
  funext position
  simp only [Function.comp_apply, List.drop_drop]

/-- What a search finds. -/
theorem seek_some {pattern text rest : List α} (found : seek pattern text = some rest) :
    ∃ before, text = before ++ rest ∧ pattern <+: rest := by
  induction text with
  | nil =>
      unfold seek at found
      split at found
      · rename_i empty
        rw [← Option.some.inj found, empty]
        exact ⟨[], rfl, List.nil_prefix⟩
      · cases found
  | cons unit text ih =>
      unfold seek at found
      split at found
      · rename_i here
        rw [← Option.some.inj found]
        exact ⟨[], rfl, List.isPrefixOf_iff_prefix.mp here⟩
      · obtain ⟨before, whole, here⟩ := ih found
        exact ⟨unit :: before, by rw [whole, List.cons_append], here⟩

theorem seek_here {pattern text : List α} (here : pattern <+: text) :
    seek pattern text = some text := by
  cases text with
  | nil => rw [seek, if_pos (List.prefix_nil.mp here)]
  | cons unit rest => rw [seek, if_pos (List.isPrefixOf_iff_prefix.mpr here)]

theorem seek_skip {pattern : List α} (unit : α) (rest : List α)
    (elsewhere : ¬ pattern <+: unit :: rest) :
    seek pattern (unit :: rest) = seek pattern rest := by
  rw [seek, if_neg (fun here => elsewhere (List.isPrefixOf_iff_prefix.mp here))]

/-- No occurrence begins where the first unit of the pattern does not occur. -/
theorem seek_skip_units {first : α} {pattern : List α} (units rest : List α)
    (absent : first ∉ units) :
    seek (first :: pattern) (units ++ rest) = seek (first :: pattern) rest := by
  induction units with
  | nil => rfl
  | cons unit units ih =>
      have other : first ≠ unit := fun same => absent (same ▸ List.mem_cons_self ..)
      rw [List.cons_append, seek_skip unit _ fun here => other (List.cons_prefix_cons.mp here).1]
      exact ih fun member => absent (List.mem_cons_of_mem _ member)

theorem seek_none {first : α} {pattern : List α} (text : List α) (absent : first ∉ text) :
    seek (first :: pattern) text = none := by
  have skipped : seek (first :: pattern) (text ++ []) = seek (first :: pattern) [] :=
    seek_skip_units text [] absent
  rw [List.append_nil] at skipped
  rw [skipped, seek, if_neg (List.cons_ne_nil _ _)]

/-- An occurrence anywhere bounds the first one. -/
theorem seek_first {pattern text before rest : List α} (whole : text = before ++ rest)
    (here : pattern <+: rest) :
    ∃ early late, before = early ++ late ∧ seek pattern text = some (late ++ rest) := by
  induction before generalizing text with
  | nil =>
      rw [whole]
      exact ⟨[], [], rfl, seek_here here⟩
  | cons unit before ih =>
      by_cases now : pattern <+: text
      · exact ⟨[], unit :: before, rfl, by rw [← whole]; exact seek_here now⟩
      · rw [List.cons_append] at whole
        obtain ⟨early, late, split, found⟩ := ih rfl
        refine ⟨unit :: early, late, by rw [split, List.cons_append], ?_⟩
        rw [whole] at now ⊢
        rw [seek_skip unit _ now, found]

omit [DecidableEq α] in
/-- A pattern that does not hold the mark begins in front of it only if it ends there. -/
theorem prefix_of_mark {pattern word rest : List α} {mark : α} (clean : mark ∉ pattern)
    (here : pattern <+: word ++ mark :: rest) : pattern <+: word := by
  rcases Nat.lt_or_ge word.length pattern.length with longer | short
  · exfalso
    have grown : word ++ [mark] <+: word ++ mark :: rest := ⟨rest, by simp⟩
    have inside := List.prefix_of_prefix_length_le grown here (by rw [List.length_append]; exact longer)
    exact clean (inside.subset (by simp))
  · exact List.prefix_of_prefix_length_le here (List.prefix_append _ _) short

/-- The search passes a word that does not hold the pattern, up to a mark that
the pattern does not hold. -/
theorem seek_skip_word {pattern : List α} {mark : α} (word rest : List α) (clean : mark ∉ pattern)
    (absent : ¬ pattern <:+: word) :
    seek pattern (word ++ mark :: rest) = seek pattern (mark :: rest) := by
  induction word with
  | nil => rfl
  | cons unit word ih =>
      have elsewhere : ¬ pattern <+: unit :: (word ++ mark :: rest) := by
        intro here
        have inside : pattern <+: unit :: word := prefix_of_mark clean here
        exact absent inside.isInfix
      rw [List.cons_append, seek_skip unit _ elsewhere]
      exact ih fun inside => absent (inside.trans (List.suffix_cons unit word).isInfix)

/-- From a position on, the search goes through what is left of the text. -/
theorem findFrom_bind {β : Type} (pattern text : List α) (start : Nat) (next : Nat → Option β)
    (next' : List α → Option β) (same : ∀ position, next position = next' (text.drop position)) :
    (findFrom pattern text start).bind next = (seek pattern (text.drop start)).bind next' := by
  rw [← findFrom_drop, Option.bind_map]
  exact congrArg _ (funext same)

/-! ### Single units -/

/-- The search for one unit cuts the text there. -/
theorem find_unit (unit : α) (text : List α) :
    find [unit] text = (Delimited.cut unit text).map fun (before, _) => before.length := by
  induction text with
  | nil => rfl
  | cons first rest ih =>
      unfold find Delimited.cut
      by_cases same : first = unit
      · rw [if_pos (by simp [same]), if_pos same]
        exact rfl
      · have other : ¬ [unit].isPrefixOf (first :: rest) = true := by
          simpa using fun equal => same equal.symm
        rw [if_neg other, if_neg same, ih, Option.map_map, Option.map_map]
        exact rfl

/-- From a position on, one unit is found in what is left of the text. -/
theorem findFrom_unit (unit : α) (text rest : List α) (start : Nat)
    (here : text.drop start = rest) :
    (findFrom [unit] text start = none ∧ Delimited.cut unit rest = none) ∨
      ∃ before behind, rest = before ++ unit :: behind ∧
        Delimited.cut unit rest = some (before, behind) ∧
        findFrom [unit] text start = some (start + before.length) ∧
        text.drop (start + before.length + 1) = behind := by
  rw [findFrom, here, find_unit]
  rcases Delimited.cut_cases unit rest with ⟨-, none⟩ | ⟨before, behind, -, whole, some⟩
  · exact Or.inl ⟨by rw [none]; exact rfl, none⟩
  · refine Or.inr ⟨before, behind, whole, some, by rw [some]; exact rfl, ?_⟩
    rw [Nat.add_assoc, ← List.drop_drop, here, whole, List.drop_append, List.drop_of_length_le (by omega)]
    simp

/-! ### Words between delimiters -/

variable {mark : α}

def quoted (mark : α) (word : List α) : List α := mark :: (word ++ [mark])

theorem seek_quoted_units (word units rest : List α) (absent : mark ∉ units) :
    seek (quoted mark word) (units ++ rest) = seek (quoted mark word) rest :=
  seek_skip_units units rest absent

theorem seek_quoted_unit (word : List α) (unit : α) (rest : List α) (other : mark ≠ unit) :
    seek (quoted mark word) (unit :: rest) = seek (quoted mark word) rest :=
  seek_quoted_units word [unit] rest fun member => other (List.mem_singleton.mp member)

/-- Two delimited words begin alike only if they are the same. -/
theorem quoted_begins {word other rest : List α} (clean : mark ∉ word) (clean' : mark ∉ other)
    (here : quoted mark word <+: quoted mark other ++ rest) : word = other := by
  unfold quoted at here
  rw [List.cons_append, List.cons_prefix_cons, List.append_assoc, List.singleton_append] at here
  obtain ⟨tail, whole⟩ := here.2
  rw [List.append_assoc, List.singleton_append] at whole
  have cut := Delimited.cut_append word tail clean
  rw [whole, Delimited.cut_append other rest clean'] at cut
  exact (Prod.mk.inj (Option.some.inj cut)).1.symm

/-- The search passes another word, when the searched one does not begin like
what follows it. -/
theorem seek_skip_quoted (word : List α) (first : α) (other rest : List α)
    (clean : mark ∉ first :: word) (clean' : mark ∉ other) (different : first :: word ≠ other)
    (apart : rest.head? ≠ some first) :
    seek (quoted mark (first :: word)) (quoted mark other ++ rest) =
      seek (quoted mark (first :: word)) rest := by
  have opening : ¬ quoted mark (first :: word) <+: mark :: ((other ++ [mark]) ++ rest) := by
    intro here
    exact different (quoted_begins clean clean' here)
  have closing : ¬ quoted mark (first :: word) <+: mark :: rest := by
    intro here
    obtain ⟨tail, whole⟩ := (List.cons_prefix_cons.mp here).2
    apply apart
    rw [← whole]
    exact rfl
  have unfolded : quoted mark other ++ rest = mark :: ((other ++ [mark]) ++ rest) := rfl
  rw [unfolded, seek_skip mark _ opening, List.append_assoc]
  unfold quoted
  rw [seek_skip_units other _ clean', List.singleton_append]
  exact seek_skip mark rest closing

/-- The search passes another word and the unit behind it. -/
theorem seek_token {key other : List α} (unit : α) (rest : List α) (clean : mark ∉ key)
    (clean' : mark ∉ other) (different : key ≠ other) (some : key ≠ [])
    (apart : key.head? ≠ .some unit) (visible : mark ≠ unit) :
    seek (quoted mark key) (quoted mark other ++ unit :: rest) = seek (quoted mark key) rest := by
  obtain ⟨first, word, rfl⟩ := List.exists_cons_of_ne_nil some
  have behind : (unit :: rest).head? ≠ .some first := fun same => apart same.symm
  rw [seek_skip_quoted word first other _ clean clean' different behind,
    seek_quoted_unit _ _ _ visible]

end ByteSearch
