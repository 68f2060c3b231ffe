import TradingPlatform.Library.FlatJson

set_option autoImplicit false

/- The field extractors of the JSON normalizers. They do not parse: a field is
looked for as its quoted name, wherever that stands. -/
namespace TradingPlatform

open Decimal ByteSearch
open FlatJson (quote colon)

def extractJsonString (raw key : List UInt8) : Option (List UInt8) := do
  let pattern := quoted quote key
  let keyPos ← find pattern raw
  let colonPos ← findFrom [colon] raw (keyPos + pattern.length)
  let firstQuote ← findFrom [quote] raw (colonPos + 1)
  let secondQuote ← findFrom [quote] raw (firstQuote + 1)
  return (raw.drop (firstQuote + 1)).take (secondQuote - firstQuote - 1)

def isNumberUnit (unit : UInt8) : Bool :=
  isDigit unit || decide (unit = '.'.toUInt8) || decide (unit = '-'.toUInt8)

/-- The loop that moves a position past the units of a kind. -/
def skipWhile (kind : UInt8 → Bool) (raw : List UInt8) (start : Nat) : Nat :=
  start + ((raw.drop start).takeWhile kind).length

def extractJsonNumberAsString (raw key : List UInt8) : Option (List UInt8) := do
  let pattern := quoted quote key
  let keyPos ← find pattern raw
  let colonPos ← findFrom [colon] raw (keyPos + pattern.length)
  let start := skipWhile isSpace raw (colonPos + 1)
  let stop := skipWhile isNumberUnit raw start
  if stop = start then none else some ((raw.drop start).take (stop - start))

/-! ### The extractors on what follows the key -/

/-- The contents of the first quotes behind the first colon. -/
def quotedAfterColon (text : List UInt8) : Option (List UInt8) := do
  let (_, text) ← Delimited.cut colon text
  let (_, text) ← Delimited.cut quote text
  let (contents, _) ← Delimited.cut quote text
  return contents

/-- The number text behind the first colon. -/
def numberAfterColon (text : List UInt8) : Option (List UInt8) := do
  let (_, text) ← Delimited.cut colon text
  let number := (text.dropWhile isSpace).takeWhile isNumberUnit
  if number = [] then none else some number

theorem drop_takeWhile_length (kind : UInt8 → Bool) (text : List UInt8) :
    text.drop (text.takeWhile kind).length = text.dropWhile kind := by
  have parts := congrArg (List.drop (text.takeWhile kind).length)
    (List.takeWhile_append_dropWhile (p := kind) (l := text))
  rw [List.drop_left] at parts
  exact parts.symm

theorem drop_skipWhile (kind : UInt8 → Bool) (raw : List UInt8) (start : Nat) :
    raw.drop (skipWhile kind raw start) = (raw.drop start).dropWhile kind := by
  rw [skipWhile, ← List.drop_drop, drop_takeWhile_length]

theorem after_find {pattern raw : List UInt8} {position : Nat}
    (found : find pattern raw = some position) :
    after pattern raw = some (raw.drop (position + pattern.length)) := by
  rw [after, ← find_drop, found, Option.map_some, Option.map_some, List.drop_drop]

theorem after_none {pattern raw : List UInt8} (absent : find pattern raw = none) :
    after pattern raw = none := by
  rw [after, ← find_drop, absent, Option.map_none, Option.map_none]

theorem extractJsonString_eq (raw key : List UInt8) :
    extractJsonString raw key = (after (quoted quote key) raw).bind quotedAfterColon := by
  simp only [extractJsonString, Option.bind_eq_bind]
  cases keyFound : find (quoted quote key) raw with
  | none =>
      rw [after_none keyFound]
      exact rfl
  | some keyPos =>
      rw [after_find keyFound, Option.bind_some, Option.bind_some]
      simp only [quotedAfterColon, Option.bind_eq_bind]
      generalize start : keyPos + (quoted quote key).length = position
      rcases findFrom_unit colon raw _ position rfl with
        ⟨absent, cut⟩ | ⟨front, text, -, cut, found, rest⟩
      · rw [absent, cut]
        exact rfl
      rw [cut, found, Option.bind_some, Option.bind_some]
      rcases findFrom_unit quote raw _ _ rest with
        ⟨absent, cut⟩ | ⟨spaces, text', -, cut, found, rest⟩
      · rw [absent, cut]
        exact rfl
      rw [cut, found, Option.bind_some, Option.bind_some]
      rcases findFrom_unit quote raw _ _ rest with
        ⟨absent, cut⟩ | ⟨contents, left, whole, cut, found, -⟩
      · rw [absent, cut]
        exact rfl
      rw [cut, found, Option.bind_some, Option.bind_some, rest, whole, Nat.sub_sub,
        Nat.add_sub_cancel_left, List.take_left]

theorem extractJsonNumberAsString_eq (raw key : List UInt8) :
    extractJsonNumberAsString raw key = (after (quoted quote key) raw).bind numberAfterColon := by
  simp only [extractJsonNumberAsString, Option.bind_eq_bind]
  cases keyFound : find (quoted quote key) raw with
  | none =>
      rw [after_none keyFound]
      exact rfl
  | some keyPos =>
      rw [after_find keyFound, Option.bind_some, Option.bind_some]
      simp only [numberAfterColon, Option.bind_eq_bind]
      generalize start : keyPos + (quoted quote key).length = position
      rcases findFrom_unit colon raw _ position rfl with
        ⟨absent, cut⟩ | ⟨front, text, -, cut, found, rest⟩
      · rw [absent, cut]
        exact rfl
      rw [cut, found, Option.bind_some, Option.bind_some]
      have number : raw.drop (skipWhile isSpace raw (position + front.length + 1)) =
          text.dropWhile isSpace := by
        rw [drop_skipWhile, rest]
      generalize skipWhile isSpace raw (position + front.length + 1) = begins at number
      have taken : (text.dropWhile isSpace).take
            ((text.dropWhile isSpace).takeWhile isNumberUnit).length =
          (text.dropWhile isSpace).takeWhile isNumberUnit :=
        (List.prefix_iff_eq_take.mp (List.takeWhile_prefix _)).symm
      rw [skipWhile, number, Nat.add_sub_cancel_left, taken]
      by_cases none : (text.dropWhile isSpace).takeWhile isNumberUnit = []
      · rw [if_pos none, if_pos (by rw [none]; exact rfl)]
      · have long := List.length_pos_iff.mpr none
        rw [if_neg none, if_neg (by omega)]

/-- A number text has a unit, and only units of numbers. -/
theorem extractJsonNumberAsString_units {raw key number : List UInt8}
    (extracted : extractJsonNumberAsString raw key = some number) :
    number ≠ [] ∧ ∀ unit ∈ number, isNumberUnit unit = true := by
  rw [extractJsonNumberAsString_eq] at extracted
  obtain ⟨text, -, extracted⟩ := Option.bind_eq_some_iff.mp extracted
  obtain ⟨⟨front, behind⟩, -, extracted⟩ := Option.bind_eq_some_iff.mp extracted
  dsimp only at extracted
  split at extracted
  · cases extracted
  · rename_i nonempty
    rw [← Option.some.inj extracted]
    exact ⟨nonempty, fun unit member => List.all_eq_true.mp List.all_takeWhile unit member⟩

/-! ### On flat objects -/

section FlatObject

open FlatJson

variable {object : Object} {earlier later : List Field} {field : Field} {key : List UInt8}

theorem after_unbound (unshadowed : object.Unshadowed key)
    (unbound : ∀ field ∈ object.fields, field.key.val ≠ key) :
    after (quoted quote key) object.text = none := by
  rw [after, Object.seek_unbound unshadowed unbound, Option.map_none]

theorem after_own (unshadowed : object.Unshadowed key)
    (place : object.fields = earlier ++ field :: later) (named : field.key.val = key) :
    after (quoted quote key) object.text = some (field.behind ++ object.tail later) := by
  rw [after, Object.seek_own unshadowed place named, Option.map_some, List.drop_left]

theorem cut_behind (field : Field) (rest : List UInt8) :
    Delimited.cut colon (field.behind ++ rest) =
      some (field.afterKey.val, field.beforeValue.val ++
        (field.value.text ++ (field.afterValue.val ++ rest))) := by
  rw [Field.behind, List.append_assoc, List.cons_append,
    Delimited.cut_append _ _ (Space.avoids field.afterKey (by decide)), Field.spaced,
    List.append_assoc, List.append_assoc]

/-- A string is read back whatever follows it. -/
theorem quotedAfterColon_string (field : Field) (rest : List UInt8) {contents : Plain}
    (string : field.value = .string contents) :
    quotedAfterColon (field.behind ++ rest) = some contents.val := by
  have text : field.value.text ++ (field.afterValue.val ++ rest) =
      quote :: (contents.val ++ quote :: (field.afterValue.val ++ rest)) := by
    rw [string, Value.text, quoted]
    simp
  simp only [quotedAfterColon, cut_behind, text, Option.bind_eq_bind, Option.bind_some]
  rw [Delimited.cut_append _ _ (Space.avoids field.beforeValue (by decide)), Option.bind_some,
    Delimited.cut_append _ _ contents.2.1]
  exact rfl

/-- No quotes follow another value in the last place. -/
theorem quotedAfterColon_last (object : Object) (field : Field)
    (other : field.value.isString = false) :
    quotedAfterColon (field.behind ++ object.tail []) = none := by
  have visible : quote ∉ blanks := by decide
  have absent : quote ∉ field.beforeValue.val ++ (field.value.text ++
      (field.afterValue.val ++ object.tail [])) := by
    intro member
    rcases List.mem_append.mp member with space | member
    · exact Space.avoids field.beforeValue visible space
    rcases List.mem_append.mp member with value | member
    · exact Value.quote_not_mem other value
    rcases List.mem_append.mp member with space | member
    · exact Space.avoids field.afterValue visible space
    · exact object.quote_not_mem_end member
  simp only [quotedAfterColon, cut_behind, Option.bind_eq_bind, Option.bind_some]
  rw [Delimited.cut_none _ absent]
  exact rfl

theorem dropWhile_isSpace (space : Space) (unit : UInt8) (rest : List UInt8)
    (solid : isSpace unit = false) :
    (space.val ++ unit :: rest).dropWhile isSpace = unit :: rest := by
  have blank : blanks.all isSpace = true := by decide
  rw [List.dropWhile_append_of_pos fun unit member =>
      List.all_eq_true.mp blank unit (space.2 unit member),
    List.dropWhile_cons_of_neg (by rw [solid]; exact Bool.false_ne_true)]

theorem isNumberUnit_numeral (numeral : Numeral) (unit : UInt8) (member : unit ∈ numeral.text) :
    isNumberUnit unit = true := by
  rcases numeral.text_units unit member with digit | rfl | rfl
  · rw [isNumberUnit, digit, Bool.true_or, Bool.true_or]
  · decide
  · decide

/-- What follows a mantissa ends the number text. -/
theorem takeWhile_number (object : Object) (field : Field) (later : List Field)
    (number : Number) :
    (number.text ++ (field.afterValue.val ++ object.tail later)).takeWhile isNumberUnit =
      number.mantissa.text := by
  have ends : (number.exponent.elim [] Exponent.text ++
      (field.afterValue.val ++ object.tail later)).takeWhile isNumberUnit = [] := by
    cases number.exponent with
    | none =>
        obtain ⟨unit, head, kind⟩ := object.tail_head field later
        obtain ⟨rest, whole⟩ := List.head?_eq_some_iff.mp head
        have other : blanks.all (fun unit => !isNumberUnit unit) = true := by decide
        have stops : isNumberUnit unit = false := by
          rcases kind with blank | rfl | rfl
          · exact Bool.not_eq_true' _ |>.mp (List.all_eq_true.mp other unit blank)
          · decide
          · decide
        rw [Option.elim_none, List.nil_append, whole,
          List.takeWhile_cons_of_neg (by rw [stops]; exact Bool.false_ne_true)]
    | some exponent =>
        rw [Option.elim_some, Exponent.text]
        cases exponent.upper <;> exact rfl
  rw [Number.text, List.append_assoc,
    List.takeWhile_append_of_pos (isNumberUnit_numeral number.mantissa), ends, List.append_nil]

theorem numberAfterColon_number (object : Object) (field : Field) (later : List Field)
    {number : Number} (bound : field.value = .number number) :
    numberAfterColon (field.behind ++ object.tail later) = some number.mantissa.text := by
  obtain ⟨unit, rest, text, kind⟩ := number.mantissa.text_head
  have solid : isSpace unit = false := by
    rcases kind with digit | rfl
    · exact (digit_apart unit digit).1
    · decide
  have taken := takeWhile_number object field later number
  have some : number.mantissa.text ≠ [] := by
    rw [text]
    exact List.cons_ne_nil _ _
  have whole : number.text ++ (field.afterValue.val ++ object.tail later) =
      unit :: (rest ++ (number.exponent.elim [] Exponent.text ++
        (field.afterValue.val ++ object.tail later))) := by
    rw [Number.text, text, List.append_assoc, List.cons_append]
  simp only [numberAfterColon, cut_behind, bound, Value.text, Option.bind_eq_bind,
    Option.bind_some]
  rw [whole, dropWhile_isSpace _ _ _ solid, ← whole, taken, if_neg some]

theorem numberAfterColon_other (field : Field) (rest : List UInt8)
    (other : ∀ number, field.value ≠ .number number) :
    numberAfterColon (field.behind ++ rest) = none := by
  have first : ∃ unit text, field.value.text = unit :: text ∧ isSpace unit = false ∧
      isNumberUnit unit = false := by
    cases value : field.value with
    | string contents => exact ⟨_, _, rfl, by decide, by decide⟩
    | number literal => exact absurd value (other literal)
    | boolean truth => cases truth <;> exact ⟨_, _, rfl, by decide, by decide⟩
    | null => exact ⟨_, _, rfl, by decide, by decide⟩
  obtain ⟨unit, text, whole, solid, stops⟩ := first
  simp only [numberAfterColon, cut_behind, whole, List.cons_append, Option.bind_eq_bind,
    Option.bind_some]
  rw [dropWhile_isSpace _ _ _ solid,
    List.takeWhile_cons_of_neg (by rw [stops]; exact Bool.false_ne_true), if_pos rfl]

/-- A key is unbound, or bound at some place. -/
theorem bound_or_not (object : Object) (key : List UInt8) :
    (∀ field ∈ object.fields, field.key.val ≠ key) ∨
      ∃ earlier field later, object.fields = earlier ++ field :: later ∧ field.key.val = key := by
  by_cases bound : ∃ field ∈ object.fields, field.key.val = key
  · obtain ⟨field, member, named⟩ := bound
    obtain ⟨earlier, later, place⟩ := List.append_of_mem member
    exact Or.inr ⟨earlier, field, later, place, named⟩
  · exact Or.inl fun field member named => bound ⟨field, member, named⟩

/-- A number is read from its own key, up to its exponent, and nothing else is
taken for one. -/
theorem extractJsonNumberAsString_own (unshadowed : object.Unshadowed key) :
    extractJsonNumberAsString object.text key =
      (object.number key).map fun number => number.mantissa.text := by
  rw [extractJsonNumberAsString_eq, Object.number]
  rcases bound_or_not object key with unbound | ⟨earlier, field, later, place, named⟩
  · rw [after_unbound unshadowed unbound, Object.lookup_none unbound]
    exact rfl
  · rw [after_own unshadowed place named, Object.lookup_place place named, Option.bind_some]
    cases value : field.value with
    | number literal => exact numberAfterColon_number object field later value
    | string contents => exact numberAfterColon_other field _ fun _ => by simp [value]
    | boolean truth => exact numberAfterColon_other field _ fun _ => by simp [value]
    | null => exact numberAfterColon_other field _ fun _ => by simp [value]

/-- A string is read from its own key, if another value there has no field
behind it. -/
theorem extractJsonString_own (unshadowed : object.Unshadowed key)
    (placed : object.StringOrLast key) :
    extractJsonString object.text key = object.string key := by
  rw [extractJsonString_eq, Object.string]
  rcases bound_or_not object key with unbound | ⟨earlier, field, later, place, named⟩
  · rw [after_unbound unshadowed unbound, Object.lookup_none unbound]
    exact rfl
  · rw [after_own unshadowed place named, Object.lookup_place place named, Option.bind_some]
    have last : field.value.isString = false → later = [] := fun other =>
      (placed earlier field later place named).resolve_left (by rw [other]; exact Bool.false_ne_true)
    cases value : field.value with
    | string contents => exact quotedAfterColon_string field _ value
    | number literal =>
        have other : field.value.isString = false := by rw [value]; exact rfl
        rw [last other]
        exact quotedAfterColon_last object field other
    | boolean truth =>
        have other : field.value.isString = false := by rw [value]; exact rfl
        rw [last other]
        exact quotedAfterColon_last object field other
    | null =>
        have other : field.value.isString = false := by rw [value]; exact rfl
        rw [last other]
        exact quotedAfterColon_last object field other

end FlatObject

end TradingPlatform
