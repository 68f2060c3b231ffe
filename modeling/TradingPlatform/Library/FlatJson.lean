import Mathlib.Data.List.Nodup
import TradingPlatform.Library.ByteSearch
import TradingPlatform.Library.Numeral

set_option autoImplicit false

/- Flat JSON objects as text: fields in any order with any white space between
the tokens, values that are numbers, constants or strings without escapes. -/
namespace FlatJson

open Decimal
open ByteSearch (quoted seek)

abbrev quote : UInt8 := 34
abbrev backslash : UInt8 := 92
abbrev colon : UInt8 := 58
abbrev comma : UInt8 := 44
abbrev opening : UInt8 := 123
abbrev closing : UInt8 := 125

/-- Space, tab, line feed and carriage return. -/
abbrev blanks : List UInt8 := [32, 9, 10, 13]

abbrev Space : Type := { text : List UInt8 // ∀ unit ∈ text, unit ∈ blanks }

/-- The contents of a string without escapes. -/
abbrev Plain : Type := { text : List UInt8 // quote ∉ text ∧ backslash ∉ text }

structure Exponent where
  upper : Bool
  minus : Option Bool
  digits : List UInt8
  nonempty : digits ≠ []
  all : Digits digits

def Exponent.text (exponent : Exponent) : List UInt8 :=
  (if exponent.upper then 'E'.toUInt8 else 'e'.toUInt8) ::
    ((exponent.minus.elim [] fun minus => [if minus then '-'.toUInt8 else '+'.toUInt8]) ++
      exponent.digits)

structure Number where
  mantissa : Numeral
  exponent : Option Exponent

def Number.text (number : Number) : List UInt8 :=
  number.mantissa.text ++ number.exponent.elim [] Exponent.text

inductive Value where
  | string (contents : Plain)
  | number (literal : Number)
  | boolean (truth : Bool)
  | null

def Value.text : Value → List UInt8
  | .string contents => quoted quote contents.val
  | .number literal => literal.text
  | .boolean truth => if truth then ascii "true" else ascii "false"
  | .null => ascii "null"

def Value.isString : Value → Bool
  | .string _ => true
  | _ => false

structure Field where
  before : Space := ⟨[], by simp⟩
  key : Plain
  afterKey : Space := ⟨[], by simp⟩
  beforeValue : Space := ⟨[], by simp⟩
  value : Value
  afterValue : Space := ⟨[], by simp⟩

namespace Field

/-- The value with the space around it. -/
def spaced (field : Field) : List UInt8 :=
  field.beforeValue.val ++ (field.value.text ++ field.afterValue.val)

/-- What follows the key. -/
def behind (field : Field) : List UInt8 := field.afterKey.val ++ colon :: field.spaced

def text (field : Field) : List UInt8 :=
  field.before.val ++ (quoted quote field.key.val ++ field.behind)

end Field

structure Object where
  before : Space := ⟨[], by simp⟩
  fields : List Field
  inside : Space := ⟨[], by simp⟩
  after : Space := ⟨[], by simp⟩
  distinct : (fields.map Field.key).Nodup

/-- The fields with commas between them. -/
def joined : List Field → List UInt8
  | [] => []
  | field :: later => field.text ++ later.flatMap fun other => comma :: other.text

namespace Object

def text (object : Object) : List UInt8 :=
  object.before.val ++ opening :: (joined object.fields ++
    (object.inside.val ++ closing :: object.after.val))

/-- The value that a key is bound to. -/
def lookup (object : Object) (key : List UInt8) : Option Value :=
  (object.fields.find? fun field => field.key.val = key).map Field.value

/-- The contents of the string that a key is bound to. -/
def string (object : Object) (key : List UInt8) : Option (List UInt8) :=
  match object.lookup key with
  | some (.string contents) => some contents.val
  | _ => none

/-- The number that a key is bound to. -/
def number (object : Object) (key : List UInt8) : Option Number :=
  match object.lookup key with
  | some (.number literal) => some literal
  | _ => none

/-- The contents of all strings that are values. -/
def strings (object : Object) : List (List UInt8) :=
  object.fields.filterMap fun field =>
    match field.value with
    | .string contents => some contents.val
    | _ => none

/-! ### Around one field -/

/-- What is in front of a field's key. -/
def front (object : Object) (earlier : List Field) (field : Field) : List UInt8 :=
  object.before.val ++ opening ::
    ((earlier.flatMap fun other => other.text ++ [comma]) ++ field.before.val)

/-- What is behind a field that these fields follow. -/
def tail (object : Object) (later : List Field) : List UInt8 :=
  (later.flatMap fun other => comma :: other.text) ++ (object.inside.val ++ closing :: object.after.val)

theorem joined_split (earlier : List Field) (field : Field) (later : List Field) :
    joined (earlier ++ field :: later) =
      (earlier.flatMap fun other => other.text ++ [comma]) ++
        (field.text ++ later.flatMap fun other => comma :: other.text) := by
  induction earlier with
  | nil => rfl
  | cons first earlier ih =>
      cases earlier with
      | nil => simp [joined]
      | cons second earlier =>
          have unfolded : joined (first :: second :: (earlier ++ field :: later)) =
              first.text ++ comma :: joined (second :: (earlier ++ field :: later)) := by
            simp [joined]
          rw [List.cons_append, List.cons_append, unfolded, ← List.cons_append, ih]
          simp [List.flatMap_cons, List.append_assoc]

variable {object : Object} {earlier later : List Field} {field : Field} {key : List UInt8}

theorem text_split (place : object.fields = earlier ++ field :: later) :
    object.text = object.front earlier field ++
      (quoted quote field.key.val ++ (field.behind ++ object.tail later)) := by
  simp only [text, front, tail, place, joined_split, Field.text, List.append_assoc,
    List.cons_append]

/-- A key has one place at most. -/
theorem place_unique {earlier' later' : List Field} {field' : Field}
    (place : object.fields = earlier ++ field :: later)
    (place' : object.fields = earlier' ++ field' :: later')
    (same : field.key.val = field'.key.val) : earlier = earlier' ∧ field = field' := by
  have keys := object.distinct
  rw [place, List.map_append, List.map_cons, List.nodup_middle, List.nodup_cons,
    List.mem_append, not_or] at keys
  have equal : field.key = field'.key := Subtype.ext same
  have both : earlier.map Field.key ++ field.key :: later.map Field.key =
      earlier'.map Field.key ++ field'.key :: later'.map Field.key := by
    have lists := congrArg (List.map Field.key) (place.symm.trans place')
    simpa only [List.map_append, List.map_cons] using lists
  have parts := (List.append_cons_inj_of_notMem (equal ▸ keys.1.1) (equal ▸ keys.1.2)).mp both
  have count : earlier.length = earlier'.length := by
    simpa only [List.length_map] using congrArg List.length parts.1
  obtain ⟨front, rest⟩ := List.append_inj (place.symm.trans place') count
  exact ⟨front, (List.cons.inj rest).1⟩

theorem not_earlier (place : object.fields = earlier ++ field :: later)
    (named : field.key.val = key) : ∀ other ∈ earlier, other.key.val ≠ key := by
  intro other member same
  obtain ⟨first, second, split⟩ := List.append_of_mem member
  have place' : object.fields = first ++ other :: (second ++ field :: later) := by
    rw [place, split, List.append_assoc, List.cons_append]
  have equal := (place_unique place' place (same.trans named.symm)).1
  have count := congrArg List.length (equal.trans split)
  rw [List.length_append, List.length_cons] at count
  omega

theorem lookup_place (place : object.fields = earlier ++ field :: later)
    (named : field.key.val = key) : object.lookup key = some field.value := by
  have absent : earlier.find? (fun other => other.key.val = key) = none := by
    rw [List.find?_eq_none]
    intro other member same
    exact not_earlier place named other member (of_decide_eq_true same)
  rw [lookup, place, List.find?_append, absent, Option.none_or,
    List.find?_cons_of_pos (by exact decide_eq_true named), Option.map_some]

theorem lookup_none (unbound : ∀ field ∈ object.fields, field.key.val ≠ key) :
    object.lookup key = none := by
  rw [lookup, List.find?_eq_none.mpr, Option.map_none]
  intro field member same
  exact unbound field member (of_decide_eq_true same)

/-! ### Searching for a key -/

/-- In front of its own place the key stands nowhere else in quotes: not as a
value, and not across tokens. -/
def Unshadowed (object : Object) (key : List UInt8) : Prop :=
  ∀ start rest, object.text = start ++ rest → quoted quote key <+: rest →
    ∃ earlier field later, object.fields = earlier ++ field :: later ∧ field.key.val = key ∧
      (object.front earlier field).length ≤ start.length

theorem seek_unbound (unshadowed : object.Unshadowed key)
    (unbound : ∀ field ∈ object.fields, field.key.val ≠ key) :
    seek (quoted quote key) object.text = none := by
  cases found : seek (quoted quote key) object.text with
  | none => rfl
  | some rest =>
      obtain ⟨start, whole, here⟩ := ByteSearch.seek_some found
      obtain ⟨earlier, field, later, place, named, -⟩ := unshadowed start rest whole here
      exact absurd named (unbound field (by rw [place]; simp))

theorem seek_own (unshadowed : object.Unshadowed key)
    (place : object.fields = earlier ++ field :: later) (named : field.key.val = key) :
    seek (quoted quote key) object.text =
      some (quoted quote key ++ (field.behind ++ object.tail later)) := by
  have whole := object.text_split place
  rw [named] at whole
  obtain ⟨skipped, left, split, found⟩ := ByteSearch.seek_first whole (List.prefix_append _ _)
  obtain ⟨start, whole', here⟩ := ByteSearch.seek_some found
  obtain ⟨earlier', field', later', place', named', behind⟩ := unshadowed start _ whole' here
  obtain ⟨rfl, rfl⟩ := place_unique place place' (named.trans named'.symm)
  have counts := congrArg List.length (whole.symm.trans whole')
  simp only [List.length_append] at counts
  have none : left.length = 0 := by omega
  rw [found, List.length_eq_zero_iff.mp none, List.nil_append]

/-- The first occurrence speaks for all. -/
theorem unshadowed_of_seek_none (absent : seek (quoted quote key) object.text = none) :
    object.Unshadowed key := by
  intro start rest whole here
  obtain ⟨_, _, -, found⟩ := ByteSearch.seek_first whole here
  rw [absent] at found
  cases found

theorem unshadowed_of_seek_own (place : object.fields = earlier ++ field :: later)
    (named : field.key.val = key)
    (found : seek (quoted quote key) object.text =
      some (quoted quote key ++ (field.behind ++ object.tail later))) :
    object.Unshadowed key := by
  intro start rest whole here
  refine ⟨earlier, field, later, place, named, ?_⟩
  obtain ⟨skipped, left, split, found'⟩ := ByteSearch.seek_first whole here
  rw [found] at found'
  have own := congrArg List.length (object.text_split place)
  have counts := congrArg List.length whole
  have tails := congrArg List.length (Option.some.inj found')
  rw [named] at own
  simp only [List.length_append] at own counts tails
  omega

end Object

/-! ### Units that tokens do not have -/

theorem Space.avoids (space : Space) {unit : UInt8} (solid : unit ∉ blanks) : unit ∉ space.val :=
  fun member => solid (space.2 unit member)

theorem Space.head (space : Space) (unit : UInt8) (rest : List UInt8) :
    ∃ first, (space.val ++ unit :: rest).head? = some first ∧ (first ∈ blanks ∨ first = unit) := by
  cases blank : space.val with
  | nil => exact ⟨unit, rfl, Or.inr rfl⟩
  | cons first others =>
      refine ⟨first, rfl, Or.inl (space.2 first ?_)⟩
      rw [blank]
      exact List.mem_cons_self ..

/-- The units of a number. -/
theorem Number.text_units (number : Number) (unit : UInt8) (member : unit ∈ number.text) :
    isDigit unit = true ∨ unit ∈ ascii ".-+eE" := by
  rcases List.mem_append.mp member with mantissa | exponent
  · rcases number.mantissa.text_units unit mantissa with digit | rfl | rfl
    · exact Or.inl digit
    · exact Or.inr (by decide)
    · exact Or.inr (by decide)
  cases present : number.exponent with
  | none =>
      rw [present] at exponent
      cases exponent
  | some power =>
      rw [present, Option.elim_some] at exponent
      rcases List.mem_cons.mp exponent with mark | exponent
      · rw [mark]
        cases power.upper <;> exact Or.inr (by decide)
      rcases List.mem_append.mp exponent with sign | digits
      · revert sign
        rcases power.minus with _ | _ | _
        · intro sign
          cases sign
        · intro sign
          rw [List.mem_singleton.mp sign]
          exact Or.inr (by decide)
        · intro sign
          rw [List.mem_singleton.mp sign]
          exact Or.inr (by decide)
      · exact Or.inl (power.all unit digits)

theorem Number.not_mem (number : Number) {unit : UInt8} (noDigit : isDigit unit = false)
    (other : unit ∉ ascii ".-+eE") : unit ∉ number.text := by
  intro member
  rcases number.text_units unit member with digit | mark
  · rw [noDigit] at digit
    cases digit
  · exact other mark

theorem Number.quote_not_mem (number : Number) : quote ∉ number.text :=
  number.not_mem (by decide) (by decide)

theorem Value.quote_not_mem {value : Value} (other : value.isString = false) :
    quote ∉ value.text := by
  cases value with
  | string contents => cases other
  | number literal => exact literal.quote_not_mem
  | boolean truth => cases truth <;> decide
  | null => decide

namespace Object

variable {object : Object} {earlier later : List Field} {field : Field} {key : List UInt8}

/-- What stands behind a value. -/
theorem tail_head (object : Object) (field : Field) (later : List Field) :
    ∃ first, (field.afterValue.val ++ object.tail later).head? = some first ∧
      (first ∈ blanks ∨ first = comma ∨ first = closing) := by
  cases later with
  | nil =>
      have inside := Space.head object.inside closing object.after.val
      cases blank : field.afterValue.val with
      | nil =>
          obtain ⟨first, head, kind⟩ := inside
          exact ⟨first, head, kind.imp id Or.inr⟩
      | cons first others =>
          refine ⟨first, rfl, Or.inl (field.afterValue.2 first ?_)⟩
          rw [blank]
          exact List.mem_cons_self ..
  | cons next later =>
      obtain ⟨first, head, kind⟩ := Space.head field.afterValue comma
        (next.text ++ object.tail later)
      refine ⟨first, ?_, kind.imp id Or.inl⟩
      rw [← head, tail, List.flatMap_cons, List.append_assoc]
      exact rfl

theorem quote_not_mem_end (object : Object) : quote ∉ object.tail [] := by
  have visible : quote ∉ blanks := by decide
  rw [tail, List.flatMap_nil, List.nil_append]
  intro member
  rcases List.mem_append.mp member with inside | after
  · exact Space.avoids object.inside visible inside
  · rcases List.mem_cons.mp after with unit | after
    · exact absurd unit (by decide)
    · exact Space.avoids object.after visible after

/-- A value that is no string has no field behind it. -/
def StringOrLast (object : Object) (key : List UInt8) : Prop :=
  ∀ earlier field later, object.fields = earlier ++ field :: later → field.key.val = key →
    field.value.isString = true ∨ later = []

theorem stringOrLast_of_string {contents : List UInt8}
    (bound : object.string key = some contents) : object.StringOrLast key := by
  intro earlier field later place named
  rw [string, lookup_place place named] at bound
  cases value : field.value with
  | string contents => exact Or.inl rfl
  | number literal =>
      rw [value] at bound
      cases bound
  | boolean truth =>
      rw [value] at bound
      cases bound
  | null =>
      rw [value] at bound
      cases bound

/-! ### Keys that nothing hides -/

section Apart

variable {first : UInt8} {word : List UInt8}

/-- The search passes a field with another key and another value. -/
theorem seek_skip_field (field : Field) (rest : List UInt8) (clean : quote ∉ first :: word)
    (apart : first ∉ blanks) (notColon : first ≠ colon)
    (otherKey : field.key.val ≠ first :: word)
    (otherValue : ∀ contents, field.value = .string contents → contents.val ≠ first :: word)
    (behind : (field.afterValue.val ++ rest).head? ≠ some first) :
    seek (quoted quote (first :: word)) (field.text ++ rest) =
      seek (quoted quote (first :: word)) rest := by
  have solid : quote ∉ blanks := by decide
  have afterKey : (field.afterKey.val ++ colon :: (field.spaced ++ rest)).head? ≠ some first := by
    obtain ⟨head, same, kind⟩ := Space.head field.afterKey colon (field.spaced ++ rest)
    rw [same]
    rintro equal
    rw [Option.some.inj equal] at kind
    exact kind.elim apart notColon
  have value : seek (quoted quote (first :: word))
        (field.value.text ++ (field.afterValue.val ++ rest)) =
      seek (quoted quote (first :: word)) (field.afterValue.val ++ rest) := by
    cases kind : field.value with
    | string contents =>
        exact ByteSearch.seek_skip_quoted word first contents.val _ clean contents.2.1
          (Ne.symm (otherValue contents kind)) behind
    | number literal => exact ByteSearch.seek_quoted_units _ _ _ literal.quote_not_mem
    | boolean truth => exact ByteSearch.seek_quoted_units _ _ _ (Value.quote_not_mem rfl)
    | null => exact ByteSearch.seek_quoted_units _ _ _ (Value.quote_not_mem rfl)
  have passed := ByteSearch.seek_skip_quoted word first field.key.val _ clean field.key.2.1
    (Ne.symm otherKey) afterKey
  rw [Field.text, Field.behind, List.append_assoc, List.append_assoc, List.append_assoc,
    List.cons_append, ByteSearch.seek_quoted_units _ _ _ (Space.avoids field.before solid), passed,
    ByteSearch.seek_quoted_units _ _ _ (Space.avoids field.afterKey solid),
    ByteSearch.seek_quoted_unit _ _ _ (by decide), Field.spaced, List.append_assoc,
    List.append_assoc, ByteSearch.seek_quoted_units _ _ _ (Space.avoids field.beforeValue solid),
    value, ByteSearch.seek_quoted_units _ _ _ (Space.avoids field.afterValue solid)]

/-- The search passes fields that commas follow. -/
theorem seek_skip_fields (fields : List Field) (rest : List UInt8) (clean : quote ∉ first :: word)
    (apart : first ∉ blanks) (notColon : first ≠ colon) (notComma : first ≠ comma)
    (otherKey : ∀ field ∈ fields, field.key.val ≠ first :: word)
    (otherValue : ∀ field ∈ fields, ∀ contents, field.value = .string contents →
      contents.val ≠ first :: word) :
    seek (quoted quote (first :: word))
        ((fields.flatMap fun other => other.text ++ [comma]) ++ rest) =
      seek (quoted quote (first :: word)) rest := by
  induction fields with
  | nil => rfl
  | cons field fields ih =>
      have head := List.mem_cons_self (a := field) (l := fields)
      have later := ih (fun other member => otherKey other (List.mem_cons_of_mem _ member))
        (fun other member => otherValue other (List.mem_cons_of_mem _ member))
      have behind : (field.afterValue.val ++ comma ::
          ((fields.flatMap fun other => other.text ++ [comma]) ++ rest)).head? ≠ some first := by
        obtain ⟨unit, same, kind⟩ := Space.head field.afterValue comma
          ((fields.flatMap fun other => other.text ++ [comma]) ++ rest)
        rw [same]
        intro equal
        rw [Option.some.inj equal] at kind
        exact kind.elim apart notComma
      rw [List.flatMap_cons, List.append_assoc, List.append_assoc, List.singleton_append,
        seek_skip_field field _ clean apart notColon (otherKey field head) (otherValue field head)
          behind,
        ByteSearch.seek_quoted_unit _ _ _ (by decide), later]

theorem unshadowed_cons (object : Object) (clean : quote ∉ first :: word)
    (apart : first ∉ blanks) (solid : first ∉ [colon, comma, closing])
    (absent : first :: word ∉ object.strings) : object.Unshadowed (first :: word) := by
  have otherValue : ∀ field ∈ object.fields, ∀ contents, field.value = .string contents →
      contents.val ≠ first :: word := by
    intro field member contents value same
    apply absent
    rw [← same]
    exact List.mem_filterMap.mpr ⟨field, member, by rw [value]⟩
  have notColon : first ≠ colon := fun same => solid (by simp [same])
  have notComma : first ≠ comma := fun same => solid (by simp [same])
  have notClosing : first ≠ closing := fun same => solid (by simp [same])
  have visible : quote ∉ blanks := by decide
  have ends := object.quote_not_mem_end
  have passed : ∀ rest, seek (quoted quote (first :: word)) (object.before.val ++ opening :: rest) =
      seek (quoted quote (first :: word)) rest := by
    intro rest
    rw [ByteSearch.seek_quoted_units _ _ _ (Space.avoids object.before visible),
      ByteSearch.seek_quoted_unit _ _ _ (by decide)]
  by_cases bound : ∃ field ∈ object.fields, field.key.val = first :: word
  · obtain ⟨field, member, named⟩ := bound
    obtain ⟨earlier, later, place⟩ := List.append_of_mem member
    apply unshadowed_of_seek_own place named
    rw [object.text_split place, named, front, List.append_assoc, List.cons_append, passed,
      List.append_assoc, seek_skip_fields earlier _ clean apart notColon notComma (not_earlier place named)
        (fun other among => otherValue other (by rw [place]; exact List.mem_append_left _ among)),
      ByteSearch.seek_quoted_units _ _ _ (Space.avoids field.before visible)]
    exact ByteSearch.seek_here (List.prefix_append _ _)
  · apply unshadowed_of_seek_none
    have unbound : ∀ field ∈ object.fields, field.key.val ≠ first :: word :=
      fun field member same => bound ⟨field, member, same⟩
    rw [text, passed]
    rcases List.eq_nil_or_concat object.fields with none | ⟨earlier, field, place⟩
    · rw [none]
      exact ByteSearch.seek_none _ ends
    · rw [List.concat_eq_append] at place
      have last : field ∈ object.fields := by rw [place]; simp
      obtain ⟨unit, same, kind⟩ := object.tail_head field []
      have behind : (field.afterValue.val ++
          (object.inside.val ++ closing :: object.after.val)).head? ≠ some first := by
        intro equal
        rw [Option.some.inj (same.symm.trans equal)] at kind
        exact kind.elim apart fun kind => kind.elim notComma notClosing
      rw [place, joined_split, List.flatMap_nil, List.append_nil, List.append_assoc,
        seek_skip_fields earlier _ clean apart notColon notComma
          (fun other among => unbound other (by rw [place]; exact List.mem_append_left _ among))
          (fun other among => otherValue other (by rw [place]; exact List.mem_append_left _ among)),
        seek_skip_field field _ clean apart notColon (unbound field last) (otherValue field last)
          behind]
      exact ByteSearch.seek_none _ ends

end Apart

/-- A key is found at its own place when it is no string value, and does not begin
like what may stand between the tokens. -/
theorem unshadowed_of_apart (object : Object) (key : List UInt8) (clean : quote ∉ key)
    (some : key ≠ []) (apart : ∀ first ∈ key.head?, first ∉ blanks ++ [colon, comma, closing])
    (absent : key ∉ object.strings) : object.Unshadowed key := by
  obtain ⟨first, word, rfl⟩ := List.exists_cons_of_ne_nil some
  have outside := apart first rfl
  exact unshadowed_cons object clean (fun blank => outside (List.mem_append_left _ blank))
    (fun between => outside (List.mem_append_right _ between)) absent

end Object
end FlatJson
