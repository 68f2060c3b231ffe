import Mathlib.Algebra.Group.Nat.Defs
import Mathlib.Algebra.Group.Int.Defs
import Mathlib.Data.List.Basic

set_option autoImplicit false

/- Decimal numbers as text: runs of digits, their values, and the standard
readers that take the digits at the front of a text. -/
namespace Decimal

/-- The bytes of an ASCII string. -/
def ascii (text : String) : List UInt8 := text.toList.map Char.toUInt8

def isDigit (unit : UInt8) : Bool := Nat.ble 48 unit.toNat && Nat.ble unit.toNat 57

/-- White space as the C locale has it. -/
def isSpace (unit : UInt8) : Bool :=
  Nat.beq unit.toNat 32 || (Nat.ble 9 unit.toNat && Nat.ble unit.toNat 13)

def digit (unit : UInt8) : Nat := unit.toNat - 48

/-- Every unit is a digit. -/
def Digits (text : List UInt8) : Prop := ∀ unit ∈ text, isDigit unit = true

instance (text : List UInt8) : Decidable (Digits text) :=
  decidable_of_iff (text.all isDigit = true) List.all_eq_true

/-- The number that a run of digits stands for. -/
def value (digits : List UInt8) : Nat :=
  digits.foldl (fun number unit => number * 10 + digit unit) 0

theorem isDigit_iff (unit : UInt8) :
    isDigit unit = true ↔ 48 ≤ unit.toNat ∧ unit.toNat ≤ 57 := by
  rw [isDigit, Bool.and_eq_true, Nat.ble_eq, Nat.ble_eq]

theorem digit_lt (unit : UInt8) (digits : isDigit unit = true) : digit unit < 10 := by
  have bounds := (isDigit_iff unit).mp digits
  unfold digit
  omega

theorem digit_eq_zero (unit : UInt8) (digits : isDigit unit = true) (zero : digit unit = 0) :
    unit = '0'.toUInt8 := by
  have bounds := (isDigit_iff unit).mp digits
  unfold digit at zero
  apply UInt8.toNat_inj.mp
  have low : unit.toNat = 48 := by omega
  exact low

@[simp] theorem value_nil : value [] = 0 := rfl

theorem value_concat (digits : List UInt8) (unit : UInt8) :
    value (digits ++ [unit]) = value digits * 10 + digit unit := by
  simp [value, List.foldl_append]

theorem foldl_eq (start : Nat) (digits : List UInt8) :
    digits.foldl (fun number unit => number * 10 + digit unit) start =
      start * 10 ^ digits.length + value digits := by
  induction digits generalizing start with
  | nil => simp
  | cons unit rest ih =>
      have unrolled : value (unit :: rest) = (0 * 10 + digit unit) * 10 ^ rest.length + value rest :=
        ih _
      rw [List.foldl_cons, ih, unrolled, List.length_cons, Nat.pow_succ, Nat.add_mul, Nat.add_mul,
        Nat.mul_assoc, Nat.mul_comm 10]
      omega

theorem value_append (before after : List UInt8) :
    value (before ++ after) = value before * 10 ^ after.length + value after := by
  unfold value
  rw [List.foldl_append, foldl_eq]
  exact rfl

theorem value_cons (unit : UInt8) (rest : List UInt8) :
    value (unit :: rest) = digit unit * 10 ^ rest.length + value rest := by
  have one : value [unit] = digit unit := by simp [value]
  rw [← List.singleton_append, value_append, one]

theorem value_lt (digits : List UInt8) (all : Digits digits) :
    value digits < 10 ^ digits.length := by
  induction digits with
  | nil => simp
  | cons unit rest ih =>
      have below := ih fun other member => all other (List.mem_cons_of_mem _ member)
      have small := digit_lt unit (all unit (List.mem_cons_self ..))
      have scaled : (digit unit + 1) * 10 ^ rest.length ≤ 10 * 10 ^ rest.length :=
        Nat.mul_le_mul_right _ small
      rw [Nat.add_mul, Nat.one_mul] at scaled
      rw [value_cons, List.length_cons, Nat.pow_succ, Nat.mul_comm _ 10]
      omega

theorem value_eq_zero (digits : List UInt8) (all : Digits digits) :
    value digits = 0 ↔ ∀ unit ∈ digits, unit = '0'.toUInt8 := by
  induction digits with
  | nil => simp
  | cons unit rest ih =>
      have tail := ih fun other member => all other (List.mem_cons_of_mem _ member)
      have positive : 0 < 10 ^ rest.length := Nat.pow_pos (by omega)
      rw [value_cons, List.forall_mem_cons, ← tail, Nat.add_eq_zero_iff, Nat.mul_eq_zero]
      constructor
      · rintro ⟨head | none, rest⟩
        · exact ⟨digit_eq_zero unit (all unit (List.mem_cons_self ..)) head, rest⟩
        · omega
      · rintro ⟨head, rest⟩
        exact ⟨Or.inl (by rw [head]; decide), rest⟩

theorem Digits.take {digits : List UInt8} (all : Digits digits) (count : Nat) :
    Digits (digits.take count) :=
  fun unit member => all unit (List.mem_of_mem_take member)

/-! ### Writing -/

def render (number : Nat) : List UInt8 := (Nat.toDigits 10 number).map Char.toUInt8

def renderInt : Int → List UInt8
  | .ofNat number => render number
  | .negSucc number => '-'.toUInt8 :: render (number + 1)

theorem toNat_toUInt8 (character : Char) (digits : character.isDigit = true) :
    character.toUInt8.toNat = character.toNat := by
  have bounds : 48 ≤ character.toNat ∧ character.toNat ≤ 57 := by
    simpa [Char.isDigit, Char.le_def, UInt32.le_iff_toNat_le] using digits
  have cast : character.toUInt8.toNat = character.toNat % 256 := UInt32.toNat_toUInt8 _
  omega

theorem render_digits (number : Nat) : Digits (render number) := by
  intro unit member
  obtain ⟨character, among, same⟩ := List.mem_map.mp member
  have digits := Nat.isDigit_of_mem_toDigits (by omega) (by omega) among
  have bounds : 48 ≤ character.toNat ∧ character.toNat ≤ 57 := by
    simpa [Char.isDigit, Char.le_def, UInt32.le_iff_toNat_le] using digits
  rw [isDigit_iff, ← same, toNat_toUInt8 character digits]
  exact bounds

theorem render_ne_nil (number : Nat) : render number ≠ [] := by
  intro empty
  exact Nat.toDigits_ne_nil (List.map_eq_nil_iff.mp empty)

theorem value_render (number : Nat) : value (render number) = number := by
  have read : ∀ characters : List Char, (∀ character ∈ characters, character.isDigit = true) →
      ∀ start, (characters.map Char.toUInt8).foldl (fun number unit => number * 10 + digit unit)
        start = Nat.ofDigitChars 10 characters start := by
    intro characters
    induction characters with
    | nil => exact fun _ _ => rfl
    | cons character rest ih =>
        intro digits start
        have first : digit character.toUInt8 = character.toNat - '0'.toNat := by
          unfold digit
          rw [toNat_toUInt8 character (digits character (List.mem_cons_self ..))]
          exact rfl
        rw [List.map_cons, List.foldl_cons, first, Nat.mul_comm start,
          ih (fun other member => digits other (List.mem_cons_of_mem _ member))]
        exact rfl
  unfold value render
  rw [read _ (fun character among => Nat.isDigit_of_mem_toDigits (by omega) (by omega) among)]
  exact Nat.ofDigitChars_ten_toDigits

/-! ### Reading -/

/-- The digits at the front. -/
def leading (text : List UInt8) : List UInt8 := text.takeWhile isDigit

theorem leading_append (digits rest : List UInt8) (all : Digits digits) :
    leading (digits ++ rest) = digits ++ leading rest :=
  List.takeWhile_append_of_pos all

theorem leading_eq (digits : List UInt8) (all : Digits digits) : leading digits = digits := by
  have split := leading_append digits [] all
  rw [List.append_nil] at split
  rw [split, leading, List.takeWhile_nil, List.append_nil]

/-- `std::from_chars` for an unsigned type with the given number of values. What
follows the digits is left unread. -/
def fromChars (limit : Nat) (text : List UInt8) : Option Nat :=
  if leading text = [] ∨ limit ≤ value (leading text) then none else some (value (leading text))

inductive ReadError where
  | invalidArgument
  | outOfRange
  deriving DecidableEq, Repr

/-- An optional sign: whether it is a minus, and what follows it. -/
def splitSign (text : List UInt8) : Bool × List UInt8 :=
  if text.head? = some '-'.toUInt8 then (true, text.tail)
  else if text.head? = some '+'.toUInt8 then (false, text.tail)
  else (false, text)

/-- `std::stoll`: white space and a sign may come first, anything may follow. -/
def stoll (text : List UInt8) : Except ReadError Int64 :=
  let (negative, text) := splitSign (text.dropWhile isSpace)
  let digits := leading text
  if digits = [] then .error .invalidArgument
  else
    let number : Int := if negative then -(value digits : Int) else value digits
    if -2 ^ 63 ≤ number ∧ number < 2 ^ 63 then .ok (Int64.ofInt number)
    else .error .outOfRange

/-- A complete signed decimal and its number. -/
inductive Signed : List UInt8 → Int → Prop
  | positive (digits : List UInt8) (some : digits ≠ []) (all : Digits digits) :
      Signed digits (value digits)
  | negative (digits : List UInt8) (some : digits ≠ []) (all : Digits digits) :
      Signed ('-'.toUInt8 :: digits) (-(value digits : Int))

theorem signed_renderInt (number : Int) : Signed (renderInt number) number := by
  cases number with
  | ofNat number =>
      have written := Signed.positive _ (render_ne_nil number) (render_digits number)
      rw [value_render] at written
      exact written
  | negSucc number =>
      have written := Signed.negative _ (render_ne_nil (number + 1)) (render_digits _)
      rw [value_render] at written
      exact written

theorem fromChars_digits (limit : Nat) (text : List UInt8) (some : text ≠ []) (all : Digits text)
    (small : value text < limit) : fromChars limit text = .some (value text) := by
  have inside : ¬ limit ≤ value text := by omega
  simp only [fromChars, leading_eq text all, some, inside, or_self, ↓reduceIte]

/-- A number is read back exactly when the type has it. -/
theorem fromChars_render (limit number : Nat) :
    fromChars limit (render number) = if number < limit then some number else none := by
  have all := render_digits number
  have nonempty := render_ne_nil number
  simp only [fromChars, leading_eq _ all, nonempty, value_render, false_or]
  by_cases inside : number < limit
  · rw [if_neg (by omega), if_pos inside]
  · rw [if_pos (by omega), if_neg inside]

/-- A digit is neither white space nor a sign. -/
theorem digit_apart (unit : UInt8) (digits : isDigit unit = true) :
    isSpace unit = false ∧ unit ≠ '-'.toUInt8 ∧ unit ≠ '+'.toUInt8 := by
  have bounds := (isDigit_iff unit).mp digits
  refine ⟨?_, ?_, ?_⟩
  · rw [← Bool.not_eq_true, isSpace, Bool.or_eq_true, Bool.and_eq_true, Nat.beq_eq, Nat.ble_eq,
      Nat.ble_eq]
    omega
  · rintro rfl
    exact absurd bounds.1 (by decide)
  · rintro rfl
    exact absurd bounds.1 (by decide)

theorem splitSign_digits (digits : List UInt8) (some : digits ≠ []) (all : Digits digits) :
    splitSign (digits.dropWhile isSpace) = (false, digits) := by
  cases digits with
  | nil => exact absurd rfl some
  | cons unit rest =>
      obtain ⟨solid, minus, plus⟩ := digit_apart unit (all unit (List.mem_cons_self ..))
      simp [splitSign, solid, minus, plus]

theorem splitSign_minus (digits : List UInt8) :
    splitSign (('-'.toUInt8 :: digits).dropWhile isSpace) = (true, digits) := by
  have solid : isSpace '-'.toUInt8 = false := by decide
  simp [splitSign, solid]

/-- `stoll` reads the whole of a complete decimal. -/
theorem stoll_signed (text : List UInt8) (number : Int) (complete : Signed text number)
    (low : -2 ^ 63 ≤ number) (high : number < 2 ^ 63) :
    stoll text = .ok (Int64.ofInt number) := by
  cases complete with
  | positive digits some all =>
      simp only [stoll, splitSign_digits text some all, leading_eq text all, some, ↓reduceIte,
        low, high, and_self, Bool.false_eq_true]
  | negative digits some all =>
      simp only [stoll, splitSign_minus digits, leading_eq digits all, some, ↓reduceIte,
        low, high, and_self]

end Decimal
