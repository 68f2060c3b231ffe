import TradingPlatform.Library.Decimal

set_option autoImplicit false

/- Formatted output. The width holds for one insertion; the other flags stay
until they are set again. -/
namespace OutputStream

open Decimal

structure Stream where
  text : List UInt8 := []
  hex : Bool := false
  uppercase : Bool := false
  width : Nat := 0
  fill : UInt8 := ' '.toUInt8
  deriving DecidableEq, Repr

/-- The digits in base sixteen. -/
def renderHex (uppercase : Bool) (number : Nat) : List UInt8 :=
  (Nat.toDigits 16 number).map fun character =>
    (if uppercase then character.toUpper else character).toUInt8

/-- Units at the right of a field. -/
def padded (width : Nat) (fill : UInt8) (units : List UInt8) : List UInt8 :=
  List.replicate (width - units.length) fill ++ units

namespace Stream

def put (stream : Stream) (units : List UInt8) : Stream :=
  { stream with
      text := stream.text ++ padded stream.width stream.fill units
      width := 0 }

/-- An integer of the given number of bits. In base sixteen a negative one shows
as the word it is stored as. -/
def putInt (stream : Stream) (bits : Nat) (number : Int) : Stream :=
  stream.put
    (if stream.hex then renderHex stream.uppercase (number % 2 ^ bits).toNat
    else renderInt number)

end Stream

theorem padded_zero (fill : UInt8) (units : List UInt8) : padded 0 fill units = units := by
  rw [padded, Nat.zero_sub, List.replicate_zero, List.nil_append]

/-! ### Padded numbers -/

/-- One digit in base sixteen. -/
def hexUnit (digit : Nat) : UInt8 := digit.digitChar.toUpper.toUInt8

/-- A byte takes two digits. -/
theorem padded_renderHex (unit : UInt8) :
    padded 2 '0'.toUInt8 (renderHex true unit.toNat) =
      [hexUnit (unit.toNat / 16), hexUnit (unit.toNat % 16)] := by
  have small := unit.toNat_lt
  by_cases low : unit.toNat < 16
  · have high : unit.toNat / 16 = 0 := by omega
    have rest : unit.toNat % 16 = unit.toNat := by omega
    rw [renderHex, Nat.toDigits_of_lt_base low, high, rest]
    exact rfl
  · have top : unit.toNat / 16 < 16 := by omega
    rw [renderHex, Nat.toDigits_of_base_le (by omega) (by omega), Nat.toDigits_of_lt_base top]
    exact rfl

theorem digits_padded (width : Nat) (digits : List UInt8) (all : Digits digits) :
    Digits (padded width '0'.toUInt8 digits) := by
  intro unit member
  rcases List.mem_append.mp member with zero | own
  · rw [List.eq_of_mem_replicate zero]
    decide
  · exact all unit own

/-- Zeros in front do not count. -/
theorem value_padded (width : Nat) (digits : List UInt8) :
    value (padded width '0'.toUInt8 digits) = value digits := by
  have zeros : value (List.replicate (width - digits.length) '0'.toUInt8) = 0 := by
    refine (value_eq_zero _ ?_).mpr fun unit member => List.eq_of_mem_replicate member
    intro unit member
    rw [List.eq_of_mem_replicate member]
    decide
  rw [padded, value_append, zeros, Nat.zero_mul, Nat.zero_add]

theorem length_padded (width : Nat) (fill : UInt8) (units : List UInt8)
    (short : units.length ≤ width) : (padded width fill units).length = width := by
  rw [padded, List.length_append, List.length_replicate]
  omega

end OutputStream
