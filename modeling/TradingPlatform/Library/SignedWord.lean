import Mathlib.Algebra.Group.Int.Defs
import Mathlib.Algebra.Group.Nat.Defs

set_option autoImplicit false

/- Signed 64-bit words beside exact integers: an operation whose exact result
fits a word computes it. -/
namespace SignedWord

def Fits (number : Int) : Prop := -2 ^ 63 ≤ number ∧ number < 2 ^ 63

instance (number : Int) : Decidable (Fits number) := inferInstanceAs (Decidable (_ ∧ _))

theorem fits_toInt (word : Int64) : Fits word.toInt :=
  ⟨word.le_toInt, word.toInt_lt⟩

theorem bmod_of_fits (number : Int) (fits : Fits number) : number.bmod (2 ^ 64) = number := by
  obtain ⟨low, high⟩ := fits
  exact Int.bmod_eq_of_le (by omega) (by omega)

theorem toInt_add (left right : Int64) (fits : Fits (left.toInt + right.toInt)) :
    (left + right).toInt = left.toInt + right.toInt := by
  rw [Int64.toInt_add, bmod_of_fits _ fits]

theorem toInt_mul (left right : Int64) (fits : Fits (left.toInt * right.toInt)) :
    (left * right).toInt = left.toInt * right.toInt := by
  rw [Int64.toInt_mul, bmod_of_fits _ fits]

theorem toInt_neg (word : Int64) (fits : Fits (-word.toInt)) : (-word).toInt = -word.toInt := by
  rw [Int64.toInt_neg, bmod_of_fits _ fits]

theorem toInt_abs (word : Int64) (fits : Fits word.toInt.natAbs) :
    word.abs.toInt = word.toInt.natAbs := by
  have least : word.toBitVec ≠ BitVec.intMin 64 := by
    intro same
    have low : word.toInt = -2 ^ 63 := by
      rw [← Int64.toInt_toBitVec, same]
      decide
    rw [low] at fits
    exact absurd fits (by decide)
  exact BitVec.toInt_abs_eq_natAbs_of_ne_intMin least

theorem toInt_ofNat (number : Nat) (small : number < 2 ^ 63) :
    (Int64.ofNat number).toInt = number :=
  Int64.toInt_ofNat_of_lt small

end SignedWord
