import Mathlib.Data.List.Basic
import TradingPlatform.Library.Decimal
import TradingPlatform.Library.Delimited

set_option autoImplicit false

/- The media type `application/x-www-form-urlencoded`: what a receiver reads out
of a body, and what an encoding needs to be read back. -/
namespace UrlForm

abbrev percent : UInt8 := 37
abbrev ampersand : UInt8 := 38
abbrev plus : UInt8 := 43
abbrev equals : UInt8 := 61

/-! ### Reading -/

def hexValue (unit : UInt8) : Option Nat :=
  if Nat.ble 48 unit.toNat && Nat.ble unit.toNat 57 then some (unit.toNat - 48)
  else if Nat.ble 65 unit.toNat && Nat.ble unit.toNat 70 then some (unit.toNat - 55)
  else if Nat.ble 97 unit.toNat && Nat.ble unit.toNat 102 then some (unit.toNat - 87)
  else none

/-- The byte that two units behind a percent sign stand for. -/
def escaped (high low : UInt8) : Option UInt8 :=
  (hexValue high).bind fun high => (hexValue low).map fun low => UInt8.ofNat (high * 16 + low)

/-- A percent sign that no two digits follow stands for itself. -/
def percentDecode : List UInt8 → List UInt8
  | [] => []
  | [unit] => [unit]
  | [unit, next] => [unit, next]
  | unit :: high :: low :: rest =>
      if unit = percent then
        match escaped high low with
        | some byte => byte :: percentDecode rest
        | none => unit :: percentDecode (high :: low :: rest)
      else unit :: percentDecode (high :: low :: rest)

def decodeComponent (text : List UInt8) : List UInt8 :=
  percentDecode (text.map fun unit => if unit = plus then ' '.toUInt8 else unit)

/-- The names and values of a body, in order. -/
def parse (body : List UInt8) : List (List UInt8 × List UInt8) :=
  ((body.splitOn ampersand).filter fun part => part ≠ []).map fun part =>
    match Delimited.cut equals part with
    | some (name, value) => (decodeComponent name, decodeComponent value)
    | none => (decodeComponent part, [])

theorem percentDecode_cons (unit : UInt8) (rest : List UInt8) (other : unit ≠ percent) :
    percentDecode (unit :: rest) = unit :: percentDecode rest := by
  match rest with
  | [] => exact rfl
  | [_] => exact rfl
  | _ :: _ :: _ => rw [percentDecode, if_neg other]

theorem decodeComponent_cons (unit : UInt8) (rest : List UInt8) (notPercent : unit ≠ percent)
    (notPlus : unit ≠ plus) :
    decodeComponent (unit :: rest) = unit :: decodeComponent rest := by
  unfold decodeComponent
  rw [List.map_cons, if_neg notPlus, percentDecode_cons unit _ notPercent]

/-- An escape is read as its byte. -/
theorem decodeComponent_escape (high low byte : UInt8) (rest : List UInt8)
    (stands : escaped high low = some byte) :
    decodeComponent (percent :: high :: low :: rest) = byte :: decodeComponent rest := by
  have highNotPlus : high ≠ plus := by
    rintro rfl
    cases stands
  have lowNotPlus : low ≠ plus := by
    rintro rfl
    obtain ⟨_, _, none⟩ := Option.bind_eq_some_iff.mp stands
    cases none
  have percentNotPlus : percent ≠ plus := by decide
  unfold decodeComponent
  rw [List.map_cons, List.map_cons, List.map_cons, if_neg percentNotPlus, if_neg highNotPlus,
    if_neg lowNotPlus, percentDecode, if_pos rfl, stands]

/-! ### Writing -/

/-- Units that stand for themselves and delimit nothing. -/
def Plain (text : List UInt8) : Prop :=
  ∀ unit ∈ text, unit ≠ percent ∧ unit ≠ ampersand ∧ unit ≠ plus ∧ unit ≠ equals

instance (text : List UInt8) : Decidable (Plain text) :=
  List.decidableBAll (fun unit => unit ≠ percent ∧ unit ≠ ampersand ∧ unit ≠ plus ∧ unit ≠ equals) text

theorem Plain.decode {text : List UInt8} (plain : Plain text) : decodeComponent text = text := by
  induction text with
  | nil => exact rfl
  | cons unit text ih =>
      obtain ⟨notPercent, -, notPlus, -⟩ := plain unit (List.mem_cons_self ..)
      rw [decodeComponent_cons unit text notPercent notPlus,
        ih fun other member => plain other (List.mem_cons_of_mem _ member)]

/-- An encoding of values that is read back and holds no delimiter. -/
structure Encoding where
  encode : List UInt8 → List UInt8
  decode_encode : ∀ text, decodeComponent (encode text) = text
  noAmpersand : ∀ text, ampersand ∉ encode text

/-- A field of a body. -/
def Encoding.field (encoding : Encoding) (field : List UInt8 × List UInt8) : List UInt8 :=
  field.1 ++ equals :: encoding.encode field.2

/-- A body with plain names is read as the fields that it was written from. -/
theorem parse_fields (encoding : Encoding) (fields : List (List UInt8 × List UInt8))
    (some : fields ≠ []) (plain : ∀ field ∈ fields, Plain field.1) :
    parse ([ampersand].intercalate (fields.map encoding.field)) = fields := by
  have whole : ∀ part ∈ fields.map encoding.field, ampersand ∉ part := by
    intro part member inside
    obtain ⟨field, among, rfl⟩ := List.mem_map.mp member
    rcases List.mem_append.mp inside with name | value
    · exact (plain field among _ name).2.1 rfl
    · rcases List.mem_cons.mp value with same | value
      · exact absurd same (by decide)
      · exact encoding.noAmpersand field.2 value
  have nonempty : ∀ part ∈ fields.map encoding.field, decide (part ≠ []) = true := by
    intro part member
    obtain ⟨field, -, rfl⟩ := List.mem_map.mp member
    simp [Encoding.field]
  have parts := List.splitOn_intercalate ampersand whole (by simpa using some)
  unfold parse
  rw [parts, List.filter_eq_self.mpr nonempty, List.map_map]
  refine (List.map_congr_left ?_).trans (List.map_id fields)
  intro field among
  have noEquals : equals ∉ field.1 := fun member => (plain field among _ member).2.2.2 rfl
  have split := Delimited.cut_append field.1 (encoding.encode field.2) noEquals
  simp only [Function.comp_apply, Encoding.field, split, (plain field among).decode,
    encoding.decode_encode]
  exact rfl

end UrlForm
