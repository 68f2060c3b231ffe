import Mathlib.Algebra.Group.Nat.Defs
import Mathlib.Data.List.Basic
import Mathlib.Logic.Equiv.Defs

set_option autoImplicit false

/- Fixed-width little-endian images of machine words and of packed records of
them. A codec is a bijection between its values and the byte strings of its
width, so a packed record can be read from any bytes of the right length. -/
namespace ByteCodec

/-- The low `width` bytes of a number, least significant first. -/
def leBytes : Nat → Nat → List UInt8
  | 0, _ => []
  | width + 1, value => UInt8.ofNat value :: leBytes width (value / 256)

/-- The number that little-endian bytes spell. -/
def leValue : List UInt8 → Nat
  | [] => 0
  | byte :: rest => byte.toNat + 256 * leValue rest

@[simp] theorem leBytes_length (width value : Nat) : (leBytes width value).length = width := by
  induction width generalizing value with
  | zero => rfl
  | succ width ih => simp only [leBytes, List.length_cons, ih]

theorem leValue_lt (bytes : List UInt8) : leValue bytes < 256 ^ bytes.length := by
  induction bytes with
  | nil => simp [leValue]
  | cons byte rest ih =>
      have low := byte.toNat_lt
      rw [leValue, List.length_cons, Nat.pow_succ]
      omega

theorem leValue_leBytes (width value : Nat) :
    leValue (leBytes width value) = value % 256 ^ width := by
  induction width generalizing value with
  | zero => simp [leBytes, leValue, Nat.mod_one]
  | succ width ih =>
      have low : (UInt8.ofNat value).toNat = value % 256 := by simp
      rw [leBytes, leValue, ih, low, Nat.pow_succ, Nat.mul_comm (256 ^ width) 256, Nat.mod_mul]

theorem leBytes_leValue (bytes : List UInt8) :
    leBytes bytes.length (leValue bytes) = bytes := by
  induction bytes with
  | nil => rfl
  | cons byte rest ih =>
      have low := byte.toNat_lt
      have head : UInt8.ofNat (byte.toNat + 256 * leValue rest) = byte := by
        apply UInt8.toNat_inj.mp
        simp only [UInt8.toNat_ofNat']
        omega
      have tail : (byte.toNat + 256 * leValue rest) / 256 = leValue rest := by omega
      rw [List.length_cons, leValue, leBytes, head, tail, ih]

/-- Values in bijection with the byte strings of one width. -/
structure Codec (α : Type) where
  width : Nat
  encode : α → List UInt8
  decode : List UInt8 → α
  encode_length : ∀ value, (encode value).length = width
  decode_encode : ∀ value, decode (encode value) = value
  encode_decode : ∀ bytes, bytes.length = width → encode (decode bytes) = bytes

namespace Codec

variable {α β : Type}

/-- A little-endian word, from the two maps between the word and the numbers. -/
def word (width : Nat) (toNat : α → Nat) (ofNat : Nat → α)
    (bound : ∀ value, toNat value < 256 ^ width) (ofNat_toNat : ∀ value, ofNat (toNat value) = value)
    (toNat_ofNat : ∀ number, number < 256 ^ width → toNat (ofNat number) = number) : Codec α where
  width := width
  encode := fun value => leBytes width (toNat value)
  decode := fun bytes => ofNat (leValue bytes)
  encode_length := fun value => leBytes_length width (toNat value)
  decode_encode := by
    intro value
    rw [leValue_leBytes, Nat.mod_eq_of_lt (bound value), ofNat_toNat]
  encode_decode := by
    rintro bytes rfl
    rw [toNat_ofNat _ (leValue_lt bytes), leBytes_leValue]

def u8 : Codec UInt8 :=
  word 1 UInt8.toNat UInt8.ofNat (fun value => value.toNat_lt) (fun _ => UInt8.ofNat_toNat)
    (fun _ small => UInt8.toNat_ofNat_of_lt' small)

def u16 : Codec UInt16 :=
  word 2 UInt16.toNat UInt16.ofNat (fun value => value.toNat_lt) (fun _ => UInt16.ofNat_toNat)
    (fun _ small => UInt16.toNat_ofNat_of_lt' small)

def u32 : Codec UInt32 :=
  word 4 UInt32.toNat UInt32.ofNat (fun value => value.toNat_lt) (fun _ => UInt32.ofNat_toNat)
    (fun _ small => UInt32.toNat_ofNat_of_lt' small)

def u64 : Codec UInt64 :=
  word 8 UInt64.toNat UInt64.ofNat (fun value => value.toNat_lt) (fun _ => UInt64.ofNat_toNat)
    (fun _ small => UInt64.toNat_ofNat_of_lt' small)

/-- Two fields with nothing in between. -/
def pair (first : Codec α) (second : Codec β) : Codec (α × β) where
  width := first.width + second.width
  encode := fun value => first.encode value.1 ++ second.encode value.2
  decode := fun bytes =>
    (first.decode (bytes.take first.width), second.decode (bytes.drop first.width))
  encode_length := by
    intro value
    rw [List.length_append, first.encode_length, second.encode_length]
  decode_encode := by
    intro value
    rw [List.take_left' (first.encode_length value.1),
      List.drop_left' (first.encode_length value.1), first.decode_encode, second.decode_encode]
  encode_decode := by
    intro bytes sized
    rw [first.encode_decode _ (by rw [List.length_take]; omega),
      second.encode_decode _ (by rw [List.length_drop]; omega), List.take_append_drop]

@[simp] theorem u8_width : u8.width = 1 := rfl
@[simp] theorem u16_width : u16.width = 2 := rfl
@[simp] theorem u32_width : u32.width = 4 := rfl
@[simp] theorem u64_width : u64.width = 8 := rfl

/-- The same bytes, read as another type. -/
def transport (codec : Codec α) (same : α ≃ β) : Codec β where
  width := codec.width
  encode := fun value => codec.encode (same.symm value)
  decode := fun bytes => same (codec.decode bytes)
  encode_length := fun value => codec.encode_length _
  decode_encode := by
    intro value
    rw [codec.decode_encode, Equiv.apply_symm_apply]
  encode_decode := by
    intro bytes sized
    rw [Equiv.symm_apply_apply, codec.encode_decode bytes sized]

theorem encode_injective (codec : Codec α) {first second : α}
    (same : codec.encode first = codec.encode second) : first = second := by
  rw [← codec.decode_encode first, same, codec.decode_encode]

/-! ### One byte replaced -/

/-- The value read back when one byte of its encoding has been replaced. -/
def alter (codec : Codec α) (value : α) (position : Nat) (byte : UInt8) : α :=
  codec.decode ((codec.encode value).set position byte)

@[simp] theorem encode_alter (codec : Codec α) (value : α) (position : Nat) (byte : UInt8) :
    codec.encode (codec.alter value position byte) =
      (codec.encode value).set position byte :=
  codec.encode_decode _ (by rw [List.length_set, codec.encode_length])

theorem alter_ne (codec : Codec α) (value : α) (position : Nat) (byte : UInt8)
    (changed : (codec.encode value).set position byte ≠ codec.encode value) :
    codec.alter value position byte ≠ value := by
  intro same
  rw [← encode_alter, same] at changed
  exact changed rfl

theorem pair_alter_left (first : Codec α) (second : Codec β) (value : α × β) (position : Nat)
    (byte : UInt8) (inside : position < first.width) :
    (pair first second).alter value position byte =
      (first.alter value.1 position byte, value.2) := by
  have width := first.encode_length value.1
  have altered : ((pair first second).encode value).set position byte =
      (first.encode value.1).set position byte ++ second.encode value.2 :=
    List.set_append_left _ _ (by omega)
  have kept : ((first.encode value.1).set position byte).length = first.width := by
    rw [List.length_set, width]
  rw [alter, altered]
  change (first.decode (List.take _ _), second.decode (List.drop _ _)) = _
  rw [List.take_left' kept, List.drop_left' kept, second.decode_encode]
  rfl

theorem pair_alter_right (first : Codec α) (second : Codec β) (value : α × β) (position : Nat)
    (byte : UInt8) (behind : first.width ≤ position) :
    (pair first second).alter value position byte =
      (value.1, second.alter value.2 (position - first.width) byte) := by
  have width := first.encode_length value.1
  have altered : ((pair first second).encode value).set position byte =
      first.encode value.1 ++ (second.encode value.2).set (position - first.width) byte := by
    rw [← width]
    exact List.set_append_right _ _ (by omega)
  rw [alter, altered]
  change (first.decode (List.take _ _), second.decode (List.drop _ _)) = _
  rw [List.take_left' width, List.drop_left' width, first.decode_encode]
  rfl

theorem transport_alter (codec : Codec α) (same : α ≃ β) (value : β) (position : Nat)
    (byte : UInt8) :
    (codec.transport same).alter value position byte =
      same (codec.alter (same.symm value) position byte) := rfl

theorem u8_alter (value byte : UInt8) : u8.alter value 0 byte = byte := by
  have encoded : u8.encode byte = [byte] := by
    change [UInt8.ofNat byte.toNat] = [byte]
    rw [UInt8.ofNat_toNat]
  change u8.decode [byte] = byte
  rw [← encoded, u8.decode_encode]

end Codec
end ByteCodec
