import TradingPlatform.Library.ByteCodec
import TradingPlatform.Library.StructLayout

set_option autoImplicit false

/- Object representations of records. Unlike a codec, an image may leave bytes
unused, cut a value down to its width, and be read from bytes that stand for no
value at all. -/
namespace ByteCodec

open StructLayout (Place)

/-- Values written to bytes of one width. The bytes at the places hold the value:
whatever the others are, it is read exactly from the bytes that agree with the
written ones there, provided that it fits. -/
structure Image (α : Type) where
  width : Nat
  write : α → List UInt8
  read : List UInt8 → Option α
  Fits : α → Prop
  places : List Place
  write_length : ∀ value, (write value).length = width
  places_within : ∀ place ∈ places, place.offset + place.size ≤ width
  read_iff : ∀ bytes value, bytes.length = width →
    (read bytes = some value ↔
      Fits value ∧ ∀ place ∈ places, place.cut bytes = place.cut (write value))

namespace Image

variable {α β : Type}

/-- The bytes that hold a value, place by place. -/
def parts (image : Image α) (bytes : List UInt8) : List (List UInt8) :=
  image.places.map fun place => place.cut bytes

theorem read_parts (image : Image α) (bytes : List UInt8) (value : α)
    (sized : bytes.length = image.width) :
    image.read bytes = some value ↔
      image.Fits value ∧ image.parts bytes = image.parts (image.write value) := by
  rw [image.read_iff bytes value sized, parts, parts, List.map_inj_left]

/-- The bytes that hold a value where it has been written. -/
def shown (image : Image α) (value : α) : List (List UInt8) := image.parts (image.write value)

/-- An image that uses all its bytes. -/
def whole (width : Nat) (write : α → List UInt8) (read : List UInt8 → Option α) (Fits : α → Prop)
    (write_length : ∀ value, (write value).length = width)
    (read_whole : ∀ bytes value, bytes.length = width →
      (read bytes = some value ↔ Fits value ∧ bytes = write value)) : Image α where
  width := width
  write := write
  read := read
  Fits := Fits
  places := [⟨0, width⟩]
  write_length := write_length
  places_within := by
    intro place member
    rw [List.mem_singleton.mp member]
    exact Nat.le_of_eq (Nat.zero_add width)
  read_iff := by
    intro bytes value sized
    rw [List.forall_mem_singleton, Place.cut_whole bytes width sized,
      Place.cut_whole _ width (write_length value)]
    exact read_whole bytes value sized

/-- A codec uses all its bytes and all of them stand for something. -/
def ofCodec (codec : Codec α) : Image α :=
  whole codec.width codec.encode (fun bytes => some (codec.decode bytes)) (fun _ => True)
    codec.encode_length (by
      intro bytes value sized
      rw [Option.some.injEq, true_and]
      constructor
      · rintro rfl
        exact (codec.encode_decode bytes sized).symm
      · rintro rfl
        exact codec.decode_encode value)

/-- A counter in a word of some width. -/
def counter (width : Nat) : Image Nat :=
  whole width (leBytes width) (fun bytes => some (leValue bytes)) (fun value => value < 256 ^ width)
    (leBytes_length width) (by
      rintro bytes value rfl
      rw [Option.some.injEq]
      constructor
      · rintro rfl
        exact ⟨leValue_lt bytes, (leBytes_leValue bytes).symm⟩
      · rintro ⟨fits, written⟩
        rw [written, leValue_leBytes]
        exact Nat.mod_eq_of_lt fits)

/-- Bytes that hold nothing. One choice is written, any are read. -/
def padding (count : Nat) : Image Unit where
  width := count
  write := fun _ => List.replicate count 0
  read := fun _ => some ()
  Fits := fun _ => True
  places := []
  write_length := fun _ => List.length_replicate
  places_within := fun _ member => absurd member List.not_mem_nil
  read_iff := fun _ _ _ =>
    iff_of_true rfl ⟨trivial, fun _ member => absurd member List.not_mem_nil⟩

/-- An array of bytes. -/
def array (count : Nat) : Image (Vector UInt8 count) :=
  whole count Vector.toList
    (fun bytes => if sized : bytes.toArray.size = count then some ⟨bytes.toArray, sized⟩ else none)
    (fun _ => True) (fun value => value.length_toList) (by
      rintro bytes ⟨value, rfl⟩ sized
      have fits : bytes.toArray.size = value.size := sized
      rw [dif_pos fits, Option.some.injEq, Vector.mk.injEq, true_and]
      constructor
      · rintro rfl
        rfl
      · rintro rfl
        rfl)

/-- An enumeration in one byte, by all its values and their codes. -/
def enumeration [DecidableEq α] (values : List α) (all : ∀ value, value ∈ values)
    (code : α → UInt8)
    (apart : ∀ first ∈ values, ∀ second ∈ values, code first = code second → first = second) :
    Image α :=
  whole 1 (fun value => [code value]) (fun bytes => values.find? fun value => [code value] = bytes)
    (fun _ => True) (fun _ => rfl) (by
      intro bytes value _
      rw [true_and]
      constructor
      · intro found
        have same := List.find?_some found
        exact (of_decide_eq_true same).symm
      · rintro rfl
        cases found : values.find? fun other => [code other] = [code value] with
        | none =>
            have missed := List.find?_eq_none.mp found value (all value)
            simp at missed
        | some other =>
            have same := List.find?_some found
            simp only [List.cons.injEq, and_true, decide_eq_true_eq] at same
            rw [apart other (all other) value (all value) same])

/-- Two members, one behind the other. -/
def pair (first : Image α) (second : Image β) : Image (α × β) where
  width := first.width + second.width
  write := fun value => first.write value.1 ++ second.write value.2
  read := fun bytes =>
    (first.read (bytes.take first.width)).bind fun value =>
      (second.read (bytes.drop first.width)).map (Prod.mk value)
  Fits := fun value => first.Fits value.1 ∧ second.Fits value.2
  places := first.places ++ second.places.map fun place => place.shift first.width
  write_length := by
    intro value
    rw [List.length_append, first.write_length, second.write_length]
  places_within := by
    rw [List.forall_mem_append, List.forall_mem_map]
    constructor
    · intro place member
      have inside := first.places_within place member
      omega
    · intro place member
      have inside := second.places_within place member
      simp only [Place.shift]
      omega
  read_iff := by
    rintro bytes ⟨left, right⟩ sized
    have front : (bytes.take first.width).length = first.width := by
      rw [List.length_take]
      omega
    have back : (bytes.drop first.width).length = second.width := by
      rw [List.length_drop]
      omega
    have both : ((first.read (bytes.take first.width)).bind fun value =>
        (second.read (bytes.drop first.width)).map (Prod.mk value)) = some (left, right) ↔
        first.read (bytes.take first.width) = some left ∧
          second.read (bytes.drop first.width) = some right := by
      rw [Option.bind_eq_some_iff]
      constructor
      · rintro ⟨value, read, rest⟩
        obtain ⟨other, also, same⟩ := Option.map_eq_some_iff.mp rest
        obtain ⟨rfl, rfl⟩ := Prod.mk.inj same
        exact ⟨read, also⟩
      · rintro ⟨read, also⟩
        exact ⟨left, read, Option.map_eq_some_iff.mpr ⟨right, also, rfl⟩⟩
    have leftCut : ∀ place ∈ first.places, ∀ whole : List UInt8,
        place.cut (whole.take first.width) = place.cut whole :=
      fun place member whole => place.cut_take whole _ (first.places_within place member)
    have written := first.write_length left
    rw [both, first.read_iff _ _ front, second.read_iff _ _ back, List.forall_mem_append,
      List.forall_mem_map]
    have leftSame : (∀ place ∈ first.places,
          place.cut (bytes.take first.width) = place.cut (first.write left)) ↔
        ∀ place ∈ first.places, place.cut bytes =
          place.cut (first.write left ++ second.write right) := by
      apply forall₂_congr
      intro place member
      rw [leftCut place member, ← leftCut place member (first.write left ++ second.write right),
        List.take_left' written]
    have rightSame : (∀ place ∈ second.places,
          place.cut (bytes.drop first.width) = place.cut (second.write right)) ↔
        ∀ place ∈ second.places, (place.shift first.width).cut bytes =
          (place.shift first.width).cut (first.write left ++ second.write right) := by
      apply forall₂_congr
      intro place _
      rw [← place.cut_drop bytes, ← place.cut_drop (first.write left ++ second.write right),
        List.drop_left' written]
    rw [leftSame, rightSame]
    exact and_and_and_comm

/-- The same bytes under another type: a record for the tuple of its members. -/
def transport (image : Image α) (same : α ≃ β) : Image β where
  width := image.width
  write := fun value => image.write (same.symm value)
  read := fun bytes => (image.read bytes).map same
  Fits := fun value => image.Fits (same.symm value)
  places := image.places
  write_length := fun value => image.write_length _
  places_within := image.places_within
  read_iff := by
    intro bytes value sized
    rw [← image.read_iff bytes _ sized, Option.map_eq_some_iff]
    constructor
    · rintro ⟨member, read, rfl⟩
      rw [Equiv.symm_apply_apply]
      exact read
    · exact fun read => ⟨_, read, same.apply_symm_apply value⟩

/-! ### What is shown -/

theorem shown_whole (width : Nat) (write : α → List UInt8) (read : List UInt8 → Option α)
    (Fits : α → Prop) (write_length : ∀ value, (write value).length = width)
    (read_whole : ∀ bytes value, bytes.length = width →
      (read bytes = some value ↔ Fits value ∧ bytes = write value)) (value : α) :
    (whole width write read Fits write_length read_whole).shown value = [write value] :=
  congrArg (· :: []) (Place.cut_whole _ width (write_length value))

@[simp] theorem shown_ofCodec (codec : Codec α) (value : α) :
    (ofCodec codec).shown value = [codec.encode value] := shown_whole _ _ _ _ _ _ value

@[simp] theorem shown_counter (width value : Nat) :
    (counter width).shown value = [leBytes width value] := shown_whole _ _ _ _ _ _ value

@[simp] theorem shown_padding (count : Nat) (value : Unit) : (padding count).shown value = [] := rfl

@[simp] theorem shown_array (count : Nat) (value : Vector UInt8 count) :
    (array count).shown value = [value.toList] := shown_whole _ _ _ _ _ _ value

@[simp] theorem shown_enumeration [DecidableEq α] (values : List α) (all : ∀ value, value ∈ values)
    (code : α → UInt8)
    (apart : ∀ first ∈ values, ∀ second ∈ values, code first = code second → first = second)
    (value : α) : (enumeration values all code apart).shown value = [[code value]] :=
  shown_whole _ _ _ _ _ _ value

/-- A pair shows what its members show. -/
@[simp] theorem shown_pair (first : Image α) (second : Image β) (value : α × β) :
    (first.pair second).shown value = first.shown value.1 ++ second.shown value.2 := by
  have written := first.write_length value.1
  unfold shown parts pair
  rw [List.map_append, List.map_map]
  congr 1
  · apply List.map_congr_left
    intro place member
    rw [← place.cut_take _ first.width (first.places_within place member),
      List.take_left' written]
  · apply List.map_congr_left
    intro place _
    rw [Function.comp_apply, ← place.cut_drop, List.drop_left' written]

@[simp] theorem shown_transport (image : Image α) (same : α ≃ β) (value : β) :
    (image.transport same).shown value = image.shown (same.symm value) := rfl

end Image
end ByteCodec
