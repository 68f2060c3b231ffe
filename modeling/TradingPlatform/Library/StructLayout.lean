import Mathlib.Data.List.Basic

set_option autoImplicit false

/- Layout of aggregates under the usual rules: every member is placed at the next
multiple of its alignment, and the size is a multiple of the strictest one. -/
namespace StructLayout

structure Member where
  size : Nat
  align : Nat
  deriving DecidableEq, Repr

/-- A member of a scalar type is aligned to its own size. -/
def scalar (size : Nat) : Member := ⟨size, size⟩

/-- An array of bytes. -/
def bytes (count : Nat) : Member := ⟨count, 1⟩

def alignUp (offset align : Nat) : Nat := (offset + align - 1) / align * align

def structAlign (members : List Member) : Nat :=
  members.foldl (fun strictest member => max strictest member.align) 1

def structSize (members : List Member) : Nat :=
  alignUp (members.foldl (fun offset member => alignUp offset member.align + member.size) 0)
    (structAlign members)

/-- An aggregate as a member of another one. -/
def aggregate (members : List Member) : Member := ⟨structSize members, structAlign members⟩

/-- A union as a member: all its aggregates start at its offset. -/
def overlay (aggregates : List (List Member)) : Member :=
  let align := aggregates.foldl (fun strictest members => max strictest (structAlign members)) 1
  ⟨alignUp (aggregates.foldl (fun largest members => max largest (structSize members)) 0) align,
    align⟩

/-! ### Places -/

/-- A run of bytes in a larger one. -/
structure Place where
  offset : Nat
  size : Nat
  deriving DecidableEq, Repr

namespace Place

variable {α : Type}

/-- The bytes at a place. -/
def cut (place : Place) (bytes : List α) : List α := (bytes.drop place.offset).take place.size

/-- The place as seen from a start further ahead. -/
def shift (place : Place) (distance : Nat) : Place := { place with offset := distance + place.offset }

theorem cut_whole (bytes : List α) (size : Nat) (sized : bytes.length = size) :
    cut ⟨0, size⟩ bytes = bytes := by
  subst sized
  exact List.take_length

/-- What is cut from the front does not depend on the rest. -/
theorem cut_take (place : Place) (bytes : List α) (width : Nat)
    (within : place.offset + place.size ≤ width) :
    place.cut (bytes.take width) = place.cut bytes := by
  unfold cut
  rw [List.drop_take, List.take_take, Nat.min_eq_left (by omega)]

theorem cut_drop (place : Place) (bytes : List α) (width : Nat) :
    place.cut (bytes.drop width) = (place.shift width).cut bytes := by
  unfold cut shift
  rw [List.drop_drop]

end Place

/-- Where members stand that start behind an offset, in their order. -/
def placesFrom : Nat → List Member → List Place
  | _, [] => []
  | offset, member :: members =>
      ⟨alignUp offset member.align, member.size⟩ ::
        placesFrom (alignUp offset member.align + member.size) members

/-- Where the members of an aggregate stand, in the order of its declaration. -/
def places (members : List Member) : List Place := placesFrom 0 members

end StructLayout
