import Mathlib.Data.List.Basic

set_option autoImplicit false

/- A buffered input stream with its state bits. A read that runs out of input
delivers what there is and raises both bits; a read from a stream that is not
good delivers nothing. -/

structure InputStream (β : Type) where
  rest : List β
  eof : Bool := false
  fail : Bool := false
  deriving DecidableEq, Repr

namespace InputStream

variable {β : Type}

def good (stream : InputStream β) : Bool := !stream.eof && !stream.fail

/-- Ask for `count` units: the units delivered, and the stream after. -/
def read (stream : InputStream β) (count : Nat) : List β × InputStream β :=
  if stream.good then
    if count ≤ stream.rest.length then
      (stream.rest.take count, { stream with rest := stream.rest.drop count })
    else (stream.rest, { rest := [], eof := true, fail := true })
  else ([], { stream with fail := true })

/-- Reading up to the last unit does not raise the end-of-file bit. -/
theorem read_whole (input : List β) (count : Nat) (enough : count ≤ input.length) :
    InputStream.read { rest := input } count = (input.take count, { rest := input.drop count }) := by
  simp only [read, good, Bool.not_false, Bool.and_self, enough, ↓reduceIte]

theorem read_short (input : List β) (count : Nat) (short : input.length < count) :
    InputStream.read { rest := input } count =
      (input, { rest := [], eof := true, fail := true }) := by
  simp only [read, good, Bool.not_false, Bool.and_self, ↓reduceIte, Nat.not_le.mpr short]

end InputStream
