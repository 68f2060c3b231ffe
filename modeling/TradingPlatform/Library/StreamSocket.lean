import Mathlib.Data.List.Basic

set_option autoImplicit false

/- Transfers over a byte stream socket whose system calls move any part of what
they are asked for. The answer of each call is a parameter; the loops around
the calls move exactly the requested bytes, or fail. -/
namespace StreamSocket

variable {β : Type}

/-- The answers of the system: to the call with some number that asks to send
some length, and to the call that asks to receive some length when some length
is still to come. As usual, an answer that is not positive is a failure. -/
structure Kernel where
  send : Nat → Nat → Int
  recv : Nat → Nat → Nat → Int

/-- Every send moves something. -/
def Kernel.Sends (kernel : Kernel) : Prop :=
  ∀ call length, 0 < length → 0 < kernel.send call length

/-- A receive moves something until the stream ends, and nothing after. -/
def Kernel.Receives (kernel : Kernel) : Prop :=
  ∀ call length available, 0 < length → (0 < kernel.recv call length available ↔ 0 < available)

/-- One direction of a connection at one of its ends: the bytes handed over to
the other end or still to come from it, and the number of calls so far. -/
structure Pipe (β : Type) where
  bytes : List β := []
  calls : Nat := 0
  deriving DecidableEq, Repr

/-! ### Sending -/

def sendLoop (kernel : Kernel) : Nat → List β → Pipe β → Bool × Pipe β
  | 0, data, pipe => (data.isEmpty, pipe)
  | fuel + 1, data, pipe =>
      if data.isEmpty then (true, pipe)
      else
        let moved := kernel.send pipe.calls data.length
        if moved ≤ 0 then (false, { pipe with calls := pipe.calls + 1 })
        else sendLoop kernel fuel (data.drop moved.toNat)
          { bytes := pipe.bytes ++ data.take moved.toNat, calls := pipe.calls + 1 }

/-- Send until nothing is left. Each call moves at least one byte or ends the
loop, so as many calls as bytes are enough. -/
def sendExact (kernel : Kernel) (data : List β) (pipe : Pipe β) : Bool × Pipe β :=
  sendLoop kernel data.length data pipe

theorem sendLoop_sends (kernel : Kernel) (sends : kernel.Sends) (fuel : Nat) (data : List β)
    (pipe : Pipe β) (enough : data.length ≤ fuel) :
    ∃ calls, sendLoop kernel fuel data pipe =
      (true, { bytes := pipe.bytes ++ data, calls := calls }) := by
  induction fuel generalizing data pipe with
  | zero =>
      have empty : data = [] := List.length_eq_zero_iff.mp (by omega)
      exact ⟨pipe.calls, by simp [sendLoop, empty]⟩
  | succ fuel ih =>
      by_cases empty : data = []
      · exact ⟨pipe.calls, by simp [sendLoop, empty]⟩
      · have present := List.length_pos_iff.mpr empty
        obtain ⟨moved, answer⟩ : ∃ moved, kernel.send pipe.calls data.length = moved := ⟨_, rfl⟩
        have progress : 0 < moved := answer ▸ sends pipe.calls data.length present
        obtain ⟨calls, sent⟩ := ih (data.drop moved.toNat)
          { bytes := pipe.bytes ++ data.take moved.toNat, calls := pipe.calls + 1 }
          (by rw [List.length_drop]; omega)
        refine ⟨calls, ?_⟩
        rw [sendLoop, if_neg (by simpa using empty), answer, if_neg (by omega), sent,
          List.append_assoc, List.take_append_drop]

theorem sendExact_sends (kernel : Kernel) (sends : kernel.Sends) (data : List β)
    (pipe : Pipe β) :
    ∃ calls, sendExact kernel data pipe =
      (true, { bytes := pipe.bytes ++ data, calls := calls }) :=
  sendLoop_sends kernel sends data.length data pipe (Nat.le_refl _)

/-- Whatever the calls answer, a beginning of the data gets through, and all of
it exactly if the transfer succeeds. -/
theorem sendLoop_prefix (kernel : Kernel) (fuel : Nat) (data : List β) (pipe : Pipe β)
    (enough : data.length ≤ fuel) :
    ∃ moved, moved <+: data ∧ (sendLoop kernel fuel data pipe).2.bytes = pipe.bytes ++ moved ∧
      ((sendLoop kernel fuel data pipe).1 = true ↔ moved = data) := by
  induction fuel generalizing data pipe with
  | zero =>
      have empty : data = [] := List.length_eq_zero_iff.mp (by omega)
      exact ⟨[], List.nil_prefix, (List.append_nil _).symm, by simp [sendLoop, empty]⟩
  | succ fuel ih =>
      rw [sendLoop]
      by_cases empty : data = []
      · rw [if_pos (by simpa using empty)]
        exact ⟨[], List.nil_prefix, (List.append_nil _).symm, by simp [empty]⟩
      · rw [if_neg (by simpa using empty)]
        dsimp only
        split
        · refine ⟨[], List.nil_prefix, (List.append_nil _).symm, ?_⟩
          simpa using fun same : [] = data => empty same.symm
        · rename_i progress
          obtain ⟨moved, answer⟩ : ∃ moved, (kernel.send pipe.calls data.length).toNat = moved :=
            ⟨_, rfl⟩
          have present := List.length_pos_iff.mpr empty
          obtain ⟨more, front, bytes, whole⟩ := ih (data.drop moved)
            { bytes := pipe.bytes ++ data.take moved, calls := pipe.calls + 1 }
            (by rw [List.length_drop]; omega)
          rw [answer]
          refine ⟨data.take moved ++ more, ?_, ?_, ?_⟩
          · have joined := (List.prefix_append_right_inj (data.take moved)).mpr front
            rwa [List.take_append_drop] at joined
          · rw [bytes, List.append_assoc]
          · rw [whole, ← List.append_right_inj (data.take moved), List.take_append_drop]

theorem sendExact_prefix (kernel : Kernel) (data : List β) (pipe : Pipe β) :
    ∃ moved, moved <+: data ∧ (sendExact kernel data pipe).2.bytes = pipe.bytes ++ moved ∧
      ((sendExact kernel data pipe).1 = true ↔ moved = data) :=
  sendLoop_prefix kernel data.length data pipe (Nat.le_refl _)

/-! ### Receiving -/

def recvLoop (kernel : Kernel) : Nat → Nat → List β → Pipe β → Option (List β) × Pipe β
  | 0, missing, received, pipe => (if missing = 0 then some received else none, pipe)
  | fuel + 1, missing, received, pipe =>
      if missing = 0 then (some received, pipe)
      else
        let answer := kernel.recv pipe.calls missing pipe.bytes.length
        if answer ≤ 0 then (none, { pipe with calls := pipe.calls + 1 })
        else
          -- no call returns more than was asked for
          let moved := min answer.toNat missing
          recvLoop kernel fuel (missing - (pipe.bytes.take moved).length)
            (received ++ pipe.bytes.take moved)
            { bytes := pipe.bytes.drop moved, calls := pipe.calls + 1 }

/-- Receive until the buffer of the given length is full. -/
def recvExact (kernel : Kernel) (length : Nat) (pipe : Pipe β) : Option (List β) × Pipe β :=
  recvLoop kernel length length [] pipe

theorem recvLoop_whole (kernel : Kernel) (receives : kernel.Receives) (fuel missing : Nat)
    (received : List β) (pipe : Pipe β) (enough : missing ≤ fuel)
    (whole : missing ≤ pipe.bytes.length) :
    ∃ calls, recvLoop kernel fuel missing received pipe =
      (some (received ++ pipe.bytes.take missing),
        { bytes := pipe.bytes.drop missing, calls := calls }) := by
  induction fuel generalizing missing received pipe with
  | zero =>
      have none_missing : missing = 0 := by omega
      exact ⟨pipe.calls, by simp [recvLoop, none_missing]⟩
  | succ fuel ih =>
      by_cases full : missing = 0
      · exact ⟨pipe.calls, by simp [recvLoop, full]⟩
      · have moves := (receives pipe.calls missing pipe.bytes.length (by omega)).mpr (by omega)
        obtain ⟨moved, answer⟩ :
            ∃ moved, min (kernel.recv pipe.calls missing pipe.bytes.length).toNat missing = moved :=
          ⟨_, rfl⟩
        have bound : moved ≤ pipe.bytes.length := by omega
        have total : moved + (missing - moved) = missing := by omega
        rw [recvLoop, if_neg full, if_neg (by omega)]
        dsimp only
        rw [answer, List.length_take_of_le bound]
        obtain ⟨calls, result⟩ := ih (missing - moved) (received ++ pipe.bytes.take moved)
          { bytes := pipe.bytes.drop moved, calls := pipe.calls + 1 } (by omega)
          (by rw [List.length_drop]; omega)
        refine ⟨calls, ?_⟩
        rw [result, List.append_assoc, ← List.take_add, List.drop_drop, total]

/-- A stream that ends early is used up, and the transfer fails. -/
theorem recvLoop_short (kernel : Kernel) (receives : kernel.Receives) (fuel missing : Nat)
    (received : List β) (pipe : Pipe β) (short : pipe.bytes.length < missing)
    (enough : pipe.bytes.length < fuel) :
    ∃ calls, recvLoop kernel fuel missing received pipe = (none, { bytes := [], calls := calls }) := by
  induction fuel generalizing missing received pipe with
  | zero => omega
  | succ fuel ih =>
      rw [recvLoop, if_neg (by omega)]
      by_cases ended : pipe.bytes = []
      · have stops : ¬ 0 < kernel.recv pipe.calls missing pipe.bytes.length := by
          rw [receives _ _ _ (by omega), ended]
          simp
        rw [if_pos (by omega)]
        exact ⟨pipe.calls + 1, by rw [ended]⟩
      · have available := List.length_pos_iff.mpr ended
        have moves := (receives pipe.calls missing pipe.bytes.length (by omega)).mpr available
        rw [if_neg (by omega)]
        exact ih _ _ _ (by simp only [List.length_drop, List.length_take]; omega)
          (by simp only [List.length_drop]; omega)

theorem recvExact_whole (kernel : Kernel) (receives : kernel.Receives) (length : Nat)
    (pipe : Pipe β) (whole : length ≤ pipe.bytes.length) :
    ∃ calls, recvExact kernel length pipe =
      (some (pipe.bytes.take length), { bytes := pipe.bytes.drop length, calls := calls }) :=
  recvLoop_whole kernel receives length length [] pipe (Nat.le_refl _) whole

theorem recvExact_short (kernel : Kernel) (receives : kernel.Receives) (length : Nat)
    (pipe : Pipe β) (short : pipe.bytes.length < length) :
    ∃ calls, recvExact kernel length pipe = (none, { bytes := [], calls := calls }) :=
  recvLoop_short kernel receives length length [] pipe short short

/-- Whatever the calls answer, a full buffer holds what the stream began with. -/
theorem recvLoop_some (kernel : Kernel) (fuel missing : Nat) (received result : List β)
    (pipe left : Pipe β)
    (full : recvLoop kernel fuel missing received pipe = (some result, left)) :
    ∃ taken, result = received ++ taken ∧ pipe.bytes = taken ++ left.bytes ∧
      taken.length = missing := by
  induction fuel generalizing missing received pipe with
  | zero =>
      rw [recvLoop] at full
      split at full
      · rename_i done
        obtain ⟨same, rfl⟩ := Prod.mk.inj full
        rw [← Option.some.inj same]
        exact ⟨[], (List.append_nil _).symm, rfl, done.symm⟩
      · cases full
  | succ fuel ih =>
      rw [recvLoop] at full
      split at full
      · rename_i done
        obtain ⟨same, rfl⟩ := Prod.mk.inj full
        rw [← Option.some.inj same]
        exact ⟨[], (List.append_nil _).symm, rfl, done.symm⟩
      · obtain ⟨moved, answer⟩ :
            ∃ moved, min (kernel.recv pipe.calls missing pipe.bytes.length).toNat missing = moved :=
          ⟨_, rfl⟩
        dsimp only at full
        rw [answer] at full
        split at full
        · cases full
        · obtain ⟨taken, joined, split, length⟩ := ih _ _ _ full
          dsimp only at split
          refine ⟨pipe.bytes.take moved ++ taken, ?_, ?_, ?_⟩
          · rw [joined, List.append_assoc]
          · rw [List.append_assoc, ← split, List.take_append_drop]
          · rw [List.length_append, length, List.length_take]
            omega

theorem recvExact_some (kernel : Kernel) (length : Nat) (result : List β) (pipe left : Pipe β)
    (full : recvExact kernel length pipe = (some result, left)) :
    pipe.bytes = result ++ left.bytes ∧ result.length = length := by
  obtain ⟨taken, joined, split, count⟩ := recvLoop_some kernel length length [] result pipe left full
  rw [List.nil_append] at joined
  exact joined ▸ ⟨split, count⟩

end StreamSocket
