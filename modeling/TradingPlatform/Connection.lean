import TradingPlatform.JournalLog
import TradingPlatform.ReplayLog

set_option autoImplicit false

/- What the distributed nodes share: the surroundings of one step, and one
direction of a TCP connection as a channel of whole envelopes. -/
namespace TradingPlatform

/-- What the surroundings contribute to one step of a node. A step uses what it
asks for. -/
structure NodeInput where
  /-- What `recv_envelope` returns. -/
  received : Option Envelope := none
  /-- What `send_envelope` returns. -/
  sends : Bool := true
  journal : JournalIo := {}
  replay : ReplayIo := {}
  /-- Whether the exchange behind the gateway takes an order. -/
  accepted : Bool := true
  now : TimestampNs := 0
  laterNow : TimestampNs := 0
  deriving DecidableEq, Repr

structure Connection where
  inflight : List Envelope := []
  /-- A send has failed; nothing sent later gets through. -/
  broken : Bool := false
  deriving DecidableEq, Repr

namespace Connection

/-- The first envelope on its way, or nothing once the peer is lost; a receiver
of an idle connection waits. -/
def recv (connection : Connection) (connected : Bool) : Option (Connection × Option Envelope) :=
  if !connected then some (connection, none)
  else
    match connection.inflight with
    | [] => none
    | envelope :: rest => some ({ connection with inflight := rest }, some envelope)

/-- Whether a send gets through. -/
def delivers (connection : Connection) (input : NodeInput) : Bool :=
  input.sends && !connection.broken

theorem delivers_intact (connection : Connection) (input : NodeInput)
    (delivered : connection.delivers input = true) : connection.broken = false := by
  simp only [delivers, Bool.and_eq_true, Bool.not_eq_eq_eq_not, Bool.not_true] at delivered
  exact delivered.2

/-- The connection behind the sends of one step. -/
def send (connection : Connection) (delivered : Bool) (sent : List Envelope) : Connection :=
  if sent = [] then connection
  else if delivered then { connection with inflight := connection.inflight ++ sent }
  else { connection with broken := true }

@[simp] theorem send_nil (connection : Connection) (delivered : Bool) :
    connection.send delivered [] = connection := rfl

theorem recv_mem (connection : Connection) (connected : Bool) (next : Connection)
    (received : Option Envelope) (taken : connection.recv connected = some (next, received)) :
    (∀ envelope ∈ received, envelope ∈ connection.inflight) ∧
      ∀ envelope ∈ next.inflight, envelope ∈ connection.inflight := by
  unfold recv at taken
  cases connected with
  | false =>
      cases taken
      exact ⟨by simp, fun _ member => member⟩
  | true =>
      cases waiting : connection.inflight with
      | nil => simp [waiting] at taken
      | cons envelope rest =>
          simp only [waiting, Bool.not_true, Bool.false_eq_true, ↓reduceIte, Option.some.injEq,
            Prod.mk.injEq] at taken
          obtain ⟨rfl, rfl⟩ := taken
          exact ⟨by simp, fun _ member => List.mem_cons_of_mem _ member⟩

theorem send_mem (connection : Connection) (delivered : Bool) (sent : List Envelope)
    (envelope : Envelope) (member : envelope ∈ (connection.send delivered sent).inflight) :
    envelope ∈ connection.inflight ∨ envelope ∈ sent := by
  unfold send at member
  split at member
  · exact Or.inl member
  · split at member
    · exact List.mem_append.mp member
    · exact Or.inl member

/-! ### What a connection carries -/

section Carries

variable {α : Type} (pick : Envelope → Option α)

/-- The sender has recorded some items, the last ones perhaps not sent yet; the
receiver has consumed a beginning of them, and the connection holds what comes
next. -/
structure Carries (recorded unsent consumed : List α) (connection : Connection) : Prop where
  delivered : consumed ++ connection.inflight.filterMap pick <+: recorded
  complete : connection.broken = false →
    consumed ++ connection.inflight.filterMap pick ++ unsent = recorded

namespace Carries

variable {pick} {recorded unsent consumed : List α} {connection : Connection}

theorem start : Carries pick [] [] [] {} :=
  ⟨List.prefix_refl _, fun _ => rfl⟩

theorem prefix_consumed (carries : Carries pick recorded unsent consumed connection) :
    consumed <+: recorded :=
  (List.prefix_append _ _).trans carries.delivered

/-- The receiver takes the first envelope, or finds its peer gone. -/
theorem recv (carries : Carries pick recorded unsent consumed connection) (connected : Bool)
    (next : Connection) (received : Option Envelope)
    (taken : connection.recv connected = some (next, received)) :
    Carries pick recorded unsent (consumed ++ (received.bind pick).toList) next := by
  unfold Connection.recv at taken
  cases connected with
  | false =>
      cases taken
      simpa using carries
  | true =>
      cases waiting : connection.inflight with
      | nil => simp [waiting] at taken
      | cons envelope rest =>
          simp only [waiting, Bool.not_true, Bool.false_eq_true, ↓reduceIte, Option.some.injEq,
            Prod.mk.injEq] at taken
          obtain ⟨rfl, rfl⟩ := taken
          have shifted : consumed ++ ((some envelope).bind pick).toList ++ rest.filterMap pick =
              consumed ++ connection.inflight.filterMap pick := by
            cases picked : pick envelope <;> simp [waiting, picked]
          refine ⟨?_, ?_⟩
          · rw [shifted]
            exact carries.delivered
          · rw [shifted]
            exact carries.complete

/-- The sender records an item it is going to send. -/
theorem record (carries : Carries pick recorded [] consumed connection) (item : α) :
    Carries pick (recorded ++ [item]) [item] consumed connection where
  delivered := carries.delivered.trans (List.prefix_append _ _)
  complete := by
    intro whole
    rw [← carries.complete whole, List.append_nil]

/-- The sender sends it, or fails to for good. -/
theorem send {item : α} (carries : Carries pick recorded [item] consumed connection)
    (delivered : Bool) (whole : delivered = true → connection.broken = false)
    (envelope : Envelope) (picked : pick envelope = some item) :
    Carries pick recorded [] consumed (connection.send delivered [envelope]) := by
  unfold Connection.send
  rw [if_neg (List.cons_ne_nil _ _)]
  cases delivered with
  | false =>
      refine ⟨carries.delivered, ?_⟩
      intro intact
      cases intact
  | true =>
      have all := carries.complete (whole rfl)
      rw [List.append_assoc] at all
      refine ⟨?_, ?_⟩
      · simp [picked, all]
      · intro _
        simp [picked, all]

end Carries
end Carries

end Connection
end TradingPlatform
