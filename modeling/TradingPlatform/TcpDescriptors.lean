import Mathlib.Order.Lattice.Nat
import Mathlib.Data.Finset.Lattice.Fold
import TradingPlatform.Library.Ownership

set_option autoImplicit false

/- The descriptors behind the objects of the transport: who keeps one, and who
closes it. -/
namespace TradingPlatform.TcpTransport

/-! ### The kernel's table -/

/-- The kernel numbers a new socket as it likes, with a number not in use. -/
structure Numbering where
  pick : Finset Nat → Nat
  unused : ∀ opened, pick opened ∉ opened

/-- Above all others. -/
def Numbering.above : Numbering where
  pick := fun opened => opened.sup id + 1
  unused := by
    intro opened isOpen
    have bound : opened.sup id + 1 ≤ opened.sup id := Finset.le_sup (f := id) isOpen
    omega

/-- The open descriptors, and those that calls have named although they were not open. -/
structure Descriptors where
  opened : Finset Nat := ∅
  misused : List Int := []

namespace Descriptors

/-- Any call on a descriptor but `close`. -/
def use (fd : Int) (table : Descriptors) : Descriptors :=
  if 0 ≤ fd ∧ fd.toNat ∈ table.opened then table
  else { table with misused := table.misused ++ [fd] }

def close (fd : Int) (table : Descriptors) : Descriptors :=
  if 0 ≤ fd ∧ fd.toNat ∈ table.opened then
    { table with opened := table.opened.erase fd.toNat }
  else { table with misused := table.misused ++ [fd] }

def add (number : Nat) (table : Descriptors) : Descriptors :=
  { table with opened := insert number table.opened }

/-- What `socket` and `accept` return. -/
def grant (answer : Option Numbering) (table : Descriptors) : Int × Descriptors :=
  match answer with
  | none => (-1, table)
  | some numbering => (numbering.pick table.opened, table.add (numbering.pick table.opened))

end Descriptors

/-! ### The members of the classes

An object is its descriptor, as in the source. -/

def closeFd (fd : Int) (table : Descriptors) : Int × Descriptors :=
  if 0 ≤ fd then (-1, table.close fd) else (fd, table)

/-- The object of a descriptor, which is its caller's to give. -/
def construct (fd : Int) : Int := fd

/-- The new object, and the other one. -/
def moveConstruct (other : Int) : Int × Int := (other, -1)

/-- The object, and the other one, which is another. -/
def moveAssign (fd other : Int) (table : Descriptors) : Int × Int × Descriptors :=
  let (_, table) := closeFd fd table
  (other, -1, table)

/-- `send_envelope` and `recv_envelope`, as far as they name the descriptor. -/
def transfer (fd : Int) (calls : Nat) (table : Descriptors) : Descriptors :=
  if fd < 0 then table else (Descriptors.use fd)^[calls] table

/-- Returned in an `optional`: moved out of a temporary, which is then destroyed. -/
def returned (fd : Int) (table : Descriptors) : Int × Descriptors :=
  let (result, temporary) := moveConstruct fd
  (result, (closeFd temporary table).2)

structure ListenAnswers where
  socket : Option Numbering
  bound : Bool
  listening : Bool

/-- The former descriptor is not looked at. -/
def listenOn (answers : ListenAnswers) (table : Descriptors) : Bool × Int × Descriptors :=
  let (listenFd, table) := table.grant answers.socket
  if listenFd < 0 then (false, listenFd, table)
  else
    let table := (table.use listenFd).use listenFd
    if !answers.bound then (false, closeFd listenFd table)
    else
      let table := table.use listenFd
      if !answers.listening then (false, closeFd listenFd table)
      else (true, listenFd, table)

def acceptOne (listenFd : Int) (answer : Option Numbering) (table : Descriptors) :
    Option Int × Descriptors :=
  if listenFd < 0 then (none, table)
  else
    let (fd, table) := (table.use listenFd).grant answer
    if fd < 0 then (none, table)
    else
      let (fd, table) := returned (construct fd) table
      (some fd, table)

/-- One address of `getaddrinfo`. -/
structure Candidate where
  socket : Option Numbering
  connected : Bool

def connectAny (table : Descriptors) : List Candidate → Int × Descriptors
  | [] => (-1, table)
  | candidate :: rest =>
      let (fd, table) := table.grant candidate.socket
      if fd < 0 then connectAny table rest
      else
        let table := table.use fd
        if candidate.connected then (fd, table) else connectAny (table.close fd) rest

def connectTo (results : Option (List Candidate)) (table : Descriptors) :
    Option Int × Descriptors :=
  match results with
  | none => (none, table)
  | some candidates =>
      let (fd, table) := connectAny table candidates
      if fd < 0 then (none, table)
      else
        let (fd, table) := returned (construct fd) (table.use fd)
        (some fd, table)

/-- The descriptor an object has, if any. -/
def descriptor (fd : Int) : Option Nat := if 0 ≤ fd then some fd.toNat else none

@[simp] theorem descriptor_natCast (number : Nat) : descriptor number = some number := by
  simp [descriptor]

@[simp] theorem descriptor_of_neg (fd : Int) (negative : fd < 0) : descriptor fd = none :=
  if_neg (by omega)

/-! ### What the calls leave -/

section Calls

variable (fd : Int) (table : Descriptors)

/-- A descriptor named in a call is open. -/
def Live : Prop := ∀ number, descriptor fd = some number → number ∈ table.opened

variable {fd table}

theorem use_live (live : Live fd table) (valid : 0 ≤ fd) : table.use fd = table := by
  apply if_pos
  exact ⟨valid, live fd.toNat (if_pos valid)⟩

theorem closeFd_eq (live : Live fd table) :
    closeFd fd table =
      (min fd (-1), { table with opened := Ownership.without table.opened (descriptor fd) }) := by
  unfold closeFd
  by_cases valid : 0 ≤ fd
  · have own : descriptor fd = some fd.toNat := if_pos valid
    rw [if_pos valid, Descriptors.close, if_pos ⟨valid, live _ own⟩, own, min_eq_right (by omega)]
    rfl
  · rw [if_neg valid, descriptor_of_neg fd (by omega), min_eq_left (by omega)]
    rfl

theorem descriptor_closeFd (fd : Int) (table : Descriptors) :
    descriptor (closeFd fd table).1 = none := by
  apply descriptor_of_neg
  unfold closeFd
  split <;> omega

theorem transfer_eq (live : Live fd table) (calls : Nat) : transfer fd calls table = table := by
  unfold transfer
  split
  · rfl
  · exact Function.iterate_fixed (use_live live (by omega)) calls

theorem returned_eq (fd : Int) (table : Descriptors) : returned fd table = (fd, table) := by
  simp [returned, moveConstruct, closeFd]

theorem grant_cases (answer : Option Numbering) (table : Descriptors) :
    table.grant answer = (-1, table) ∨
      ∃ number ∉ table.opened, table.grant answer = ((number : Int), table.add number) := by
  cases answer with
  | none => exact Or.inl rfl
  | some numbering => exact Or.inr ⟨_, numbering.unused table.opened, rfl⟩

theorem use_add (number : Nat) (table : Descriptors) :
    (table.add number).use (number : Int) = table.add number := by
  apply if_pos
  exact ⟨by omega, Finset.mem_insert_self number table.opened⟩

theorem close_add {number : Nat} (fresh : number ∉ table.opened) :
    (table.add number).close (number : Int) = table := by
  have isOpen : number ∈ (table.add number).opened := Finset.mem_insert_self number table.opened
  rw [Descriptors.close, if_pos ⟨by omega, isOpen⟩]
  show { table with opened := (insert number table.opened).erase number } = table
  rw [Finset.erase_insert fresh]

theorem closeFd_add {number : Nat} (fresh : number ∉ table.opened) :
    closeFd (number : Int) (table.add number) = (-1, table) := by
  rw [closeFd, if_pos (by omega), close_add fresh]

/-- What a member that creates sockets leaves: nothing, or one new open descriptor. -/
def Grants (table : Descriptors) (fd : Option Int) (after : Descriptors) : Prop :=
  (fd.bind descriptor = none ∧ after = table) ∨
    ∃ number ∉ table.opened, fd = some (number : Int) ∧ after = table.add number

theorem grant_grants (answer : Option Numbering) (table : Descriptors) :
    Grants table (some (construct (table.grant answer).1)) (table.grant answer).2 := by
  unfold construct
  rcases grant_cases answer table with refused | ⟨number, fresh, granted⟩
  · rw [refused]
    exact Or.inl ⟨rfl, rfl⟩
  · rw [granted]
    exact Or.inr ⟨number, fresh, rfl, rfl⟩

theorem listenOn_grants (answers : ListenAnswers) (table : Descriptors) :
    Grants table (some (listenOn answers table).2.1) (listenOn answers table).2.2 := by
  unfold listenOn
  rcases grant_cases answers.socket table with refused | ⟨number, fresh, granted⟩
  · rw [refused]
    exact Or.inl ⟨rfl, rfl⟩
  · have created : ¬ (number : Int) < 0 := by omega
    rw [granted]
    simp only [if_neg created, use_add, closeFd_add fresh]
    split
    · exact Or.inl ⟨rfl, rfl⟩
    · split
      · exact Or.inl ⟨rfl, rfl⟩
      · exact Or.inr ⟨number, fresh, rfl, rfl⟩

theorem acceptOne_grants {listenFd : Int} (live : Live listenFd table)
    (answer : Option Numbering) :
    Grants table (acceptOne listenFd answer table).1 (acceptOne listenFd answer table).2 := by
  unfold acceptOne
  by_cases closed : listenFd < 0
  · rw [if_pos closed]
    exact Or.inl ⟨rfl, rfl⟩
  · rw [if_neg closed, use_live live (by omega)]
    rcases grant_cases answer table with refused | ⟨number, fresh, granted⟩
    · rw [refused]
      exact Or.inl ⟨rfl, rfl⟩
    · have created : ¬ (number : Int) < 0 := by omega
      rw [granted]
      simp only [if_neg created, returned_eq, construct]
      exact Or.inr ⟨number, fresh, rfl, rfl⟩

theorem connectAny_cases (candidates : List Candidate) (table : Descriptors) :
    connectAny table candidates = (-1, table) ∨
      ∃ number ∉ table.opened, connectAny table candidates = ((number : Int), table.add number) := by
  induction candidates with
  | nil => exact Or.inl rfl
  | cons candidate rest ih =>
      rw [connectAny]
      rcases grant_cases candidate.socket table with refused | ⟨number, fresh, granted⟩
      · rw [refused]
        exact ih
      · have created : ¬ (number : Int) < 0 := by omega
        rw [granted]
        simp only [if_neg created, use_add, close_add fresh]
        split
        · exact Or.inr ⟨number, fresh, rfl⟩
        · exact ih

theorem connectTo_grants (results : Option (List Candidate)) (table : Descriptors) :
    Grants table (connectTo results table).1 (connectTo results table).2 := by
  cases results with
  | none => exact Or.inl ⟨rfl, rfl⟩
  | some candidates =>
      rw [connectTo]
      rcases connectAny_cases candidates table with refused | ⟨number, fresh, granted⟩
      · rw [refused]
        exact Or.inl ⟨rfl, rfl⟩
      · have created : ¬ (number : Int) < 0 := by omega
        rw [granted]
        simp only [if_neg created, use_add, returned_eq, construct]
        exact Or.inr ⟨number, fresh, rfl, rfl⟩

/-- The object a socket is created for keeps it. -/
theorem Grants.sound {ο : Type} [DecidableEq ο] {held : ο → Option Nat} {lost : List Nat}
    {object : Option Int} {after : Descriptors} (grants : Grants table object after)
    (sound : Ownership.Sound table.opened held lost) {owner : ο} (empty : held owner = none) :
    Ownership.Sound after.opened (Function.update held owner (object.bind descriptor)) lost ∧
      after.misused = table.misused := by
  rcases grants with ⟨nothing, rfl⟩ | ⟨number, fresh, rfl, rfl⟩
  · rw [nothing]
    exact ⟨sound.idle empty, rfl⟩
  · rw [Option.bind_some, descriptor_natCast]
    exact ⟨sound.acquire empty fresh, rfl⟩

end Calls

/-! ### The objects of a process -/

/-- The objects that are alive, by the names of their places: variables, members and
the values of `optional`s. -/
structure Sockets (κ σ : Type) where
  connections : κ → Option Int := fun _ => none
  servers : σ → Option Int := fun _ => none
  descriptors : Descriptors := {}

inductive SocketAction (κ σ : Type) where
  /-- With the default argument, or with a descriptor that the caller opens for the
  new object and keeps nowhere else. -/
  | construct (target : κ) (given : Option Numbering)
  | moveConstruct (target source : κ)
  | moveAssign (target source : κ)
  | transfer (connection : κ) (calls : Nat)
  | closeConnection (connection : κ)
  | destroyConnection (connection : κ)
  | connectTo (target : κ) (results : Option (List Candidate))
  | constructServer (target : σ)
  | listenOn (server : σ) (answers : ListenAnswers)
  | acceptOne (server : σ) (target : κ) (answer : Option Numbering)
  | closeServer (server : σ)
  | destroyServer (server : σ)

namespace Sockets

variable {κ σ : Type} [DecidableEq κ] [DecidableEq σ] (system : Sockets κ σ)

def setConnection (connection : κ) (object : Option Int) (table : Descriptors) :
    Sockets κ σ :=
  { system with
    connections := Function.update system.connections connection object
    descriptors := table }

def setServer (server : σ) (object : Option Int) (table : Descriptors) : Sockets κ σ :=
  { system with
    servers := Function.update system.servers server object
    descriptors := table }

/-- A member runs on a living object, and a constructor in a free place; there is no
other program. -/
def step : SocketAction κ σ → Sockets κ σ
  | .construct target given =>
      match system.connections target with
      | some _ => system
      | none =>
          let (fd, table) := system.descriptors.grant given
          system.setConnection target (some (TcpTransport.construct fd)) table
  | .moveConstruct target source =>
      match system.connections target, system.connections source with
      | none, some other =>
          let (fd, other) := TcpTransport.moveConstruct other
          (system.setConnection target (some fd) system.descriptors).setConnection source
            (some other) system.descriptors
      | _, _ => system
  | .moveAssign target source =>
      match system.connections target, system.connections source with
      | some fd, some other =>
          if target = source then system
          else
            let (fd, other, table) := TcpTransport.moveAssign fd other system.descriptors
            (system.setConnection target (some fd) table).setConnection source (some other) table
      | _, _ => system
  | .transfer connection calls =>
      match system.connections connection with
      | none => system
      | some fd => { system with descriptors := transfer fd calls system.descriptors }
  | .closeConnection connection =>
      match system.connections connection with
      | none => system
      | some fd =>
          let (fd, table) := closeFd fd system.descriptors
          system.setConnection connection (some fd) table
  | .destroyConnection connection =>
      match system.connections connection with
      | none => system
      | some fd => system.setConnection connection none (closeFd fd system.descriptors).2
  | .connectTo target results =>
      match system.connections target with
      | some _ => system
      | none =>
          let (fd, table) := TcpTransport.connectTo results system.descriptors
          system.setConnection target fd table
  | .constructServer target =>
      match system.servers target with
      | some _ => system
      | none => system.setServer target (some (-1)) system.descriptors
  | .listenOn server answers =>
      match system.servers server with
      | none => system
      | some _ =>
          let (_, listenFd, table) := TcpTransport.listenOn answers system.descriptors
          system.setServer server (some listenFd) table
  | .acceptOne server target answer =>
      match system.servers server, system.connections target with
      | some listenFd, none =>
          let (fd, table) := TcpTransport.acceptOne listenFd answer system.descriptors
          system.setConnection target fd table
      | _, _ => system
  | .closeServer server =>
      match system.servers server with
      | none => system
      | some listenFd =>
          let (listenFd, table) := closeFd listenFd system.descriptors
          system.setServer server (some listenFd) table
  | .destroyServer server =>
      match system.servers server with
      | none => system
      | some listenFd => system.setServer server none (closeFd listenFd system.descriptors).2

def run : Sockets κ σ → List (SocketAction κ σ) → Sockets κ σ := List.foldl step

/-! ### Who keeps a descriptor -/

def held : κ ⊕ σ → Option Nat :=
  Sum.elim (fun connection => (system.connections connection).bind descriptor)
    (fun server => (system.servers server).bind descriptor)

/-- What `listen_on` forgets, called again. -/
def forgotten : SocketAction κ σ → List Nat
  | .listenOn server _ => (system.held (.inr server)).toList
  | _ => []

/-- The descriptors of servers that were told to listen once more. -/
def relisted (system : Sockets κ σ) : List (SocketAction κ σ) → List Nat
  | [] => []
  | action :: actions => system.forgotten action ++ relisted (system.step action) actions

theorem held_setConnection (connection : κ) (object : Option Int) (table : Descriptors) :
    (system.setConnection connection object table).held =
      Function.update system.held (.inl connection) (object.bind descriptor) := by
  funext place
  rcases place with place | server
  · show (Function.update system.connections connection object place).bind descriptor = _
    by_cases here : place = connection
    · subst here
      rw [Function.update_self, Function.update_self]
    · rw [Function.update_of_ne here, Function.update_of_ne (by simpa using here)]
      rfl
  · rw [Function.update_of_ne (by simp)]
    rfl

theorem held_setServer (server : σ) (object : Option Int) (table : Descriptors) :
    (system.setServer server object table).held =
      Function.update system.held (.inr server) (object.bind descriptor) := by
  funext place
  rcases place with connection | place
  · rw [Function.update_of_ne (by simp)]
    rfl
  · show (Function.update system.servers server object place).bind descriptor = _
    by_cases here : place = server
    · subst here
      rw [Function.update_self, Function.update_self]
    · rw [Function.update_of_ne here, Function.update_of_ne (by simpa using here)]
      rfl

/-- Every open descriptor has one owner or has been forgotten, and no call has named
any other. -/
structure Valid (lost : List Nat) : Prop where
  owned : Ownership.Sound system.descriptors.opened system.held lost
  proper : system.descriptors.misused = []

variable {system}

section

variable {lost : List Nat} (valid : Valid system lost)

include valid

omit [DecidableEq κ] [DecidableEq σ] in
theorem Valid.live {owner : κ ⊕ σ} {fd : Int} (keeps : system.held owner = descriptor fd) :
    Live fd system.descriptors :=
  fun _ own => valid.owned.mem (keeps.trans own)

theorem Valid.setConnection {connection : κ} {object : Option Int} {after : Descriptors}
    (empty : system.held (.inl connection) = none)
    (grants : Grants system.descriptors object after) :
    Valid (system.setConnection connection object after) lost := by
  have ⟨owned, proper⟩ := grants.sound valid.owned empty
  rw [← held_setConnection system connection object after] at owned
  exact ⟨owned, proper.trans valid.proper⟩

theorem Valid.closeConnection {connection : κ} {fd : Int} (object : Option Int)
    (alive : system.connections connection = some fd) (closed : object.bind descriptor = none) :
    Valid (system.setConnection connection object (closeFd fd system.descriptors).2) lost := by
  have keeps : system.held (.inl connection) = descriptor fd := by
    simp [held, alive]
  constructor
  · rw [held_setConnection, closed, closeFd_eq (valid.live keeps), ← keeps]
    exact valid.owned.release _
  · rw [closeFd_eq (valid.live keeps)]
    exact valid.proper

theorem Valid.closeServer {server : σ} {fd : Int} (object : Option Int)
    (alive : system.servers server = some fd) (closed : object.bind descriptor = none) :
    Valid (system.setServer server object (closeFd fd system.descriptors).2) lost := by
  have keeps : system.held (.inr server) = descriptor fd := by
    simp [held, alive]
  constructor
  · rw [held_setServer, closed, closeFd_eq (valid.live keeps), ← keeps]
    exact valid.owned.release _
  · rw [closeFd_eq (valid.live keeps)]
    exact valid.proper

/-- The descriptor moves from one object to another that has none. -/
theorem Valid.move {target source : κ} {fd : Int}
    (empty : system.held (.inl target) = none) (alive : system.connections source = some fd) :
    Valid ((system.setConnection target (some fd) system.descriptors).setConnection source
      (some (-1)) system.descriptors) lost := by
  have keeps : system.held (.inl source) = descriptor fd := by
    simp [held, alive]
  constructor
  · rw [held_setConnection, held_setConnection, Option.bind_some, Option.bind_some,
      descriptor_of_neg (-1) (by omega), ← keeps]
    exact valid.owned.transfer empty
  · exact valid.proper

theorem Valid.moveAssign {target source : κ} {fd other : Int} (apart : target ≠ source)
    (own : system.connections target = some fd) (alive : system.connections source = some other) :
    let table := (closeFd fd system.descriptors).2
    Valid ((system.setConnection target (some other) table).setConnection source (some (-1))
      table) lost := by
  intro table
  -- the assignment closes first, then takes
  have closed : Valid (system.setConnection target (some (-1)) table) lost :=
    valid.closeConnection (some (-1)) own rfl
  have emptied : (system.setConnection target (some (-1)) table).held (.inl target) = none := by
    rw [held_setConnection, Function.update_self]
    rfl
  have stays : (system.setConnection target (some (-1)) table).connections source =
      some other := by
    show Function.update system.connections target (some (-1)) source = some other
    rw [Function.update_of_ne apart.symm, alive]
  have moved := closed.move emptied stays
  have same : ((system.setConnection target (some (-1)) table).setConnection target (some other)
      table) = system.setConnection target (some other) table := by
    simp [Sockets.setConnection]
  exact same ▸ moved

theorem Valid.listenOn (server : σ) (answers : ListenAnswers) :
    Valid (system.setServer server (some (TcpTransport.listenOn answers system.descriptors).2.1)
      (TcpTransport.listenOn answers system.descriptors).2.2)
      (lost ++ (system.held (.inr server)).toList) := by
  have empty : Function.update system.held (.inr server) none (.inr server) = none := by
    rw [Function.update_self]
  have ⟨owned, proper⟩ := (listenOn_grants answers system.descriptors).sound
    (valid.owned.abandon (.inr server)) empty
  constructor
  · rw [held_setServer]
    rwa [Function.update_idem] at owned
  · exact proper.trans valid.proper

theorem Valid.step (action : SocketAction κ σ) :
    Valid (system.step action) (lost ++ system.forgotten action) := by
  cases action with
  | listenOn server answers =>
      rw [Sockets.step, forgotten]
      cases alive : system.servers server with
      | none => simpa [held, alive] using valid
      | some fd => exact valid.listenOn server answers
  | construct target given =>
      show Valid _ (lost ++ [])
      rw [List.append_nil, Sockets.step]
      cases place : system.connections target with
      | some fd => exact valid
      | none => exact valid.setConnection (by simp [held, place]) (grant_grants given _)
  | moveConstruct target source =>
      show Valid _ (lost ++ [])
      rw [List.append_nil, Sockets.step]
      split
      · next other place alive => exact valid.move (by simp [held, place]) alive
      · exact valid
  | moveAssign target source =>
      show Valid _ (lost ++ [])
      rw [List.append_nil, Sockets.step]
      split
      · next fd other own alive =>
          by_cases self : target = source
          · rw [if_pos self]
            exact valid
          · rw [if_neg self]
            exact valid.moveAssign self own alive
      · exact valid
  | transfer connection calls =>
      show Valid _ (lost ++ [])
      rw [List.append_nil, Sockets.step]
      cases alive : system.connections connection with
      | none => exact valid
      | some fd =>
          have keeps : system.held (.inl connection) = descriptor fd := by
            simp [held, alive]
          simp only [transfer_eq (valid.live keeps)]
          exact valid
  | closeConnection connection =>
      show Valid _ (lost ++ [])
      rw [List.append_nil, Sockets.step]
      cases alive : system.connections connection with
      | none => exact valid
      | some fd => exact valid.closeConnection _ alive (descriptor_closeFd fd _)
  | destroyConnection connection =>
      show Valid _ (lost ++ [])
      rw [List.append_nil, Sockets.step]
      cases alive : system.connections connection with
      | none => exact valid
      | some fd => exact valid.closeConnection none alive rfl
  | connectTo target results =>
      show Valid _ (lost ++ [])
      rw [List.append_nil, Sockets.step]
      cases place : system.connections target with
      | some fd => exact valid
      | none => exact valid.setConnection (by simp [held, place]) (connectTo_grants results _)
  | constructServer target =>
      show Valid _ (lost ++ [])
      rw [List.append_nil, Sockets.step]
      cases place : system.servers target with
      | some fd => exact valid
      | none =>
          have empty : system.held (.inr target) = none := by simp [held, place]
          refine ⟨?_, valid.proper⟩
          rw [held_setServer]
          exact valid.owned.idle empty
  | acceptOne server target answer =>
      show Valid _ (lost ++ [])
      rw [List.append_nil, Sockets.step]
      split
      · next listenFd alive place =>
          have keeps : system.held (.inr server) = descriptor listenFd := by
            simp [held, alive]
          exact valid.setConnection (by simp [held, place])
            (acceptOne_grants (valid.live keeps) answer)
      · exact valid
  | closeServer server =>
      show Valid _ (lost ++ [])
      rw [List.append_nil, Sockets.step]
      cases alive : system.servers server with
      | none => exact valid
      | some fd => exact valid.closeServer _ alive (descriptor_closeFd fd _)
  | destroyServer server =>
      show Valid _ (lost ++ [])
      rw [List.append_nil, Sockets.step]
      cases alive : system.servers server with
      | none => exact valid
      | some fd => exact valid.closeServer none alive rfl

theorem Valid.run (actions : List (SocketAction κ σ)) :
    Valid (system.run actions) (lost ++ relisted system actions) := by
  induction actions generalizing system lost with
  | nil => simpa [Sockets.run, relisted] using valid
  | cons action actions ih =>
      rw [relisted, ← List.append_assoc]
      exact ih (valid.step action)

end

omit [DecidableEq κ] [DecidableEq σ] in
theorem valid_start : Valid ({} : Sockets κ σ) [] := by
  constructor
  · have nothing : ({} : Sockets κ σ).held = fun _ => none := by
      funext place
      cases place <;> rfl
    rw [nothing]
    exact Ownership.sound_empty
  · rfl

/-- Whatever a process does with its objects and however the kernel answers: no call
names a descriptor that is not open, no descriptor has two owners, an object has open
descriptors only, and every open one has an owner exactly as long as no server that
listens has been told to listen once more. -/
theorem run_owned (actions : List (SocketAction κ σ)) :
    let system := Sockets.run {} actions
    system.descriptors.misused = [] ∧
      (∀ first second fd,
        system.held first = some fd → system.held second = some fd → first = second) ∧
      (∀ owner fd, system.held owner = some fd → fd ∈ system.descriptors.opened) ∧
      ((∀ fd ∈ system.descriptors.opened, ∃ owner, system.held owner = some fd) ↔
        relisted ({} : Sockets κ σ) actions = []) := by
  intro system
  have valid : Valid system ([] ++ relisted {} actions) := valid_start.run actions
  rw [List.nil_append] at valid
  exact ⟨valid.proper, valid.owned.single, fun owner fd holds => valid.owned.mem holds,
    valid.owned.no_leak_iff⟩

/-- A server that listens twice. -/
example :
    let actions : List (SocketAction Unit Unit) := [.constructServer (),
      .listenOn () ⟨some .above, true, true⟩, .listenOn () ⟨some .above, true, true⟩,
      .destroyServer ()]
    relisted {} actions = [1] ∧ (Sockets.run {} actions).descriptors.opened = {1} := by
  decide

end Sockets
end TradingPlatform.TcpTransport
