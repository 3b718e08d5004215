import Lms200.Protocol.Crc

/-!
# The lease of the serial bridge

What the lease is for, without the sockets and tasks which implement it: at most one holder, one
data listener for each lease, and only the holder changes the baud rate or has bytes pumped. A
trace lists what happened, the latest event first; who holds the lease is read off the trace.
-/

namespace Lms200.Bridge

/-- The IP address of a peer. -/
abbrev Peer := ℕ

/-- What an operation of the bridge may raise; a timeout is an `OSError`. -/
inductive Fault where
  | cancelled
  | value
  | os
  | eof
  | other
  deriving DecidableEq, Repr

/-- The `op` of a control message. -/
inductive Op where
  | lease
  | baud
  | status
  | other
  deriving DecidableEq, Repr

/-- A control message as the bridge reads it: the token as encoded, which may raise, and the baud
rate if it is a natural number. -/
structure Message where
  op : Op
  token : Except Fault Bytes := .ok []
  baud : Option ℕ := none
  deriving DecidableEq, Repr

/-- A lease: the handler of its control connection, the peer, and the data listener once opened. -/
structure Lease where
  holder : ℕ
  peer : Option Peer
  server : Option ℕ
  deriving DecidableEq, Repr

/-- What happens to the lease, and what is done under it. -/
inductive Event where
  | granted (task : ℕ) (request : Message) (peer : Option Peer)
  | opened (server : ℕ)
  | released
  | switched (task baud : ℕ) (requested : Option ℕ)
  | pumped (connection server : ℕ) (peer : Peer)
  deriving DecidableEq, Repr

/-- The lease after a trace. -/
def after : List Event → Option Lease
  | [] => none
  | .granted task _ peer :: _ => some ⟨task, peer, none⟩
  | .opened server :: past => (after past).map fun lease => { lease with server := some server }
  | .released :: _ => none
  | _ :: past => after past

/-- The baud rate after a trace which began at a rate. -/
def rate (initial : ℕ) : List Event → ℕ
  | [] => initial
  | .switched _ baud _ :: _ => baud
  | _ :: past => rate initial past

/-- What may happen: a lease for a right request while there is none, its one listener, a change of
the baud rate which its holder has requested, and bytes of a connection of that listener from the
peer of the lease. -/
def Allowed (token : Bytes) (high_speed : Bool) (past : List Event) : Event → Prop
  | .granted _ request _ => after past = none ∧ request.op = .lease ∧ request.token = .ok token
  | .opened server =>
    (∃ lease, after past = some lease ∧ lease.server = none) ∧ .opened server ∉ past
  | .released => True
  | .switched task baud requested =>
    (∃ lease, after past = some lease ∧ lease.holder = task) ∧ requested = some baud ∧
      (baud = 500000 → high_speed = true)
  | .pumped _ server peer =>
    ∃ lease, after past = some lease ∧ lease.server = some server ∧ lease.peer = some peer

/-- Everything was allowed when it happened. -/
def Legal (token : Bytes) (high_speed : Bool) : List Event → Prop
  | [] => True
  | event :: past => Allowed token high_speed past event ∧ Legal token high_speed past

variable {token : Bytes} {high_speed : Bool}

/-- The listener of the lease has been opened. -/
theorem after_opened {trace : List Event} {lease : Lease} {server : ℕ} (hlease : after trace = some lease)
    (hserver : lease.server = some server) : .opened server ∈ trace := by
  induction trace generalizing lease with
  | nil => cases hlease
  | cons event past ih =>
    cases event with
    | granted task request peer =>
      obtain rfl := Option.some.inj hlease
      cases hserver
    | opened other =>
      obtain ⟨before, hbefore, rfl⟩ := Option.map_eq_some_iff.mp hlease
      obtain rfl := Option.some.inj hserver
      exact List.mem_cons_self
    | released => cases hlease
    | switched | pumped => exact List.mem_cons_of_mem _ (ih hlease hserver)

/-- A listener of the time before a lease was granted is not the one of the lease. -/
theorem Legal.server_fresh {later earlier : List Event} {task server : ℕ} {request : Message}
    {peer : Option Peer} {lease : Lease}
    (hlegal : Legal token high_speed (later ++ .granted task request peer :: earlier))
    (hopened : .opened server ∈ earlier)
    (hlease : after (later ++ .granted task request peer :: earlier) = some lease) :
    lease.server ≠ some server := by
  induction later generalizing lease with
  | nil =>
    obtain rfl := Option.some.inj hlease
    exact (Option.some_ne_none server).symm
  | cons event past ih =>
    have hpast := @ih lease hlegal.2
    cases event with
    | granted task request peer =>
      obtain rfl := Option.some.inj hlease
      exact (Option.some_ne_none server).symm
    | opened other =>
      obtain ⟨before, hbefore, rfl⟩ := Option.map_eq_some_iff.mp hlease
      rintro heq
      obtain rfl := Option.some.inj heq
      exact hlegal.1.2 (List.mem_append_right _ (List.mem_cons_of_mem _ hopened))
    | released => cases hlease
    | switched | pumped => exact hpast hlease

/-- No bytes of one lease's data connections are pumped after another lease was granted. -/
theorem Legal.no_late_bytes {later earlier : List Event} {task server connection : ℕ} {request : Message}
    {peer : Option Peer} {address : Peer}
    (hlegal : Legal token high_speed (later ++ .granted task request peer :: earlier))
    (hopened : .opened server ∈ earlier) : .pumped connection server address ∉ later := by
  induction later with
  | nil => exact List.not_mem_nil
  | cons event past ih =>
    intro hmem
    rcases List.mem_cons.mp hmem with rfl | hmem
    · obtain ⟨lease, hlease, hserver, -⟩ := hlegal.1
      exact hlegal.2.server_fresh hopened hlease hserver
    · exact ih hlegal.2 hmem

end Lms200.Bridge
