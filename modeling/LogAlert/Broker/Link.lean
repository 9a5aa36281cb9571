/-
# LogAlert.Broker.Link -- the connection to the broker

Queues, locks and the shared ledger live in a broker behind a connection. A command sent over it is
either carried out or lost; a lost command has no effect, and its sender is told. A `Link` says of
each coming command which of the two happens, and says so apart for the commands that release a
lock.
-/

set_option autoImplicit false

namespace LogAlert

/-- The fate of the coming commands. -/
structure Link where
  /-- Which of the next commands are lost. -/
  upcoming : List Bool
  /-- All commands after these are lost. -/
  afterwards : Bool
  /-- Which of the next releases of locks are lost; those after them are not. -/
  releases : List Bool := []
deriving DecidableEq, Repr, Inhabited

namespace Link

/-- A connection that loses nothing. -/
def sound : Link := { upcoming := [], afterwards := false }

/-- A connection that carries out some commands and then loses so many, or all. -/
def outage (after : Nat) : Option Nat → Link
  | some lost =>
    { upcoming := List.replicate after false ++ List.replicate lost true, afterwards := false }
  | none => { upcoming := List.replicate after false, afterwards := true }

/-- Send one command; the result says whether it is carried out. -/
def send (link : Link) : Bool × Link :=
  match link.upcoming with
  | [] => (!link.afterwards, link)
  | lost :: rest => (!lost, { link with upcoming := rest })

@[simp] theorem send_releases (link : Link) : link.send.2.releases = link.releases := by
  unfold send
  split <;> rfl

/-- Send the release of a lock; the result says whether it is carried out. -/
def unlock (link : Link) : Bool × Link :=
  match link.releases with
  | [] => (true, link)
  | lost :: rest => (!lost, { link with releases := rest })

/-- What the sender of a lost command is told. -/
def lossMessage : String := "redis down"

end Link

end LogAlert
