/-
# LogAlert.Delivery.Ledger -- which jobs have been delivered

A ledger remembers the keys of delivered jobs for a window of time, so that a job that is handled
twice notifies once. Entries are kept by the broker, where every process sees them, or in memory. An
access whose command is lost uses the memory instead.
-/
import LogAlert.Delivery.Digest
import LogAlert.Broker.Link
import LogAlert.Time.Stamp

set_option autoImplicit false

namespace LogAlert

/-- An entry kept by the broker until it expires. -/
structure SharedEntry where
  digest : String
  /-- When the job was delivered, in whole seconds. -/
  value : Int
  /-- The first instant at which the entry is gone. -/
  expiry : Time.Instant
deriving DecidableEq, Repr

/-- The keys of delivered jobs. -/
structure Ledger where
  /-- How many seconds a delivery is remembered. -/
  window : Int
  /-- Entries are kept by the broker as far as it answers. -/
  isShared : Bool
  /-- Digests with the seconds of their delivery. -/
  memory : List (String × Int)
  entries : List SharedEntry
deriving DecidableEq, Repr

namespace Ledger

/-- A ledger without entries. -/
def empty (window : Int) (isShared : Bool) : Ledger := ⟨window, isShared, [], []⟩

/-- The whole seconds of an instant. -/
def wholeSeconds (now : Time.Instant) : Int := now.micros.tdiv Time.second

/-- The entry has not expired. -/
def isAlive (now : Time.Instant) (entry : SharedEntry) : Bool := decide (now < entry.expiry)

/-- The broker keeps an entry of this digest. -/
def isKept (ledger : Ledger) (now : Time.Instant) (digest : String) : Bool :=
  ledger.entries.any fun entry => entry.digest = digest && isAlive now entry

/-- Forget what is too old in memory. -/
def forget (ledger : Ledger) (seconds : Int) : Ledger :=
  { ledger with memory := ledger.memory.filter fun (_, stamp) => seconds - stamp < ledger.window }

/-- Look a digest up in memory. -/
def isRemembered (ledger : Ledger) (now : Time.Instant) (digest : String) : Bool × Ledger :=
  let seconds := wholeSeconds now
  let ledger := ledger.forget seconds
  ((ledger.memory.lookup digest).any fun stamp => seconds - stamp < ledger.window, ledger)

/-- The job of this key was delivered within the window. -/
def delivered (ledger : Ledger) (link : Link) (now : Time.Instant) (key : String) :
    Bool × Ledger × Link :=
  let digest := Digest.ofKey key
  if ledger.isShared then
    match link.send with
    | (true, link) => (ledger.isKept now digest, ledger, link)
    | (false, link) =>
      let (found, ledger) := ledger.isRemembered now digest
      (found, ledger, link)
  else
    let (found, ledger) := ledger.isRemembered now digest
    (found, ledger, link)

/-- Write into memory that the digest was delivered. -/
def memorize (ledger : Ledger) (digest : String) (seconds : Int) : Ledger :=
  if ledger.memory.any (·.1 = digest) then
    { ledger with
      memory := ledger.memory.map fun (d, stamp) => if d = digest then (d, seconds) else (d, stamp) }
  else { ledger with memory := ledger.memory ++ [(digest, seconds)] }

/-- Have the broker keep an entry unless it has one already. -/
def keep (ledger : Ledger) (now : Time.Instant) (digest : String) : Ledger :=
  if ledger.isKept now digest then ledger
  else
    { ledger with
      entries := ledger.entries.filter (fun entry => isAlive now entry) ++
        [⟨digest, wholeSeconds now, ⟨now.micros + ledger.window * Time.second⟩⟩] }

/-- Remember that the job of this key was delivered. -/
def record (ledger : Ledger) (link : Link) (now : Time.Instant) (key : String) : Ledger × Link :=
  let digest := Digest.ofKey key
  if ledger.isShared then
    match link.send with
    | (true, link) => (ledger.keep now digest, link)
    | (false, link) => (ledger.memorize digest (wholeSeconds now), link)
  else (ledger.memorize digest (wholeSeconds now), link)

/-- The entries that the broker keeps at an instant. -/
def kept (ledger : Ledger) (now : Time.Instant) : List SharedEntry :=
  ledger.entries.filter fun entry => isAlive now entry

/-- What is counted of a ledger. -/
structure Stats where
  backend : String
  jobs : Nat
  window : Int
deriving DecidableEq, Repr

/-- Count the entries where they are kept, or those in memory if the command is lost. -/
def stats (ledger : Ledger) (link : Link) (now : Time.Instant) : Stats × Link :=
  let inMemory : Stats := ⟨"memory", ledger.memory.length, ledger.window⟩
  if ledger.isShared then
    match link.send with
    | (true, link) => (⟨"redis", (ledger.kept now).length, ledger.window⟩, link)
    | (false, link) => (inMemory, link)
  else (inMemory, link)

/-- What the broker calls an entry. -/
def SharedEntry.name (entry : SharedEntry) : String := "notification_delivered:" ++ entry.digest

end Ledger

end LogAlert
