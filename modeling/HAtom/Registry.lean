import HAtom.Session

/-!
# The registry of sessions

Sessions are registered by the name of their document, up to a bound: when it is reached, the name
whose session was not asked for the longest makes room. A session that is replaced, that made room
or was removed lives on for whoever still holds it, so the registry keeps every session it made and
hands out numbers.

* `Registry.create` registers a new session, `Registry.get` finds one; both count as use.
* `Registry.contains` looks without use, `Registry.remove` forgets a name.
* `Registry.check` checks a document in a new session, `Registry.addMessage` adds a report to a
  session found by name.
* `Registry.open?` refuses a time to live beyond a thousand years.
-/

namespace HAtom

/-- Sessions by the name of their document. -/
structure Registry where
  /-- The largest number of names. -/
  capacity : Nat
  /-- The names with the numbers of their sessions, the one used last first. -/
  entries : List (String × Nat)
  /-- Every session that was made, by number. -/
  sessions : List Session
  deriving DecidableEq, Repr

namespace Registry

/-- The most seconds for which an unused session can be kept: a thousand years of 365 days. -/
def maxTimeToLive : Nat := 1000 * 365 * 24 * 60 * 60

/-- The sentence that says that no session is registered for a document. -/
def missingMessage (name : String) : String :=
  "No validation session registered for document: " ++ name

/-- A registry without sessions. -/
def empty (capacity : Nat) : Registry := ⟨capacity, [], []⟩

/-- A registry without sessions that keeps unused sessions for a time to live in seconds. -/
def open? (capacity timeToLive : Nat) : Except String Registry :=
  if timeToLive ≤ maxTimeToLive then .ok (empty capacity)
  else .error "time_to_idle is longer than 1000 years"

/-- The number of registered names. -/
def size (r : Registry) : Nat := r.entries.length

/-- Whether a name is registered. Looking does not count as use. -/
def contains (r : Registry) (name : String) : Bool := r.entries.any fun e => e.1 == name

/-- The entries with another name. -/
def others (r : Registry) (name : String) : List (String × Nat) :=
  r.entries.filter fun e => e.1 != name

/-- The session with a number. -/
def session? (r : Registry) (number : Nat) : Option Session := r.sessions[number]?

/-- Changes the session with a number. -/
def modify (r : Registry) (number : Nat) (change : Session → Session) : Registry :=
  { r with sessions := r.sessions.modify number change }

/-- Registers a new session for a document in place of any older one; answers its number. -/
def create (r : Registry) (name : String) : Nat × Registry :=
  let number := r.sessions.length
  (number, { r with
    entries := ((name, number) :: r.others name).take r.capacity
    sessions := r.sessions ++ [Session.new name] })

/-- The number of the session of a document, which is used by this. -/
def get (r : Registry) (name : String) : Option Nat × Registry :=
  match r.entries.find? fun e => e.1 == name with
  | some e => (some e.2, { r with entries := e :: r.others name })
  | none => (none, r)

/-- Forgets a document; answers the number of its session. -/
def remove (r : Registry) (name : String) : Option Nat × Registry :=
  ((r.entries.find? fun e => e.1 == name).map (·.2), { r with entries := r.others name })

/-- Checks a text in the session with a number. -/
def checkIn (r : Registry) (number : Nat) (text : String) (elapsed : Nat) :
    Except SessionFault (List Report) × Registry :=
  match r.session? number with
  | none => (.ok [], r)
  | some s =>
    let (outcome, checked) := s.check text elapsed
    (outcome.map fun _ => checked.reports, r.modify number fun _ => checked)

/-- Checks a document in a new session; answers its reports. -/
def check (r : Registry) (name text : String) (elapsed : Nat) :
    Except SessionFault (List Report) × Registry :=
  let (number, r) := r.create name
  r.checkIn number text elapsed

/-- Adds a report that belongs to no node to the session of a document; answers whether there was
one. -/
def addMessage (r : Registry) (name message : String) : Bool × Registry :=
  match r.get name with
  | (some number, r) => (true, r.modify number (·.addReport (Report.ofMessage message)))
  | (none, r) => (false, r)

end Registry

end HAtom
