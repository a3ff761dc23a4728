import FrameScope.Insurance.Tracker

/-!
# Requests under way

Selecting an entity starts a request and gives up the one before. A request that was given up may
still come to an end; the tracker refuses its answer, because its ticket is stale.

* `Fetcher.select`, `Fetcher.refresh`, `Fetcher.clear`: the calls;
* `Fetcher.finish`: the end of a request, in whatever order the requests end.
-/

namespace FrameScope

/-- A request that was started. -/
structure Request where
  ticket : Ticket
  /-- Whether it has ended. -/
  finished : Bool := false
  /-- Whether it was given up. -/
  aborted : Bool := false
  deriving DecidableEq, Repr, Inhabited

/-- Whether a request can still bring an answer. -/
def Request.isAlive (r : Request) : Bool := !r.finished && !r.aborted

/-- The tracker and every request that was ever started, known by its number. -/
structure Fetcher where
  /-- Whether there is insurance to ask for. -/
  supported : Bool
  tracker : Tracker := {}
  requests : List Request := []
  /-- The request that was started last and not given up. -/
  inFlight : Option Nat := none
  deriving Inhabited

namespace Fetcher

def view (f : Fetcher) : InsuranceView := f.tracker.view

/-- Gives up the request in flight. -/
def abort (f : Fetcher) : Fetcher :=
  match f.inFlight with
  | none => f
  | some i =>
    { f with inFlight := none, requests := f.requests.modify i fun r => { r with aborted := true } }

/-- Starts the request of a ticket; its number, when there is insurance to ask for. -/
def start (f : Fetcher) (ticket : Ticket) : Fetcher × Option Nat :=
  let f := f.abort
  if f.supported then
    ({ f with requests := f.requests ++ [{ ticket := ticket }],
              inFlight := some f.requests.length }, some f.requests.length)
  else ({ f with tracker := (f.tracker.commitUnavailable ticket).1 }, none)

/-- Selects an entity and starts its request. -/
def select (f : Fetcher) (entity : String) : Fetcher × Option Nat :=
  let (tracker, ticket) := f.tracker.select entity
  { f with tracker := tracker }.start ticket

/-- Starts another request for the selected entity. -/
def refresh (f : Fetcher) : Fetcher × Option Nat :=
  match f.tracker.refresh with
  | none => (f, none)
  | some (tracker, ticket) => { f with tracker := tracker }.start ticket

def clear (f : Fetcher) : Fetcher := { f with tracker := f.tracker.clear }.abort

/-- A request ends with an answer. -/
def finish (f : Fetcher) (i : Nat) (answer : InsuranceAnswer) : Fetcher :=
  match f.requests[i]? with
  | none => f
  | some r =>
    if r.finished then f
    else
      { f with tracker := (f.tracker.commit r.ticket answer).1,
               requests := f.requests.set i { r with finished := true } }

end Fetcher

end FrameScope
