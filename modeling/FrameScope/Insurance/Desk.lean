import FrameScope.Insurance.Fetcher
import FrameScope.Insurance.Jurisdiction
import FrameScope.Text.Quoted

/-!
# Requests and their sources

A fetcher at work on a jurisdiction. A source in memory or in a file answers at once. A remote one
answers through gates: a gate is set up for an entity, takes one request and passes one answer on.

* `Desk.select`, `Desk.refresh`, `Desk.fetch`, `Desk.clear`: the calls, each followed by every
  answer that is there;
* `Desk.openGate`, `Desk.release`, `Desk.close`: the other end of a remote source.
-/

namespace FrameScope

/-- A place for one request and one answer. -/
structure Gate where
  entity : String
  /-- Whether its answer can still be given. -/
  pending : Bool := true
  /-- Whether a request can still come to it. -/
  vacant : Bool := true
  /-- The request that came to it. -/
  request : Option Nat := none
  /-- The answer that was given. -/
  answer : Option InsuranceAnswer := none

/-- A fetcher, its jurisdiction, and the gates of a remote source. -/
structure Desk where
  jurisdiction : Jurisdiction
  timeout : Option Span
  fetcher : Fetcher
  gates : List Gate := []

namespace Desk

/-- A desk where nothing is selected. -/
def ofJurisdiction (j : Jurisdiction) (timeout : Option Span) : Desk :=
  ⟨j, timeout, { supported := j.source.isSome }, []⟩

def describe (d : Desk) : String :=
  let timeout := match d.timeout with
    | some limit => s!"Some({limit.text})"
    | none => "None"
  s!"InsuranceFetcher \x7b jurisdiction: {Text.describe d.jurisdiction.name}, "
    ++ s!"timeout: {timeout} \x7d"

def setGate (d : Desk) (i : Nat) (change : Gate → Gate) : Desk :=
  { d with gates := d.gates.modify i change }

/-- Whether a request can still bring an answer. -/
def isAlive (d : Desk) (request : Nat) : Bool := d.fetcher.requests[request]?.any Request.isAlive

/-- Every answer that was given reaches its request, if that is not given up. -/
def settle (d : Desk) : Desk :=
  let deliver := fun (f : Fetcher) (g : Gate) =>
    match g.request, g.answer with
    | some i, some answer => if f.requests[i]?.any Request.isAlive then f.finish i answer else f
    | _, _ => f
  { d with fetcher := d.gates.foldl deliver d.fetcher }

/-! ## The remote end -/

/-- What a request gets at a gate that is given up. -/
def closed : InsuranceAnswer := .error (.source ["channel closed"])

/-- Sets up a gate; an older one of the same entity is given up. -/
def openGate (d : Desk) (entity : String) : Desk :=
  let older := d.gates.map fun g =>
    if g.entity = entity then
      { g with vacant := false, pending := false,
               answer := if g.pending then some closed else g.answer }
    else g
  settle { d with gates := older ++ [{ entity := entity }] }

/-- The gate of an entity that still waits for its answer. -/
def pendingGate? (d : Desk) (entity : String) : Option Nat :=
  d.gates.findIdx? fun g => g.entity = entity && g.pending

/-- Whether anyone is there to take a gate's answer. -/
def receives (d : Desk) (g : Gate) : Bool := g.vacant || g.request.any d.isAlive

/-- Gives an answer to a gate; whether anyone takes it, none when there is no such gate. -/
def release (d : Desk) (entity : String) (answer : InsuranceAnswer) : Desk × Option Bool :=
  match d.pendingGate? entity with
  | none => (d, none)
  | some i =>
    ((d.setGate i fun g => { g with pending := false, answer := some answer }).settle,
     some (d.gates[i]?.any d.receives))

/-- Gives up a gate without an answer; whether there was one. -/
def close (d : Desk) (entity : String) : Desk × Bool :=
  match d.pendingGate? entity with
  | none => (d, false)
  | some i => ((d.setGate i fun g => { g with pending := false, answer := some closed }).settle, true)

/-! ## Requests -/

/-- A request goes to its source, and to a gate if that is remote. -/
def ask (d : Desk) (fs : Files) (request : Nat) : Desk :=
  match d.fetcher.requests[request]?, d.jurisdiction.source with
  | some r, some source =>
    match source.answer? fs r.ticket.entity with
    | some answer => { d with fetcher := d.fetcher.finish request answer }
    | none =>
      match d.gates.findIdx? fun g => g.entity = r.ticket.entity && g.vacant with
      | some i => d.setGate i fun g => { g with vacant := false, request := some request }
      | none =>
        let answer := .error (.source [s!"no gate for {r.ticket.entity}"])
        { d with fetcher := d.fetcher.finish request answer }
  | _, _ => d

/-- A call that may start a request. -/
def call (d : Desk) (fs : Files) (started : Fetcher × Option Nat) : Desk × Option Nat :=
  let d := { d with fetcher := started.1 }
  match started.2 with
  | some request => ((d.ask fs request).settle, some request)
  | none => (d, none)

/-- Selects an entity; the number of the request, if one was started. -/
def select (d : Desk) (fs : Files) (entity : String) : Desk × Option Nat :=
  d.call fs (d.fetcher.select entity)

/-- Asks again for the selected entity. -/
def refresh (d : Desk) (fs : Files) : Desk × Option Nat := d.call fs d.fetcher.refresh

def clear (d : Desk) : Desk := { d with fetcher := d.fetcher.clear }

/-- Selects an entity and waits for the outcome, no longer than the limit. -/
def fetch (d : Desk) (fs : Files) (entity : String) : Desk :=
  match d.select fs entity with
  | (d, none) => d
  | (d, some request) =>
    match d.timeout with
    | some limit =>
      if d.isAlive request then
        { d with fetcher := d.fetcher.finish request (.error (.timeout limit)) }
      else d
    | none => d

end Desk

end FrameScope
