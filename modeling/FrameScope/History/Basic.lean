import FrameScope.Frame.Basic
import FrameScope.Node.Record

/-!
# Histories

A history is the frames recorded so far, oldest first. Heights strictly rise, gaps are allowed.

* `History.append`: one more frame, refused when it does not advance past the head;
* `History.tryAppend`: the history behind an append and its outcome, a height or a refusal;
* `History.findHeight`, `History.position?`, `History.at?`: look-up by height, by binary search;
* `StoreError`: what can go wrong with a stored history.
-/

namespace FrameScope

/-- The part of a record that a log breaks off in. -/
inductive RecordPart where
  | header
  | payload
  deriving DecidableEq, Repr

def RecordPart.name : RecordPart → String
  | .header => "length header"
  | .payload => "frame payload"

inductive Corruption where
  /-- The log ends inside the record that starts at a byte. -/
  | truncated (part : RecordPart) (offset : Nat)
  /-- A record names another height than its frame. -/
  | disagreement (record frame : Height)
  /-- A height that does not rise. -/
  | disorder (height previous : Height)
  /-- A frame whose length no header holds. -/
  | oversized
  deriving DecidableEq, Repr

def Corruption.message : Corruption → String
  | .truncated part offset => s!"truncated {part.name} in record at byte {offset}"
  | .disagreement record frame => s!"record height {record} disagrees with frame height {frame}"
  | .disorder height previous => s!"height {height} follows {previous}"
  | .oversized => "frame larger than 4GiB"

inductive StoreError where
  /-- The files do not allow it. -/
  | file
  /-- A record that does not decode. -/
  | record
  /-- An export that does not decode. -/
  | document (cause : DecodeError)
  | corrupt (cause : Corruption)
  | notAdvancing (head got : Height)
  deriving DecidableEq, Repr

/-- The wording of a failure, where it has one of its own. -/
def StoreError.message? : StoreError → Option String
  | .file => none
  | .record => none
  | .document cause => cause.message?
  | .corrupt cause => some s!"corrupt frame record: {cause.message}"
  | .notAdvancing head got => some s!"frame height {got} does not advance past head {head}"

/-- The frames recorded so far, oldest first. -/
structure History where
  frames : Array Frame
  deriving Inhabited

namespace History

def empty : History := ⟨#[]⟩

def length (h : History) : Nat := h.frames.size

def isEmpty (h : History) : Bool := h.length == 0

/-- The most recent frame, the live head. -/
def latest? (h : History) : Option Frame := h.frames.back?

def heights (h : History) : List Height := h.frames.toList.map (·.height)

def head? (h : History) : Option Height := h.latest?.map (·.height)

/-- Binary search for a height between two positions of rising heights. -/
def search (frames : Array Frame) (height : Height) (low high : Nat) : Option Nat :=
  if low < high then
    let middle := low + (high - low) / 2
    match frames[middle]? with
    | none => none
    | some f =>
      if f.height = height then some middle
      else if f.height < height then search frames height (middle + 1) high
      else search frames height low middle
  else none
termination_by high - low

/-- The position of a height among frames of rising heights. -/
def findHeight (frames : Array Frame) (height : Height) : Option Nat :=
  search frames height 0 frames.size

def position? (h : History) (height : Height) : Option Nat := findHeight h.frames height

def at? (h : History) (height : Height) : Option Frame :=
  (h.position? height).bind fun i => h.frames[i]?

/-- Whether a height may follow a head. -/
def checkAdvances (head : Option Height) (got : Height) : Except StoreError Unit :=
  match head with
  | some head => if got ≤ head then .error (.notAdvancing head got) else .ok ()
  | none => .ok ()

def append (h : History) (f : Frame) : Except StoreError History := do
  checkAdvances h.head? f.height
  .ok ⟨h.frames.push f⟩

/-- The history behind an append, and the height appended or why there is none. -/
def tryAppend (h : History) (f : Frame) : History × Except StoreError Height :=
  match h.append f with
  | .ok h' => (h', .ok f.height)
  | .error e => (h, .error e)

/-- Frames appended one after the other, up to the first refusal. -/
def appendAll (h : History) : List Frame → Except StoreError History
  | [] => .ok h
  | f :: rest => do
    let h ← h.append f
    h.appendAll rest

def ofFrames (fs : List Frame) : Except StoreError History := empty.appendAll fs

end History

end FrameScope
