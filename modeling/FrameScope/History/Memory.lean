import FrameScope.History.Source

/-!
# Histories kept in memory

A history in memory lies in a cell, and any number of handles stand for it: a clone of a handle is
one more handle on the same cell, so that what one appends the others read.

* `Memory.new`, `Memory.ofFrames`, `Memory.clone`: one more handle;
* `Memory.append`: one more frame behind a handle;
* `MemoryReader`: a handle as its readers see it.
-/

namespace FrameScope

/-- The histories kept in memory, and for every handle the cell it stands for. -/
structure Memory where
  cells : List History
  handles : List Nat
  deriving Inhabited

namespace Memory

abbrev Handle := Nat

def empty : Memory := ⟨[], []⟩

def cell? (m : Memory) (i : Handle) : Option Nat := m.handles[i]?

def history (m : Memory) (i : Handle) : History :=
  ((m.cell? i).bind fun c => m.cells[c]?).getD .empty

/-- A cell of its own for a history, and the first handle on it. -/
def allocate (m : Memory) (h : History) : Memory × Handle :=
  (⟨m.cells ++ [h], m.handles ++ [m.cells.length]⟩, m.handles.length)

def new (m : Memory) : Memory × Handle := m.allocate .empty

def ofFrames (m : Memory) (fs : List Frame) : Except StoreError (Memory × Handle) :=
  (History.ofFrames fs).map m.allocate

/-- One more handle on the cell of a handle. -/
def clone (m : Memory) (i : Handle) : Memory × Handle :=
  match m.cell? i with
  | some c => (⟨m.cells, m.handles ++ [c]⟩, m.handles.length)
  | none => (m, i)

/-- One more frame behind a handle. -/
def append (m : Memory) (i : Handle) (f : Frame) : Memory × Except StoreError Height :=
  let (h, outcome) := (m.history i).tryAppend f
  match m.cell? i with
  | some c => (⟨m.cells.set c h, m.handles⟩, outcome)
  | none => (m, outcome)

end Memory

/-- A handle and the memory it belongs to. -/
structure MemoryReader where
  memory : Memory
  handle : Memory.Handle

namespace MemoryReader

def history (r : MemoryReader) : History := r.memory.history r.handle

end MemoryReader

instance : FrameSource MemoryReader where
  latest? r := r.history.latest?
  at? r := r.history.at?
  frames r := r.history.frames
  length r := r.history.length
  position? r := r.history.position?

end FrameScope
