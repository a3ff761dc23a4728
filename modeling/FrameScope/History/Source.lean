import FrameScope.History.LogStore

/-!
# What a reader asks of a history

* `FrameSource`: the questions, two of them with an answer by default;
* `Bare`: a source that leaves both to the default.
-/

namespace FrameScope

/-- A history as its readers see it. -/
class FrameSource (σ : Type) where
  /-- The most recent frame. -/
  latest? : σ → Option Frame
  /-- The frame of a height. -/
  at? : σ → Height → Option Frame
  /-- The frames, oldest first. -/
  frames : σ → Array Frame
  length : σ → Nat
  isEmpty : σ → Bool := fun s => length s == 0
  /-- The position of a height. -/
  position? : σ → Height → Option Nat := fun s height => History.findHeight (frames s) height

instance : FrameSource History where
  latest? := History.latest?
  at? := History.at?
  frames := History.frames
  length := History.length
  position? := History.position?

instance : FrameSource LogStore where
  latest? s := s.history.latest?
  at? s := s.history.at?
  frames s := s.history.frames
  length s := s.history.length
  position? s := s.history.position?

/-- A source with an answer of its own only where there is no default. -/
structure Bare (σ : Type) where
  source : σ

instance {σ : Type} [FrameSource σ] : FrameSource (Bare σ) where
  latest? s := FrameSource.latest? s.source
  at? s := FrameSource.at? s.source
  frames s := FrameSource.frames s.source
  length s := FrameSource.length s.source

end FrameScope
