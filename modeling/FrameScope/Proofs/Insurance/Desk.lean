import FrameScope.Insurance.Desk
import FrameScope.Proofs.Insurance.Fetcher

/-!
# A desk moves its fetcher

Whatever source a desk has, each of its operations is a call to its fetcher, or none, and then ends of
requests (`Desk.fetcher_step`). So a run of operations is a run of moves (`Desk.fetcher_run`), and the
fetcher of a desk stays sound (`Desk.sound_run`).
-/

namespace FrameScope

namespace Fetcher

/-- Only requests have ended in between. -/
def Ends (f g : Fetcher) : Prop := ∃ ms : List Move, (∀ m ∈ ms, m.isCall = false) ∧ g = f.run ms

variable {f g h : Fetcher}

theorem Ends.refl (f : Fetcher) : f.Ends f := ⟨[], by simp, rfl⟩

theorem Ends.trans : f.Ends g → g.Ends h → f.Ends h
  | ⟨ms, hms, hg⟩, ⟨ns, hns, hh⟩ =>
    ⟨ms ++ ns, fun m hm => (List.mem_append.mp hm).elim (hms m) (hns m), by rw [run_append, ← hg, hh]⟩

theorem ends_finish (f : Fetcher) (i : Nat) (answer : InsuranceAnswer) : f.Ends (f.finish i answer) :=
  ⟨[.finish i answer], by simp [Move.isCall], rfl⟩

end Fetcher

namespace Desk

open Fetcher

/-- What is done at a desk. -/
inductive Operation where
  | select (files : Files) (entity : String)
  | refresh (files : Files)
  | fetch (files : Files) (entity : String)
  | clear
  | openGate (entity : String)
  | release (entity : String) (answer : InsuranceAnswer)
  | close (entity : String)

def step (d : Desk) : Operation → Desk
  | .select files entity => (d.select files entity).1
  | .refresh files => (d.refresh files).1
  | .fetch files entity => d.fetch files entity
  | .clear => d.clear
  | .openGate entity => d.openGate entity
  | .release entity answer => (d.release entity answer).1
  | .close entity => (d.close entity).1

def run (d : Desk) (ops : List Operation) : Desk := ops.foldl step d

/-- The call to the fetcher that an operation makes, if it makes one. -/
def Operation.calls : Operation → List Move
  | .select _ entity => [.select entity]
  | .refresh _ => [.refresh]
  | .fetch _ entity => [.select entity]
  | .clear => [.clear]
  | _ => []

theorem ends_foldl {deliver : Fetcher → Gate → Fetcher}
    (hdeliver : ∀ (f : Fetcher) (g : Gate), f.Ends (deliver f g))
    (gates : List Gate) (f : Fetcher) : f.Ends (gates.foldl deliver f) := by
  induction gates generalizing f with
  | nil => exact .refl f
  | cons g gates ih => exact (hdeliver f g).trans (ih _)

theorem ends_settle (d : Desk) : d.fetcher.Ends d.settle.fetcher := by
  refine ends_foldl (fun f g => ?_) d.gates d.fetcher
  split
  · split
    · exact ends_finish f _ _
    · exact .refl f
  · exact .refl f

theorem ends_ask (d : Desk) (fs : Files) (request : Nat) :
    d.fetcher.Ends (d.ask fs request).fetcher := by
  unfold ask
  split
  · split
    · exact ends_finish d.fetcher _ _
    · split
      · exact .refl _
      · exact ends_finish d.fetcher _ _
  · exact .refl _

theorem ends_call (d : Desk) (fs : Files) (started : Fetcher × Option Nat) :
    started.1.Ends (d.call fs started).1.fetcher := by
  unfold call
  dsimp only
  split
  · exact (ends_ask { d with fetcher := started.1 } fs _).trans (ends_settle _)
  · exact .refl _

theorem ends_fetch (d : Desk) (fs : Files) (entity : String) :
    (d.select fs entity).1.fetcher.Ends (d.fetch fs entity).fetcher := by
  unfold fetch
  split
  · rename_i hselect
    rw [hselect]
    exact .refl _
  · rename_i hselect
    rw [hselect]
    split
    · split
      · exact ends_finish _ _ _
      · exact .refl _
    · exact .refl _

/-- **An operation is a call to the fetcher, or none, and then ends of requests.** -/
theorem fetcher_step (d : Desk) (op : Operation) :
    (d.fetcher.run op.calls).Ends (d.step op).fetcher := by
  cases op with
  | select files entity => exact ends_call d files (d.fetcher.select entity)
  | refresh files => exact ends_call d files d.fetcher.refresh
  | fetch files entity =>
    exact (ends_call d files (d.fetcher.select entity)).trans (ends_fetch d files entity)
  | clear => exact .refl _
  | openGate entity => exact ends_settle _
  | release entity answer =>
    show d.fetcher.Ends (d.release entity answer).1.fetcher
    unfold release
    split
    · exact .refl _
    · exact ends_settle _
  | close entity =>
    show d.fetcher.Ends (d.close entity).1.fetcher
    unfold close
    split
    · exact .refl _
    · exact ends_settle _

theorem fetcher_run (d : Desk) (ops : List Operation) :
    ∃ ms : List Move, (d.run ops).fetcher = d.fetcher.run ms := by
  induction ops generalizing d with
  | nil => exact ⟨[], rfl⟩
  | cons op ops ih =>
    obtain ⟨ms, -, hstep⟩ := d.fetcher_step op
    obtain ⟨ns, hrun⟩ := ih (d.step op)
    refine ⟨op.calls ++ (ms ++ ns), ?_⟩
    rw [run_append, run_append, ← hstep, ← hrun]
    rfl

theorem sound_run (j : Jurisdiction) (timeout : Option Span) (ops : List Operation) :
    ((ofJurisdiction j timeout).run ops).fetcher.Sound := by
  obtain ⟨ms, hms⟩ := (ofJurisdiction j timeout).fetcher_run ops
  rw [hms]
  exact (sound_fresh j.source.isSome).run ms

end Desk

end FrameScope
