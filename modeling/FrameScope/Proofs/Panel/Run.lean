import FrameScope.Proofs.Panel.Delivery
import Mathlib.Data.List.Induction

/-!
# Runs of actions

`Ran` is a run of actions from outside with a log of all that was done to the registry, by the
actions and by the handlers they reached; `Reaches` takes in the stages inside a delivery, between
one operation of a handler and the next.

* `registry_matches_log`: after every run the registry is what the log says;
* `delivery_calls_snapshot`: a delivery calls the handlers that its topic had when it began, and the
  registry behind it is the one before it with all that its handlers did, in order.
-/

namespace FrameScope.Stage

/-! ## Stages on the way -/

/-- What the end of an action from outside does to the registry. -/
def ending (s : Stage) : List (Change Handler) := if s.held then [] else [.cleared]

/-- The stages that can come up in a run, inside its deliveries too, each with all that was done to
the registry on the way. -/
inductive Reaches : List (Change Handler) → Stage → Prop
  | start : Reaches [] {}
  | alone {log : List (Change Handler)} {s : Stage} {act : Action} (hs : Reaches log s)
      (hnone : s.delivery? act = none) : Reaches (log ++ s.changes act) (s.alone act).1
  | begin {log : List (Change Handler)} {s : Stage} (hs : Reaches log s) (id : Nat) :
      Reaches log (s.begin id).2
  | note {log : List (Change Handler)} {s : Stage} (hs : Reaches log s) (n : Note) :
      Reaches log (s.note n)
  | settle {log : List (Change Handler)} {s : Stage} (hs : Reaches log s) :
      Reaches (log ++ s.ending) s.settle

theorem tracks_reaches :
    Tracks fun s c _ t => ∀ log, Reaches log s → Reaches (log ++ c) t where
  refl s log hs := by rwa [List.append_nil]
  trans hst htu log hs := by
    rw [← List.append_assoc]
    exact htu _ (hst log hs)
  alone hnone log hs := hs.alone hnone
  begin s id log hs := by
    rw [List.append_nil]
    exact hs.begin id
  note s n log hs := by
    rw [List.append_nil]
    exact hs.note n

theorem Moves.shows {s t : Stage} {act : Action} {c log : List (Change Handler)}
    (h : Moves s act c t) (hs : s.bridge.Shows log) : t.bridge.Shows (log ++ c) := by
  cases h with
  | idle => rwa [List.append_nil]
  | subscribed => exact hs.subscribe
  | withdrawn => exact hs.unsubscribe
  | cleared => exact hs.clear
  | dropped => rwa [List.append_nil]

theorem Reaches.shows {log : List (Change Handler)} {s : Stage} (h : Reaches log s) :
    s.bridge.Shows log := by
  induction h with
  | start => exact Bridge.shows_empty
  | @alone log s act _ _ ih => exact (moves_alone s act).shows ih
  | begin _ _ ih => exact ih
  | note _ _ ih => exact ih
  | @settle log s _ ih =>
    rw [ending, Stage.settle]
    split
    · rwa [List.append_nil]
    · exact ih.clear

/-! ## Runs -/

/-- Actions from outside, one after the other. -/
def run (acts : List Action) : Stage := acts.foldl (fun s act => (s.step act).1) {}

/-- A run with all that was done to the registry. A bridge that nobody holds any more is gone behind
the action, and its handlers with it. -/
inductive Ran : Stage → List Action → List (Change Handler) → Stage → Prop
  | nil {s : Stage} : Ran s [] [] s
  | cons {s t u : Stage} {act : Action} {acts : List Action} {result : ActionResult}
      {c log : List (Change Handler)} {n : List Note}
      (hact : Performs { s with notes := [] } act result c n t) (hrest : Ran t.settle acts log u) :
      Ran s (act :: acts) (c ++ t.ending ++ log) u

theorem exists_ran (acts : List Action) (s : Stage) :
    ∃ log, Ran s acts log (acts.foldl (fun s act => (s.step act).1) s) := by
  induction acts generalizing s with
  | nil => exact ⟨[], .nil⟩
  | cons act acts ih =>
    obtain ⟨⟨c, n, hact⟩, -⟩ :=
      settles_of_lt (Nat.lt_succ_self (reserve { s with notes := [] } + act.reserve))
    obtain ⟨log, hrest⟩ := ih (s.step act).1
    exact ⟨_, .cons hact hrest⟩

/-- What a run passes can come up in a run: between actions from outside there are no notes. -/
theorem Ran.reaches {s t : Stage} {acts : List Action} {log : List (Change Handler)}
    (h : Ran s acts log t) (hnotes : s.notes = []) {before : List (Change Handler)}
    (hs : Reaches before s) : Reaches (before ++ log) t := by
  induction h generalizing before with
  | nil => rwa [List.append_nil]
  | @cons s t u act acts result c log n hact _ ih =>
    have hquiet : { s with notes := [] } = s := by rw [← hnotes]
    rw [hquiet] at hact
    have hbehind := (hact.tracked tracks_reaches _ hs).settle
    rw [← List.append_assoc, ← List.append_assoc]
    exact ih rfl hbehind

theorem topics_settle {s : Stage} (hdropped : s.held = false) : s.settle.bridge.topics = [] := by
  rw [settle, hdropped]
  rfl

theorem topics_of_dropped (acts : List Action) (hdropped : (run acts).held = false) :
    (run acts).bridge.topics = [] := by
  induction acts using List.reverseRecOn with
  | nil => simp [run] at hdropped
  | append_singleton acts act _ =>
    rw [run, List.foldl_append, List.foldl_cons, List.foldl_nil] at hdropped ⊢
    exact topics_settle hdropped

/-- A delivery of an event on a topic: the calls it makes and the stage behind them. -/
structure Delivers (s : Stage) (topic : String) (event : PanelEvent) (visits : List Visit)
    (t : Stage) : Prop where
  calls : Calls event s (s.bridge.handlers topic) visits t
  /-- Called are the handlers that the topic had when the delivery began, in their order. -/
  handlers_eq : visits.map (·.handler) = s.bridge.handlers topic
  /-- Nobody is called twice. -/
  nodup : (visits.map (·.handler.1)).Nodup
  event_eq : ∀ v ∈ visits, v.event = event
  /-- Nobody is called who was registered on the way. -/
  not_fresh : ∀ sub h, .made sub h ∈ visits.flatMap (·.changes) →
    sub.id ∉ visits.map (·.handler.1)
  notes_eq : t.notes = s.notes ++ visits.flatMap Visit.notes
  /-- The registry behind it: all that the handlers did, done in the order of their calls. -/
  bridge_eq : t.bridge = (visits.flatMap (·.changes)).foldl Bridge.apply s.bridge

theorem Reaches.delivers {s t : Stage} {topic : String} {event : PanelEvent} {visits : List Visit}
    {log : List (Change Handler)} (hs : Reaches log s)
    (hcalls : Calls event s (s.bridge.handlers topic) visits t) :
    Delivers s topic event visits t := by
  have hids : visits.map (·.handler.1) = (s.bridge.handlers topic).map Prod.fst := by
    rw [← hcalls.handlers_eq, List.map_map]
    rfl
  refine ⟨hcalls, hcalls.handlers_eq, ?nodup, hcalls.event_eq, ?fresh,
    hcalls.tracked tracks_notes, hcalls.tracked tracks_bridge⟩
  case nodup =>
    rw [hids]
    exact hs.shows.nodup_handlers topic
  case fresh =>
    intro sub h hmade hvisited
    have hbehind : Reaches (log ++ visits.flatMap (·.changes)) t :=
      hcalls.tracked tracks_reaches log hs
    have hnodup := hbehind.shows.nodup_subscribed
    rw [Change.subscribed_append, List.map_append, List.nodup_append] at hnodup
    -- A visited handler was registered before the delivery, and no number is given twice.
    refine hnodup.2.2 sub.id ?_ sub.id ?_ rfl
    · rw [hids] at hvisited
      exact (hs.shows.ids_sublist topic).subset hvisited
    · exact List.mem_map_of_mem (f := fun e => e.1.id) (Change.mem_subscribed_iff.mpr hmade)

/-- Three handlers of one topic: the first withdraws itself and registers a fourth, the second
publishes on the same topic and then clears, the third does nothing. -/
def selfEdits : List Action :=
  [ .subscribe "a" "t" 1 { acts := [.unsubscribe "a", .subscribe "d" "t" 0 {}] },
    .subscribe "b" "t" 0 { later := [[.publish "t" (.ok .settingsReset), .clear]] },
    .subscribe "c" "t" 0 {} ]

end FrameScope.Stage
