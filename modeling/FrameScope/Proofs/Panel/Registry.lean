import FrameScope.Panel.Bridge
import FrameScope.Proofs.Entries

/-!
# A registry and its log

The registry beside a log of what was done to it: subscriptions made, subscriptions withdrawn,
everything cleared. `Change.live` reads off the log which subscriptions nobody ended.

`Bridge.Shows` says that a registry has exactly these; every change keeps it (`Shows.subscribe`,
`Shows.unsubscribe`, `Shows.clear`), and what a subscription can still do follows from it.
-/

namespace FrameScope

/-- What is done to a registry. -/
inductive Change (η : Type) where
  | made (s : Subscription) (handler : η)
  | withdrawn (s : Subscription)
  | cleared

namespace Change

variable {η : Type} {log later : List (Change η)} {s : Subscription} {h : η}

/-- Whether a change ends a subscription. -/
def ends (s : Subscription) : Change η → Bool
  | .made _ _ => false
  | .withdrawn r => r = s
  | .cleared => true

/-- The subscriptions of a log, with their handlers. -/
def subscribed : List (Change η) → List (Subscription × η)
  | [] => []
  | .made s h :: rest => (s, h) :: subscribed rest
  | .withdrawn _ :: rest => subscribed rest
  | .cleared :: rest => subscribed rest

/-- The subscriptions that no later change ends, in the order they were made. -/
def live : List (Change η) → List (Subscription × η)
  | [] => []
  | .made s h :: rest => if rest.any (·.ends s) then live rest else (s, h) :: live rest
  | .withdrawn _ :: rest => live rest
  | .cleared :: rest => live rest

theorem subscribed_append : subscribed (log ++ later) = subscribed log ++ subscribed later := by
  induction log with
  | nil => rfl
  | cons c log ih => cases c <;> simp [subscribed, ih]

theorem mem_subscribed_iff : (s, h) ∈ subscribed log ↔ .made s h ∈ log := by
  induction log with
  | nil => simp [subscribed]
  | cons c log ih => cases c <;> simp [subscribed, ih]

theorem live_sublist_subscribed : (live log).Sublist (subscribed log) := by
  induction log with
  | nil => exact .slnil
  | cons c log ih =>
    cases c with
    | made s h =>
      rw [live, subscribed]
      split
      · exact ih.cons _
      · exact ih.cons_cons _
    | withdrawn s => exact ih
    | cleared => exact ih

/-- What is live when more happens: what was and is not ended since, then what is new. -/
theorem live_append :
    live (log ++ later) = (live log).filter (fun e => !later.any (·.ends e.1)) ++ live later := by
  induction log with
  | nil => rfl
  | cons c log ih =>
    cases c with
    | made s h =>
      rw [List.cons_append, live, live, List.any_append, ih]
      cases hlog : log.any (·.ends s) <;> cases hlater : later.any (·.ends s) <;> simp [hlater]
    | withdrawn s => exact ih
    | cleared => exact ih

theorem live_made : live (log ++ [.made s h]) = live log ++ [(s, h)] := by
  simp [live_append, ends, live]

theorem live_withdrawn :
    live (log ++ [.withdrawn s]) = (live log).filter fun e => decide (e.1 ≠ s) := by
  simp [live_append, ends, live, eq_comm]

theorem live_cleared : live (log ++ [.cleared]) = [] := by simp [live_append, ends, live]

theorem live_of_cleared : live (log ++ .cleared :: later) = live later := by
  rw [List.append_cons, live_append, live_cleared, List.filter_nil, List.nil_append]

end Change

namespace Bridge

open Change

variable {η : Type} {b : Bridge η} {s : Subscription} {h : η} {topic : String}

/-- A change, done to a registry. -/
def apply (b : Bridge η) : Change η → Bridge η
  | .made s h => (b.subscribe s.topic h).1
  | .withdrawn s => b.unsubscribe s
  | .cleared => b.clear

/-! ## The handlers of one topic -/

theorem handlers_subscribe (topic' : String) : (b.subscribe topic h).1.handlers topic' =
    if topic = topic' then b.handlers topic' ++ [(b.nextId, h)] else b.handlers topic' := by
  simp only [subscribe, handlers, Entries.get?_put]
  split
  · rename_i htopic
    rw [htopic, Option.getD_some]
  · rfl

theorem handlers_unsubscribe (topic' : String) : (b.unsubscribe s).handlers topic' =
    if s.topic = topic' then (b.handlers topic').filter (fun e => decide (e.1 ≠ s.id))
    else b.handlers topic' := by
  unfold unsubscribe
  split
  · rename_i hnone
    split
    · rename_i htopic
      simp [handlers, ← htopic, hnone]
    · rfl
  · rename_i hs hsome
    have hbefore : s.topic = topic' → b.handlers topic' = hs := fun htopic => by
      rw [handlers, ← htopic, hsome, Option.getD_some]
    split <;> rename_i hfilter
    · rw [handlers, Entries.get?_erase]
      split
      · rename_i htopic
        rw [hbefore htopic, hfilter, Option.getD_none]
      · rfl
    · rw [handlers, Entries.get?_put]
      split
      · rename_i htopic
        rw [hbefore htopic, Option.getD_some]
      · rfl

theorem isActive_iff : b.isActive s ↔ s.id ∈ (b.handlers s.topic).map Prod.fst := by
  simp [isActive]

/-! ## What a log says of a registry -/

/-- A registry that has the live subscriptions of a log and no others. A number is that of the
subscriptions made before, and a topic without handlers is not kept. -/
structure Shows (b : Bridge η) (log : List (Change η)) : Prop where
  handlers_eq : ∀ topic, b.handlers topic =
    ((live log).filter fun e => e.1.topic = topic).map fun e => (e.1.id, e.2)
  ids_eq : (subscribed log).map (fun e => e.1.id) = List.range b.nextId
  no_empty : ∀ topic, b.topics.get? topic ≠ some []

variable {log : List (Change η)}

theorem shows_empty : (empty : Bridge η).Shows [] := by
  refine ⟨fun topic => rfl, rfl, fun topic => ?_⟩
  simp [empty, Entries.get?]

theorem Shows.subscribe (hb : b.Shows log) :
    (b.subscribe topic h).1.Shows (log ++ [.made (b.subscribe topic h).2 h]) := by
  refine ⟨fun topic' => ?handlers, ?ids, fun topic' => ?empty⟩
  case handlers =>
    rw [handlers_subscribe, live_made, hb.handlers_eq, List.filter_append]
    show (if topic = topic' then _ else _) = _
    by_cases htopic : topic = topic' <;> simp [htopic, Bridge.subscribe]
  case ids =>
    rw [subscribed_append, List.map_append, hb.ids_eq]
    exact List.range_succ.symm
  case empty =>
    rw [Bridge.subscribe, Entries.get?_put]
    split
    · simp
    · exact hb.no_empty topic'

@[simp] theorem nextId_unsubscribe : (b.unsubscribe s).nextId = b.nextId := by
  unfold unsubscribe
  split
  · rfl
  · split <;> rfl

theorem no_empty_unsubscribe (hb : ∀ topic, b.topics.get? topic ≠ some []) (topic : String) :
    (b.unsubscribe s).topics.get? topic ≠ some [] := by
  unfold unsubscribe
  split
  · exact hb topic
  · split
    · rw [Entries.get?_erase]
      split
      · simp
      · exact hb topic
    · rename_i hs hne
      rw [Entries.get?_put]
      split
      · simpa using hne
      · exact hb topic

theorem Shows.unsubscribe (hb : b.Shows log) : (b.unsubscribe s).Shows (log ++ [.withdrawn s]) := by
  refine ⟨fun topic => ?handlers, ?ids, no_empty_unsubscribe hb.no_empty⟩
  case handlers =>
    rw [handlers_unsubscribe, live_withdrawn, hb.handlers_eq, List.filter_filter]
    -- Within its topic a subscription is known by its number alone.
    have hsame : ∀ e : Subscription × η, e.1.topic = s.topic → (e.1.id = s.id ↔ e.1 = s) := by
      rintro ⟨⟨topic, id⟩, h⟩ htopic
      obtain ⟨topic', id'⟩ := s
      simp_all
    split
    · rename_i htopic
      rw [List.filter_map, List.filter_filter]
      congr 1
      apply List.filter_congr
      intro e _
      by_cases he : e.1.topic = topic
      · simp [he, hsame e (he.trans htopic.symm)]
      · simp [he]
    · rename_i htopic
      congr 1
      apply List.filter_congr
      intro e _
      by_cases he : e.1.topic = topic
      · have hne : e.1 ≠ s := fun hes => htopic (hes ▸ he)
        simp [he, hne]
      · simp [he]
  case ids =>
    rw [subscribed_append, nextId_unsubscribe, ← hb.ids_eq]
    simp [subscribed]

theorem Shows.clear (hb : b.Shows log) : b.clear.Shows (log ++ [.cleared]) := by
  refine ⟨fun topic => ?_, ?_, fun topic => ?_⟩
  · rw [live_cleared]
    rfl
  · rw [subscribed_append, show b.clear.nextId = b.nextId from rfl, ← hb.ids_eq]
    simp [subscribed]
  · simp [Bridge.clear, Entries.get?]

/-! ## What a shown log means for a subscription -/

theorem Shows.nodup_subscribed (hb : b.Shows log) :
    ((subscribed log).map fun e => e.1.id).Nodup := by
  rw [hb.ids_eq]
  exact List.nodup_range

theorem Shows.ids_sublist (hb : b.Shows log) (topic : String) :
    ((b.handlers topic).map Prod.fst).Sublist ((subscribed log).map fun e => e.1.id) := by
  rw [hb.handlers_eq, List.map_map]
  exact List.Sublist.map _ (List.filter_sublist.trans live_sublist_subscribed)

theorem Shows.nodup_handlers (hb : b.Shows log) (topic : String) :
    ((b.handlers topic).map Prod.fst).Nodup :=
  hb.nodup_subscribed.sublist (hb.ids_sublist topic)

theorem Shows.isActive_iff (hb : b.Shows log) : b.isActive s ↔ s ∈ (live log).map Prod.fst := by
  rw [Bridge.isActive_iff, hb.handlers_eq, List.map_map]
  simp only [List.mem_map, List.mem_filter, decide_eq_true_eq]
  constructor
  · rintro ⟨⟨r, h⟩, ⟨hr, htopic⟩, hid⟩
    refine ⟨(r, h), hr, ?_⟩
    obtain ⟨topic, id⟩ := r
    obtain ⟨topic', id'⟩ := s
    simp_all
  · rintro ⟨e, he, rfl⟩
    exact ⟨e, ⟨he, rfl⟩, rfl⟩

theorem unsubscribe_eq_self (hempty : ∀ topic, b.topics.get? topic ≠ some [])
    (hs : b.isActive s = false) : b.unsubscribe s = b := by
  unfold unsubscribe
  split
  · rfl
  · rename_i hs' hsome
    have hkept : hs'.filter (fun e => decide (e.1 ≠ s.id)) = hs' := by
      apply List.filter_eq_self.mpr
      intro e he
      have hmem : e ∈ b.handlers s.topic := by
        rwa [handlers, hsome]
      by_contra hid
      have hactive : b.isActive s = true :=
        Bridge.isActive_iff.mpr (List.mem_map.mpr ⟨e, hmem, by simpa using hid⟩)
      simp [hactive] at hs
    rw [hkept]
    split
    · exact absurd hsome (hempty s.topic)
    · rw [Entries.put_eq_self hsome]

/-- A registry against a log of all that was done to it. -/
structure Matches (b : Bridge η) (log : List (Change η)) : Prop where
  /-- The handlers of a topic are those of its live subscriptions, in the order they were made. -/
  handlers_eq : ∀ topic, b.handlers topic =
    ((live log).filter fun e => e.1.topic = topic).map fun e => (e.1.id, e.2)
  count_eq : ∀ topic, b.count topic = ((live log).filter fun e => e.1.topic = topic).length
  isActive_iff : ∀ s, b.isActive s ↔ s ∈ (live log).map Prod.fst
  /-- Every subscription has a number of its own. -/
  ids_eq : (subscribed log).map (fun e => e.1.id) = List.range b.nextId
  unsubscribe_twice : ∀ s, (b.unsubscribe s).unsubscribe s = b.unsubscribe s
  /-- Withdrawing takes out the one handler of the number, if it is there. -/
  unsubscribe_own : ∀ s,
    (b.unsubscribe s).handlers s.topic =
        (b.handlers s.topic).filter (fun e => decide (e.1 ≠ s.id)) ∧
      ((b.handlers s.topic).filter fun e => e.1 = s.id).length ≤ 1
  unsubscribe_other : ∀ s topic, topic ≠ s.topic →
    (b.unsubscribe s).handlers topic = b.handlers topic
  /-- What was made before a clear is over, and withdrawing it does nothing. -/
  stale : ∀ before after, log = before ++ .cleared :: after → ∀ s h, .made s h ∈ before →
    b.isActive s = false ∧ b.unsubscribe s = b

theorem isActive_unsubscribe : (b.unsubscribe s).isActive s = false := by
  rw [Bool.eq_false_iff, ne_eq, Bridge.isActive_iff, handlers_unsubscribe, if_pos rfl]
  simp

theorem Shows.isActive_of_cleared {before after : List (Change η)}
    (hb : b.Shows (before ++ .cleared :: after)) (hs : .made s h ∈ before) :
    b.isActive s = false := by
  rw [Bool.eq_false_iff, ne_eq, hb.isActive_iff, live_of_cleared]
  intro hlive
  obtain ⟨e, he, rfl⟩ := List.mem_map.mp hlive
  -- The number would have been given before the clear and again behind it.
  have hnodup := hb.nodup_subscribed
  rw [subscribed_append, List.map_append, List.nodup_append] at hnodup
  refine hnodup.2.2 e.1.id ?_ e.1.id ?_ rfl
  · exact List.mem_map_of_mem (f := fun e => e.1.id) (mem_subscribed_iff.mpr hs)
  · exact List.mem_map_of_mem (f := fun e => e.1.id) (live_sublist_subscribed.subset he)

theorem Shows.matches (hb : b.Shows log) : b.Matches log where
  handlers_eq := hb.handlers_eq
  count_eq topic := by rw [count, hb.handlers_eq, List.length_map]
  isActive_iff s := hb.isActive_iff
  ids_eq := hb.ids_eq
  unsubscribe_twice s :=
    unsubscribe_eq_self (no_empty_unsubscribe hb.no_empty) isActive_unsubscribe
  unsubscribe_own s := by
    refine ⟨by rw [handlers_unsubscribe, if_pos rfl], ?_⟩
    have hle := List.nodup_iff_count_le_one.mp (hb.nodup_handlers s.topic) s.id
    rw [List.count, List.countP_map, List.countP_eq_length_filter] at hle
    exact hle
  unsubscribe_other s topic htopic := by rw [handlers_unsubscribe, if_neg (Ne.symm htopic)]
  stale before after hlog s h hs := by
    subst hlog
    have hinactive := hb.isActive_of_cleared hs
    exact ⟨hinactive, unsubscribe_eq_self hb.no_empty hinactive⟩

end Bridge

end FrameScope
