import FrameScope.Insurance.Fetcher
import FrameScope.Proofs.Insurance.Tracker

/-!
# Requests that come to an end in any order

Whatever happens to a fetcher (`Fetcher.Move`): a call, or the end of a request at any time, given up
or not. `Fetcher.Sound` is what all of it preserves (`Sound.step`): only the request in flight may be
alive, and only its ticket is current, so that no other answer shows.
-/

namespace FrameScope

/-- Whether a view is the outcome of a request. -/
def InsuranceView.isOutcome : InsuranceView → Bool
  | .loaded _ _ => true
  | .failed _ _ => true
  | _ => false

namespace Fetcher

/-- What can happen to a fetcher. -/
inductive Move where
  | select (entity : String)
  | refresh
  | clear
  /-- A request ends with an answer. -/
  | finish (request : Nat) (answer : InsuranceAnswer)
  /-- From now on there is insurance to ask for, or there is none. -/
  | offer (supported : Bool)

namespace Move

/-- Whether a move is a call, and not something that happens by itself. -/
def isCall : Move → Bool
  | .select _ => true
  | .refresh => true
  | .clear => true
  | _ => false

/-- Whether a move is a call for a request. -/
def isRequest : Move → Bool
  | .select _ => true
  | .refresh => true
  | _ => false

end Move

def step (f : Fetcher) : Move → Fetcher
  | .select entity => (f.select entity).1
  | .refresh => f.refresh.1
  | .clear => f.clear
  | .finish i answer => f.finish i answer
  | .offer supported => { f with supported := supported }

def run (f : Fetcher) (moves : List Move) : Fetcher := moves.foldl step f

@[simp] theorem run_nil (f : Fetcher) : f.run [] = f := rfl

@[simp] theorem run_cons (f : Fetcher) (m : Move) (ms : List Move) :
    f.run (m :: ms) = (f.step m).run ms := rfl

theorem run_append (f : Fetcher) (ms ns : List Move) : f.run (ms ++ ns) = (f.run ms).run ns :=
  List.foldl_append

variable {f : Fetcher} {t : Tracker} {i : Nat} {r : Request} {e : String}

@[simp] theorem tracker_abort (f : Fetcher) : f.abort.tracker = f.tracker := by
  unfold abort
  split <;> rfl

@[simp] theorem supported_abort (f : Fetcher) : f.abort.supported = f.supported := by
  unfold abort
  split <;> rfl

/-! ### What every move preserves -/

/-- What is shown fits the request in flight: without one there is nothing to show, and with one it
is the request of the selected entity, not given up, whose answer shows once it has ended. -/
def Shown (f : Fetcher) : Prop :=
  match f.inFlight with
  | none =>
    (f.view = .idle ∧ f.tracker.selected = none) ∨
      ∃ e, f.view = .unavailable e ∧ f.tracker.selected = some e
  | some i => ∃ r e, f.requests[i]? = some r ∧ r.ticket = ⟨f.tracker.generation, e⟩ ∧
      f.tracker.selected = some e ∧ r.aborted = false ∧
        if r.finished then ∃ answer, f.view = .ofAnswer e answer else f.view = .loading e

/-- No ticket is of a later generation; only the one in flight is of the present generation, and only
its request may be alive. -/
structure Sound (f : Fetcher) : Prop where
  issued : ∀ (i : Nat) (r : Request), f.requests[i]? = some r →
    r.ticket.generation ≤ f.tracker.generation
  current : ∀ (i : Nat) (r : Request), f.requests[i]? = some r →
    r.ticket.generation = f.tracker.generation → f.inFlight = some i
  alive : ∀ (i : Nat) (r : Request), f.requests[i]? = some r → r.isAlive = true → f.inFlight = some i
  shown : f.Shown

/-- Nothing is in flight, no ticket is current and no request is alive. -/
structure Retired (f : Fetcher) : Prop where
  inFlight : f.inFlight = none
  stale : ∀ (i : Nat) (r : Request), f.requests[i]? = some r →
    r.ticket.generation < f.tracker.generation
  dead : ∀ (i : Nat) (r : Request), f.requests[i]? = some r → r.isAlive = false

/-- A fetcher that nothing has happened to. -/
def fresh (supported : Bool) : Fetcher := { supported := supported }

theorem sound_fresh (supported : Bool) : (fresh supported).Sound where
  issued i r h := by simp [fresh] at h
  current i r h := by simp [fresh] at h
  alive i r h := by simp [fresh] at h
  shown := .inl ⟨rfl, rfl⟩

theorem Sound.retired_abort (h : f.Sound) (ht : f.tracker.generation < t.generation) :
    ({ f with tracker := t } : Fetcher).abort.Retired := by
  obtain ⟨supported, tracker, requests, _ | j⟩ := f
  · refine ⟨rfl, fun i r hr => Nat.lt_of_le_of_lt (h.issued i r hr) ht, fun i r hr => ?_⟩
    by_contra hne
    exact absurd (h.alive i r hr (by simpa using hne)) (by simp)
  · have hbefore (i : Nat) (r : Request)
        (hr : (requests.modify j fun r => { r with aborted := true })[i]? = some r) :
        ∃ q, requests[i]? = some q ∧ r = if j = i then { q with aborted := true } else q := by
      rw [List.getElem?_modify] at hr
      obtain ⟨q, hq, rfl⟩ := Option.map_eq_some_iff.mp hr
      exact ⟨q, hq, by split <;> rfl⟩
    refine ⟨rfl, fun i r hr => ?_, fun i r hr => ?_⟩
    · obtain ⟨q, hq, rfl⟩ := hbefore i r hr
      have := h.issued i q hq
      split <;> exact Nat.lt_of_le_of_lt this ht
    · obtain ⟨q, hq, rfl⟩ := hbefore i r hr
      by_cases hji : j = i
      · simp [hji, Request.isAlive]
      · rw [if_neg hji]
        by_contra hne
        exact hji (Option.some.inj (h.alive i q hq (by simpa using hne)))

theorem Retired.sound (h : f.Retired)
    (hshown : (f.view = .idle ∧ f.tracker.selected = none) ∨
      ∃ e, f.view = .unavailable e ∧ f.tracker.selected = some e) : f.Sound where
  issued i r hr := Nat.le_of_lt (h.stale i r hr)
  current i r hr hcurrent := absurd hcurrent (Nat.ne_of_lt (h.stale i r hr))
  alive i r hr halive := by rw [h.dead i r hr] at halive; simp at halive
  shown := by rw [Shown, h.inFlight]; exact hshown

theorem Retired.sound_launch (h : f.Retired) (hselected : f.tracker.selected = some e)
    (hview : f.view = .loading e) :
    ({ f with requests := f.requests ++ [{ ticket := ⟨f.tracker.generation, e⟩ }],
              inFlight := some f.requests.length } : Fetcher).Sound := by
  have hold (i : Nat) (r : Request)
      (hr : (f.requests ++ [{ ticket := ⟨f.tracker.generation, e⟩ }])[i]? = some r) :
      f.requests[i]? = some r ∨
        i = f.requests.length ∧ r = { ticket := ⟨f.tracker.generation, e⟩ } := by
    rcases Nat.lt_trichotomy i f.requests.length with hlt | rfl | hgt
    · rw [List.getElem?_append_left hlt] at hr
      exact .inl hr
    · rw [List.getElem?_append_right (Nat.le_refl _), Nat.sub_self] at hr
      exact .inr ⟨rfl, (Option.some.inj hr).symm⟩
    · rw [List.getElem?_eq_none (by simp; omega)] at hr
      simp at hr
  refine ⟨fun i r hr => ?_, fun i r hr hcurrent => ?_, fun i r hr halive => ?_, ?_⟩
  · rcases hold i r hr with hr | ⟨-, rfl⟩
    · exact Nat.le_of_lt (h.stale i r hr)
    · exact Nat.le_refl _
  · rcases hold i r hr with hr | ⟨rfl, -⟩
    · exact absurd hcurrent (Nat.ne_of_lt (h.stale i r hr))
    · rfl
  · rcases hold i r hr with hr | ⟨rfl, -⟩
    · rw [h.dead i r hr] at halive
      simp at halive
    · rfl
  · exact ⟨_, e, List.getElem?_concat_length, rfl, hselected, rfl, hview⟩

theorem Retired.sound_start (h : ({ f with tracker := t } : Fetcher).abort.Retired)
    (hselected : t.selected = some e) (hview : t.view = .loading e) :
    ({ f with tracker := t }.start ⟨t.generation, e⟩).1.Sound := by
  have htracker : ({ f with tracker := t } : Fetcher).abort.tracker = t := tracker_abort _
  unfold start
  dsimp only
  split
  · have hlaunch := h.sound_launch (e := e) (by rw [htracker, hselected])
      (by rw [view, htracker, hview])
    rw [htracker] at hlaunch ⊢
    exact hlaunch
  · have hshown : ({ f with tracker := t } : Fetcher).abort.tracker.commitUnavailable
        ⟨t.generation, e⟩ = ({ t with view := .unavailable e }, true) := by
      rw [htracker, Tracker.commitUnavailable, Tracker.settle_of_current rfl]
    rw [hshown]
    refine Retired.sound ⟨h.inFlight, fun i r hr => ?_, h.dead⟩ (.inr ⟨e, rfl, hselected⟩)
    have hstale := h.stale i r hr
    rwa [htracker] at hstale

theorem Sound.select (h : f.Sound) (e : String) : (f.select e).1.Sound :=
  Retired.sound_start (h.retired_abort (Nat.lt_succ_self _)) rfl rfl

theorem Sound.refresh (h : f.Sound) : f.refresh.1.Sound := by
  unfold Fetcher.refresh Tracker.refresh
  cases hselected : f.tracker.selected with
  | none => exact h
  | some e =>
    exact Retired.sound_start (t := (f.tracker.issue e).1)
      (h.retired_abort (Nat.lt_succ_self _)) hselected rfl

theorem Sound.clear (h : f.Sound) : f.clear.Sound := by
  refine (h.retired_abort (t := f.tracker.clear) (Nat.lt_succ_self _)).sound (.inl ?_)
  rw [view, tracker_abort]
  exact ⟨rfl, rfl⟩

/-! ### The end of a request -/

theorem finish_of_finished {answer : InsuranceAnswer}
    (h : ∀ r, f.requests[i]? = some r → r.finished = true) : f.finish i answer = f := by
  unfold finish
  split
  · rfl
  · rename_i r hr
    rw [if_pos (h r hr)]

theorem finish_of_not_finished {answer : InsuranceAnswer} (hr : f.requests[i]? = some r)
    (hfinished : r.finished = false) :
    f.finish i answer =
      { f with tracker := (f.tracker.commit r.ticket answer).1,
               requests := f.requests.set i { r with finished := true } } := by
  simp [finish, hr, hfinished]

theorem commit_of_stale {ticket : Ticket} {answer : InsuranceAnswer}
    (h : ticket.generation ≠ t.generation) : (t.commit ticket answer).1 = t := by
  rw [Tracker.commit, Tracker.settle_of_stale h]

theorem commit_of_current {ticket : Ticket} {answer : InsuranceAnswer}
    (h : ticket.generation = t.generation) :
    (t.commit ticket answer).1 = { t with view := .ofAnswer ticket.entity answer } := by
  rw [Tracker.commit, Tracker.settle_of_current h]

theorem commit_generation (t : Tracker) (ticket : Ticket) (answer : InsuranceAnswer) :
    (t.commit ticket answer).1.generation = t.generation := by
  by_cases h : ticket.generation = t.generation
  · rw [commit_of_current h]
  · rw [commit_of_stale h]

/-- What is shown once a request has ended: its answer if it was in flight, else what was shown. -/
theorem Sound.shown_finish (h : f.Sound) {answer : InsuranceAnswer} (hr : f.requests[i]? = some r)
    (hfinished : r.finished = false) :
    Shown { f with tracker := (f.tracker.commit r.ticket answer).1,
                   requests := f.requests.set i { r with finished := true } } := by
  obtain ⟨supported, tracker, requests, _ | j⟩ := f
  · have hstale : r.ticket.generation ≠ tracker.generation := fun hcurrent =>
      absurd (h.current i r hr hcurrent) (by simp)
    dsimp only
    rw [commit_of_stale hstale]
    exact h.shown
  · obtain ⟨q, e, hq, hticket, hselected, haborted, hview⟩ := h.shown
    dsimp only at hr hq hticket hselected hview ⊢
    by_cases hji : j = i
    · obtain rfl : q = r := Option.some.inj (hq.symm.trans (hji ▸ hr))
      have hset : (requests.set i { q with finished := true })[j]? =
          some { q with finished := true } := by
        obtain ⟨hlt, -⟩ := List.getElem?_eq_some_iff.mp hr
        rw [hji, List.getElem?_set_self hlt]
      have hentity : q.ticket.entity = e := by rw [hticket]
      rw [commit_of_current (by rw [hticket]), hentity]
      exact ⟨_, e, hset, hticket, hselected, haborted, answer, rfl⟩
    · have hstale : r.ticket.generation ≠ tracker.generation := fun hcurrent =>
        hji (Option.some.inj (h.current i r hr hcurrent))
      rw [commit_of_stale hstale]
      have hset : (requests.set i { r with finished := true })[j]? = some q := by
        rw [List.getElem?_set_ne (Ne.symm hji), hq]
      exact ⟨q, e, hset, hticket, hselected, haborted, hview⟩

theorem Sound.finish (h : f.Sound) (i : Nat) (answer : InsuranceAnswer) :
    (f.finish i answer).Sound := by
  by_cases hended : ∀ r, f.requests[i]? = some r → r.finished = true
  · rw [finish_of_finished hended]
    exact h
  · push Not at hended
    obtain ⟨r, hr, hfinished⟩ := hended
    rw [ne_eq, Bool.not_eq_true] at hfinished
    have hlookup (j : Nat) (q : Request)
        (hq : (f.requests.set i { r with finished := true })[j]? = some q) :
        (j = i ∧ q = { r with finished := true }) ∨ f.requests[j]? = some q := by
      rw [List.getElem?_set] at hq
      split at hq
      · rename_i hij
        split at hq
        · exact .inl ⟨hij.symm, (Option.some.inj hq).symm⟩
        · simp at hq
      · exact .inr hq
    rw [finish_of_not_finished hr hfinished]
    refine ⟨fun j q hq => ?_, fun j q hq hcurrent => ?_, fun j q hq halive => ?_,
      h.shown_finish hr hfinished⟩
    · rw [commit_generation]
      rcases hlookup j q hq with ⟨rfl, rfl⟩ | hq
      · exact h.issued j r hr
      · exact h.issued j q hq
    · rw [commit_generation] at hcurrent
      rcases hlookup j q hq with ⟨rfl, rfl⟩ | hq
      · exact h.current j r hr hcurrent
      · exact h.current j q hq hcurrent
    · rcases hlookup j q hq with ⟨rfl, rfl⟩ | hq
      · simp [Request.isAlive] at halive
      · exact h.alive j q hq halive

/-- **No move breaks what makes a fetcher sound.** -/
theorem Sound.step (h : f.Sound) (m : Move) : (f.step m).Sound := by
  cases m with
  | select e => exact h.select e
  | refresh => exact h.refresh
  | clear => exact h.clear
  | finish i answer => exact h.finish i answer
  | offer supported => exact ⟨h.issued, h.current, h.alive, h.shown⟩

theorem Sound.run (h : f.Sound) (ms : List Move) : (f.run ms).Sound := by
  induction ms generalizing f with
  | nil => exact h
  | cons m ms ih => exact ih (h.step m)

/-! ### What is shown -/

theorem Sound.request_of_loading (h : f.Sound) (hview : f.view = .loading e) :
    f.tracker.selected = some e ∧ ∃ i r, f.inFlight = some i ∧ f.requests[i]? = some r ∧
      r.finished = false ∧ r.aborted = false ∧ f.tracker.isCurrent r.ticket = true ∧
      r.ticket.entity = e := by
  have hshown := h.shown
  unfold Shown at hshown
  split at hshown
  · rcases hshown with ⟨hidle, -⟩ | ⟨_, hunavailable, -⟩
    · simp [hview] at hidle
    · simp [hview] at hunavailable
  · rename_i i hinFlight
    obtain ⟨r, e', hr, hticket, hselected, haborted, hanswer⟩ := hshown
    cases hfinished : r.finished with
    | true =>
      rw [if_pos hfinished, hview] at hanswer
      obtain ⟨_ | _, hanswer⟩ := hanswer <;> simp [InsuranceView.ofAnswer] at hanswer
    | false =>
      rw [if_neg (by simp [hfinished]), hview] at hanswer
      obtain rfl : e = e' := by simpa using hanswer
      exact ⟨hselected, i, r, hinFlight, hr, hfinished, haborted, by simp [Tracker.isCurrent, hticket],
        by rw [hticket]⟩

theorem Sound.request_of_isOutcome (h : f.Sound) (hview : f.view.isOutcome = true) :
    ∃ i r, f.inFlight = some i ∧ f.requests[i]? = some r ∧ r.finished = true := by
  have hshown := h.shown
  unfold Shown at hshown
  split at hshown
  · rcases hshown with ⟨hidle, -⟩ | ⟨_, hunavailable, -⟩
    · simp [hidle, InsuranceView.isOutcome] at hview
    · simp [hunavailable, InsuranceView.isOutcome] at hview
  · rename_i i hinFlight
    obtain ⟨r, e, hr, -, -, -, hanswer⟩ := hshown
    refine ⟨i, r, hinFlight, hr, ?_⟩
    by_contra hfinished
    rw [if_neg hfinished] at hanswer
    simp [hanswer, InsuranceView.isOutcome] at hview

theorem Sound.idle_of_selected (h : f.Sound) (hselected : f.tracker.selected = none) :
    f.view = .idle ∧ f.inFlight = none := by
  have hshown := h.shown
  unfold Shown at hshown
  split at hshown
  · rename_i hinFlight
    rcases hshown with ⟨hidle, -⟩ | ⟨_, -, hsome⟩
    · exact ⟨hidle, hinFlight⟩
    · simp [hselected] at hsome
  · obtain ⟨_, _, -, -, hsome, -⟩ := hshown
    simp [hselected] at hsome

theorem Sound.entity?_view (h : f.Sound) : f.view.entity? = f.tracker.selected := by
  have hshown := h.shown
  unfold Shown at hshown
  split at hshown
  · rcases hshown with ⟨hidle, hnone⟩ | ⟨e, hunavailable, hsome⟩
    · rw [hidle, hnone, InsuranceView.entity?]
    · rw [hunavailable, hsome, InsuranceView.entity?]
  · obtain ⟨r, e, -, -, hsome, -, hanswer⟩ := hshown
    rw [hsome]
    split at hanswer
    · obtain ⟨answer, hanswer⟩ := hanswer
      rw [hanswer, InsuranceView.entity?_ofAnswer]
    · rw [hanswer, InsuranceView.entity?]

theorem Sound.alive_unique (h : f.Sound) {j : Nat} {s : Request} (hi : f.requests[i]? = some r)
    (hj : f.requests[j]? = some s) (hr : r.isAlive = true) (hs : s.isAlive = true) : i = j :=
  Option.some.inj ((h.alive i r hi hr).symm.trans (h.alive j s hj hs))

/-! ### Between two calls -/

@[simp] theorem inFlight_finish (f : Fetcher) (i : Nat) (answer : InsuranceAnswer) :
    (f.finish i answer).inFlight = f.inFlight := by
  unfold finish
  split
  · rfl
  · split <;> rfl

theorem Sound.tracker_finish (h : f.Sound) {answer : InsuranceAnswer}
    (hi : f.inFlight = some i → ∀ r, f.requests[i]? = some r → r.finished = true) :
    (f.finish i answer).tracker = f.tracker := by
  by_cases hended : ∀ r, f.requests[i]? = some r → r.finished = true
  · rw [finish_of_finished hended]
  · push Not at hended
    obtain ⟨r, hr, hfinished⟩ := hended
    rw [finish_of_not_finished hr (by simpa using hfinished)]
    exact commit_of_stale fun hcurrent => hfinished (hi (h.current i r hr hcurrent) r hr)

theorem Sound.view_step_of_isOutcome (h : f.Sound) (hview : f.view.isOutcome = true) {m : Move}
    (hm : m.isCall = false) : (f.step m).view = f.view := by
  obtain ⟨i, r, hinFlight, hr, hfinished⟩ := h.request_of_isOutcome hview
  cases m with
  | select e => simp [Move.isCall] at hm
  | refresh => simp [Move.isCall] at hm
  | clear => simp [Move.isCall] at hm
  | finish j answer =>
    refine congrArg Tracker.view (h.tracker_finish fun hj q hq => ?_)
    obtain rfl : i = j := Option.some.inj (hinFlight.symm.trans hj)
    obtain rfl : r = q := Option.some.inj (hr.symm.trans hq)
    exact hfinished
  | offer supported => rfl

theorem Sound.view_run_of_isOutcome (h : f.Sound) (hview : f.view.isOutcome = true) {ms : List Move}
    (hms : ∀ m ∈ ms, m.isCall = false) : (f.run ms).view = f.view := by
  induction ms generalizing f with
  | nil => rfl
  | cons m ms ih =>
    have hstep := h.view_step_of_isOutcome hview (hms m (by simp))
    rw [run_cons, ih (h.step m) (hstep ▸ hview) fun n hn => hms n (by simp [hn]), hstep]

theorem Sound.finish_of_isOutcome_step (h : f.Sound) {m : Move} (hm : m.isCall = false)
    (hbefore : f.view.isOutcome = false) (hafter : (f.step m).view.isOutcome = true) :
    ∃ i answer e, m = .finish i answer ∧ f.inFlight = some i ∧
      (f.step m).view = .ofAnswer e answer := by
  cases m with
  | select e => simp [Move.isCall] at hm
  | refresh => simp [Move.isCall] at hm
  | clear => simp [Move.isCall] at hm
  | offer supported => exact absurd (hbefore.symm.trans hafter) (by simp)
  | finish i answer =>
    have hchanged : (f.finish i answer).tracker ≠ f.tracker := fun hsame => by
      rw [show (f.step (.finish i answer)).view = f.view from congrArg Tracker.view hsame,
        hbefore] at hafter
      simp at hafter
    have hlast : ¬ (f.inFlight = some i → ∀ r, f.requests[i]? = some r → r.finished = true) :=
      fun hi => hchanged (h.tracker_finish hi)
    push Not at hlast
    obtain ⟨hinFlight, r, hr, hfinished⟩ := hlast
    have hshown := h.shown
    rw [Shown, hinFlight] at hshown
    obtain ⟨q, e, hq, hticket, -⟩ := hshown
    obtain rfl : q = r := Option.some.inj (hq.symm.trans hr)
    have hcommit : f.finish i answer = _ := finish_of_not_finished hr (by simpa using hfinished)
    have hcurrent : q.ticket.generation = f.tracker.generation := by rw [hticket]
    rw [commit_of_current hcurrent] at hcommit
    refine ⟨i, answer, e, rfl, hinFlight, ?_⟩
    rw [Fetcher.step, hcommit, view, hticket]

theorem finished_finish {answer : InsuranceAnswer} (hr : (f.finish i answer).requests[i]? = some r) :
    r.finished = true := by
  by_cases hended : ∀ r, f.requests[i]? = some r → r.finished = true
  · rw [finish_of_finished hended] at hr
    exact hended r hr
  · push Not at hended
    obtain ⟨q, hq, hfinished⟩ := hended
    rw [finish_of_not_finished hq (by simpa using hfinished)] at hr
    obtain ⟨hlt, -⟩ := List.getElem?_eq_some_iff.mp hq
    rw [List.getElem?_set_self hlt] at hr
    rw [← Option.some.inj hr]

theorem Sound.isOutcome_finish (h : f.Sound) (hinFlight : f.inFlight = some i)
    (answer : InsuranceAnswer) : (f.finish i answer).view.isOutcome = true := by
  have hshown := (h.finish i answer).shown
  rw [Shown, inFlight_finish, hinFlight] at hshown
  obtain ⟨r, e, hr, -, -, -, hanswer⟩ := hshown
  rw [if_pos (finished_finish hr)] at hanswer
  obtain ⟨_ | _, hanswer⟩ := hanswer <;> rw [hanswer] <;> rfl

theorem inFlight_step {m : Move} (hm : m.isCall = false) : (f.step m).inFlight = f.inFlight := by
  cases m with
  | select e => simp [Move.isCall] at hm
  | refresh => simp [Move.isCall] at hm
  | clear => simp [Move.isCall] at hm
  | finish i answer => exact inFlight_finish f i answer
  | offer supported => rfl

theorem Sound.outcome_run (h : f.Sound) {ms : List Move} (hms : ∀ m ∈ ms, m.isCall = false)
    (hbefore : f.view.isOutcome = false) (hafter : (f.run ms).view.isOutcome = true) :
    ∃ i answer e during after, ms = during ++ .finish i answer :: after ∧ f.inFlight = some i ∧
      (∀ other, .finish i other ∉ during) ∧ (f.run ms).view = .ofAnswer e answer := by
  induction ms generalizing f with
  | nil => exact absurd (hbefore.symm.trans hafter) (by simp)
  | cons m ms ih =>
    have hrest : ∀ n ∈ ms, n.isCall = false := fun n hn => hms n (by simp [hn])
    cases hview : (f.step m).view.isOutcome with
    | true =>
      obtain ⟨i, answer, e, rfl, hinFlight, hstep⟩ :=
        h.finish_of_isOutcome_step (hms m (by simp)) hbefore hview
      refine ⟨i, answer, e, [], ms, rfl, hinFlight, by simp, ?_⟩
      rw [run_cons, (h.step _).view_run_of_isOutcome hview hrest, hstep]
    | false =>
      obtain ⟨i, answer, e, during, after, rfl, hinFlight, hnone, hrun⟩ :=
        ih (h.step m) hrest hview hafter
      rw [inFlight_step (hms m (by simp))] at hinFlight
      refine ⟨i, answer, e, m :: during, after, rfl, hinFlight, fun other hmem => ?_, hrun⟩
      rcases List.mem_cons.mp hmem with rfl | hmem
      · exact absurd (hview.symm.trans (h.isOutcome_finish hinFlight other)) (by simp)
      · exact hnone other hmem

/-! ### The last call -/

@[simp] theorem length_requests_abort (f : Fetcher) : f.abort.requests.length = f.requests.length := by
  unfold abort
  split
  · rfl
  · exact List.length_modify _ _ _

@[simp] theorem inFlight_abort (f : Fetcher) : f.abort.inFlight = none := by
  unfold abort
  split
  · assumption
  · rfl

theorem view_start (f : Fetcher) (ticket : Ticket) (hview : f.view.isOutcome = false) :
    (f.start ticket).1.view.isOutcome = false := by
  unfold start
  dsimp only
  split
  · rw [view, tracker_abort]
    exact hview
  · rw [view, Tracker.commitUnavailable, Tracker.settle, tracker_abort]
    split
    · rfl
    · exact hview

theorem inFlight_start (ticket : Ticket) (h : (f.start ticket).1.inFlight = some i) :
    i = f.requests.length := by
  unfold start at h
  dsimp only at h
  split at h
  · simpa using h.symm
  · simp at h

theorem generation_start (f : Fetcher) (ticket : Ticket) :
    (f.start ticket).1.tracker.generation = f.tracker.generation := by
  unfold start
  dsimp only
  split
  · rw [tracker_abort]
  · rw [Tracker.commitUnavailable, Tracker.settle, tracker_abort]
    split <;> rfl

theorem Sound.step_of_isCall (h : f.Sound) {m : Move} (hm : m.isCall = true) :
    (f.step m).view.isOutcome = false ∧
      ∀ i, (f.step m).inFlight = some i → m.isRequest = true ∧ i = f.requests.length := by
  cases m with
  | select e =>
    exact ⟨view_start _ _ rfl, fun i hi =>
      ⟨rfl, inFlight_start (f := { f with tracker := (f.tracker.select e).1 }) _ hi⟩⟩
  | refresh =>
    rw [Fetcher.step, Fetcher.refresh, Tracker.refresh]
    cases hselected : f.tracker.selected with
    | none =>
      obtain ⟨hidle, hnone⟩ := h.idle_of_selected hselected
      exact ⟨by rw [Option.map_none]; exact hidle ▸ rfl, fun i hi => by simp [hnone] at hi⟩
    | some e =>
      exact ⟨view_start _ _ rfl, fun i hi =>
        ⟨rfl, inFlight_start (f := { f with tracker := (f.tracker.issue e).1 }) _ hi⟩⟩
  | clear =>
    refine ⟨?_, fun i hi => by simp [Fetcher.step, Fetcher.clear] at hi⟩
    rw [Fetcher.step, Fetcher.clear, view, tracker_abort]
    rfl
  | finish i answer => simp [Move.isCall] at hm
  | offer supported => simp [Move.isCall] at hm

theorem exists_last_call (ms : List Move) :
    (∀ m ∈ ms, m.isCall = false) ∨ ∃ before call rest, ms = before ++ call :: rest ∧
      call.isCall = true ∧ ∀ m ∈ rest, m.isCall = false := by
  induction ms with
  | nil => exact .inl (by simp)
  | cons m ms ih =>
    rcases ih with hnone | ⟨before, call, rest, rfl, hcall, hrest⟩
    · cases hm : m.isCall with
      | true => exact .inr ⟨[], m, ms, rfl, hm, hnone⟩
      | false => exact .inl (by simpa [hm] using hnone)
    · exact .inr ⟨m :: before, call, rest, rfl, hcall, hrest⟩

/-- An outcome is the first answer to the request that the last call started. -/
theorem Sound.outcome_of_run {ms : List Move} (h : f.Sound) (hbefore : f.view.isOutcome = false)
    (hafter : (f.run ms).view.isOutcome = true) (hnone : f.inFlight = none) :
    ∃ before call during i answer after e,
      ms = before ++ call :: during ++ .finish i answer :: after ∧ call.isRequest = true ∧
      (∀ m ∈ during ++ after, m.isCall = false) ∧ i = (f.run before).requests.length ∧
      (f.run (before ++ [call])).inFlight = some i ∧
      (∀ other, .finish i other ∉ during) ∧ (f.run ms).view = .ofAnswer e answer := by
  rcases exists_last_call ms with hms | ⟨before, call, rest, rfl, hcall, hrest⟩
  · obtain ⟨i, -, -, -, -, -, hinFlight, -⟩ := h.outcome_run hms hbefore hafter
    simp [hnone] at hinFlight
  · have hsound := (h.run before).step call
    obtain ⟨hview, hnew⟩ := (h.run before).step_of_isCall hcall
    rw [run_append, run_cons] at hafter
    obtain ⟨i, answer, e, during, after, rfl, hinFlight, hfirst, hshown⟩ :=
      hsound.outcome_run hrest hview hafter
    obtain ⟨hrequest, hi⟩ := hnew i hinFlight
    refine ⟨before, call, during, i, answer, after, e, by simp, hrequest, fun m hm => ?_, hi,
      by rw [run_append]; exact hinFlight, hfirst, by rw [run_append, run_cons, hshown]⟩
    exact hrest m (by simp at hm ⊢; tauto)

theorem selected_step_eq_none {m : Move} (h : f.tracker.selected = none) (hm : ∀ e, m ≠ .select e) :
    (f.step m).tracker.selected = none := by
  cases m with
  | select e => exact absurd rfl (hm e)
  | refresh => simp [Fetcher.step, Fetcher.refresh, Tracker.refresh, h]
  | clear => simp [Fetcher.step, Fetcher.clear, Tracker.clear]
  | finish i answer =>
    rw [Fetcher.step, Fetcher.finish]
    split
    · exact h
    · rename_i r _
      split
      · exact h
      · by_cases hcurrent : r.ticket.generation = f.tracker.generation
        · rw [commit_of_current hcurrent]
          exact h
        · rw [commit_of_stale hcurrent]
          exact h
  | offer supported => exact h

theorem selected_run_eq_none {ms : List Move} (h : f.tracker.selected = none)
    (hms : ∀ e, .select e ∉ ms) : (f.run ms).tracker.selected = none := by
  induction ms generalizing f with
  | nil => exact h
  | cons m ms ih =>
    refine ih (selected_step_eq_none h fun e he => hms e ?_) fun e he => hms e ?_
    · rw [he]
      exact List.mem_cons_self
    · exact List.mem_cons_of_mem _ he

theorem generation_step_le (f : Fetcher) (m : Move) :
    (f.step m).tracker.generation ≤ f.tracker.generation + if m.isCall then 1 else 0 := by
  cases m with
  | select e => rw [Fetcher.step, Fetcher.select, generation_start]; exact Nat.le_refl _
  | refresh =>
    rw [Fetcher.step, Fetcher.refresh, Tracker.refresh]
    cases f.tracker.selected with
    | none => simp
    | some e => rw [Option.map_some, generation_start]; exact Nat.le_refl _
  | clear => rw [Fetcher.step, Fetcher.clear, tracker_abort]; exact Nat.le_refl _
  | finish i answer =>
    rw [Fetcher.step, Fetcher.finish]
    split
    · simp
    · split
      · simp
      · simp [commit_generation]
  | offer supported => simp [Fetcher.step]

/-- There are no more generations than calls, so that a word is wide enough to count them. -/
theorem generation_run_le (f : Fetcher) (ms : List Move) :
    (f.run ms).tracker.generation ≤ f.tracker.generation + ms.countP Move.isCall := by
  induction ms generalizing f with
  | nil => simp
  | cons m ms ih =>
    have hstep := generation_step_le f m
    have hrest := ih (f.step m)
    rw [run_cons, List.countP_cons]
    omega

/-- **Whatever happens, in any order, only the request of the last call shows.** -/
theorem run_shows_last_request (supported : Bool) (ms : List Move) :
    (∀ e, ((fresh supported).run ms).view = .loading e →
      ((fresh supported).run ms).tracker.selected = some e ∧
      ∃ i r, ((fresh supported).run ms).inFlight = some i ∧
        ((fresh supported).run ms).requests[i]? = some r ∧ r.finished = false ∧ r.aborted = false ∧
        ((fresh supported).run ms).tracker.isCurrent r.ticket = true ∧ r.ticket.entity = e) ∧
    (((fresh supported).run ms).view.isOutcome = true →
      (∃ before call during i answer after e,
        ms = before ++ call :: during ++ .finish i answer :: after ∧ call.isRequest = true ∧
        (∀ m ∈ during ++ after, m.isCall = false) ∧
        i = ((fresh supported).run before).requests.length ∧
        ((fresh supported).run (before ++ [call])).inFlight = some i ∧
        (∀ other, .finish i other ∉ during) ∧
        ((fresh supported).run ms).tracker.selected = some e ∧
        ((∃ lines, answer = .ok lines ∧ ((fresh supported).run ms).view = .loaded e lines) ∨
          ∃ cause, answer = .error cause ∧
            ((fresh supported).run ms).view = .failed e cause.message)) ∧
      ∀ more : List Move, (∀ m ∈ more, m.isCall = false) →
        ((fresh supported).run (ms ++ more)).view = ((fresh supported).run ms).view) ∧
    (∀ (i j : Nat) (r s : Request), ((fresh supported).run ms).requests[i]? = some r →
      ((fresh supported).run ms).requests[j]? = some s → r.isAlive = true → s.isAlive = true → i = j) ∧
    (∀ before after, ms = before ++ .clear :: after → (∀ e, .select e ∉ after) →
      ((fresh supported).run ms).view = .idle) := by
  have hsound := (sound_fresh supported).run ms
  refine ⟨fun e => hsound.request_of_loading, fun hview => ⟨?_, fun more hmore => ?_⟩,
    fun i j r s => hsound.alive_unique, fun before after hms hselect => ?_⟩
  · obtain ⟨before, call, during, i, answer, after, e, hms, hrequest, hcalm, hi, hinFlight, hfirst,
      hshown⟩ := (sound_fresh supported).outcome_of_run rfl hview rfl
    have hselected : ((fresh supported).run ms).tracker.selected = some e := by
      rw [← hsound.entity?_view, hshown, InsuranceView.entity?_ofAnswer]
    refine ⟨before, call, during, i, answer, after, e, hms, hrequest, hcalm, hi, hinFlight, hfirst,
      hselected, ?_⟩
    cases answer with
    | ok lines => exact .inl ⟨lines, rfl, hshown⟩
    | error cause => exact .inr ⟨cause, rfl, hshown⟩
  · rw [run_append, hsound.view_run_of_isOutcome hview hmore]
  · refine (hsound.idle_of_selected ?_).1
    rw [hms, run_append, run_cons]
    refine selected_run_eq_none ?_ hselect
    simp [Fetcher.step, Fetcher.clear, Tracker.clear]

/-- An answer for "A" that comes after "B" was selected, and after the answer for "B". -/
def lateMoves : List Move :=
  [.select "A", .select "B", .finish 1 (.ok [.usedUp]), .finish 0 (.error (.source ["gone"]))]

/-- While "B" is selected it has the one request that counts; its lines, or why there are none, stay
until the next call, and a late answer does not bring back what was cleared. -/
theorem run_shows_last_request_lateMoves :
    (∃ i r, ((fresh true).run [.select "A", .select "B"]).inFlight = some i ∧
      ((fresh true).run [.select "A", .select "B"]).requests[i]? = some r ∧
      r.finished = false ∧ r.aborted = false ∧
      ((fresh true).run [.select "A", .select "B"]).tracker.isCurrent r.ticket = true ∧
      r.ticket.entity = "B") ∧
    ((fresh true).run (lateMoves ++ [.offer false])).view = .loaded "B" [.usedUp] ∧
    ((fresh true).run ([.select "A", .finish 0 (.error (.source ["gone"]))] ++ [.offer false])).view =
      .failed "A" "insurance fetch failed: gone" ∧
    ((fresh true).run (lateMoves ++ [.clear, .finish 1 (.ok [])])).view = .idle := by
  refine ⟨((run_shows_last_request true [.select "A", .select "B"]).1 "B" rfl).2, ?_, ?_,
    (run_shows_last_request true _).2.2.2 lateMoves [.finish 1 (.ok [])] rfl (by simp)⟩
  · rw [((run_shows_last_request true lateMoves).2.1 rfl).2 _ (by simp [Move.isCall])]
    rfl
  · rw [((run_shows_last_request true [.select "A", .finish 0 _]).2.1 rfl).2 _
      (by simp [Move.isCall])]
    rfl

end Fetcher

end FrameScope
