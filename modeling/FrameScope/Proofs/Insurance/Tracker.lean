import FrameScope.Insurance.Tracker
import Mathlib.Tactic.Common

/-!
# Tickets handed back in any order

`Ticketing` is a tracker with the tickets it has issued; any of them may come back at any time, any
number of times and with any outcome (`Ticketing.Op`). What a step can do is said once
(`Ticketing.steps`). From it follow the invariant of a run (`Ticketing.Sound`: generations of
tickets rise, none is beyond the present one, and the ticket of the present one names the selected
entity) and that a ticket stays current exactly as long as the selection is left alone
(`Ticketing.current_run_iff`).
-/

namespace FrameScope

/-! ### Outcomes -/

/-- What a request comes to. -/
inductive RequestOutcome where
  | answered (answer : InsuranceAnswer)
  /-- There was no insurance to ask for. -/
  | unavailable

/-- A line with nothing left of it. -/
def InsuranceLine.usedUp : InsuranceLine := ⟨"I", 1, .zero, .zero⟩

namespace InsuranceView

/-- What an entity's panel shows of an outcome. -/
def outcome (entity : String) : RequestOutcome → InsuranceView
  | .answered (.ok lines) => .loaded entity lines
  | .answered (.error cause) => .failed entity cause.message
  | .unavailable => .unavailable entity

theorem outcome_answered (e : String) (answer : InsuranceAnswer) :
    outcome e (.answered answer) = .ofAnswer e answer := by
  cases answer <;> rfl

theorem entity?_outcome (e : String) (o : RequestOutcome) : (outcome e o).entity? = some e := by
  rcases o with (cause | lines) | _ <;> rfl

theorem entity?_ofAnswer (e : String) (answer : InsuranceAnswer) :
    (ofAnswer e answer).entity? = some e := by
  rw [← outcome_answered, entity?_outcome]

theorem eq_idle_iff {v : InsuranceView} : v = .idle ↔ v.entity? = none := by
  cases v <;> simp [entity?]

end InsuranceView

namespace Tracker

variable {t : Tracker} {ticket : Ticket} {view : InsuranceView}

theorem settle_of_stale (h : ticket.generation ≠ t.generation) :
    t.settle ticket view = (t, false) := by
  have hstale : t.isCurrent ticket = false := by simpa [isCurrent] using h
  simp [settle, hstale]

theorem settle_of_current (h : ticket.generation = t.generation) :
    t.settle ticket view = ({ t with view := view }, true) := by
  have hcurrent : t.isCurrent ticket = true := by simpa [isCurrent] using h
  simp [settle, hcurrent]

/-- Hands a ticket back with what its request came to. -/
def conclude (t : Tracker) (ticket : Ticket) : RequestOutcome → Tracker × Bool
  | .answered answer => t.commit ticket answer
  | .unavailable => t.commitUnavailable ticket

theorem conclude_eq (t : Tracker) (ticket : Ticket) (o : RequestOutcome) :
    t.conclude ticket o = t.settle ticket (.outcome ticket.entity o) := by
  cases o with
  | answered answer => rw [conclude, Tracker.commit, InsuranceView.outcome_answered]
  | unavailable => rfl

theorem refresh_eq (t : Tracker) : t.refresh = t.selected.map t.select := by
  obtain ⟨generation, selected, view⟩ := t
  cases selected <;> rfl

end Tracker

/-! ### Steps -/

/-- A tracker and the tickets it has issued so far, in order. -/
structure Ticketing where
  tracker : Tracker := {}
  tickets : List Ticket := []

namespace Ticketing

/-- What is done with a tracker; a ticket is known by its number. -/
inductive Op where
  | select (entity : String)
  | refresh
  | clear
  | conclude (ticket : Nat) (outcome : RequestOutcome)

/-- Whether an operation is about the selection, and not about a request under way. -/
def Op.isChange : Op → Bool
  | .conclude _ _ => false
  | _ => true

def issue (s : Ticketing) (issued : Tracker × Ticket) : Ticketing :=
  ⟨issued.1, s.tickets ++ [issued.2]⟩

def step (s : Ticketing) : Op → Ticketing
  | .select entity => s.issue (s.tracker.select entity)
  | .refresh =>
    match s.tracker.refresh with
    | some issued => s.issue issued
    | none => s
  | .clear => { s with tracker := s.tracker.clear }
  | .conclude i outcome =>
    match s.tickets[i]? with
    | some ticket => { s with tracker := (s.tracker.conclude ticket outcome).1 }
    | none => s

def run (s : Ticketing) (ops : List Op) : Ticketing := ops.foldl step s

/-- Before anything is done. -/
def fresh : Ticketing := {}

@[simp] theorem run_nil (s : Ticketing) : s.run [] = s := rfl

@[simp] theorem run_cons (s : Ticketing) (op : Op) (ops : List Op) :
    s.run (op :: ops) = (s.step op).run ops := rfl

theorem run_append (s : Ticketing) (ops more : List Op) :
    s.run (ops ++ more) = (s.run ops).run more := List.foldl_append

variable {s : Ticketing} {op : Op} {ops : List Op} {k : Ticket}

/-- The state once an outcome shows for an entity. -/
def shown (s : Ticketing) (entity : String) (o : RequestOutcome) : Ticketing :=
  { s with tracker := { s.tracker with view := .outcome entity o } }

/-- **What a step can do.** A call on the selection issues a ticket for the entity selected from
then on, takes the selection away, or finds none; a ticket that comes back shows its outcome when it
is current, and does nothing else. -/
inductive Steps (s : Ticketing) (op : Op) : Prop
  | issued (hop : op.isChange = true) (e : String) (heq : s.step op = s.issue (s.tracker.select e))
  | cleared (hop : op.isChange = true) (heq : s.step op = { s with tracker := s.tracker.clear })
  | unselected (hop : op.isChange = true) (hnone : s.tracker.selected = none)
      (heq : s.step op = s)
  | concluded (hop : op.isChange = false) (k : Ticket) (hk : k ∈ s.tickets)
      (hcurrent : k.generation = s.tracker.generation) (o : RequestOutcome)
      (heq : s.step op = s.shown k.entity o)
  | refused (hop : op.isChange = false) (heq : s.step op = s)

theorem steps (s : Ticketing) (op : Op) : s.Steps op := by
  cases op with
  | select e => exact .issued rfl e rfl
  | refresh =>
    cases hselected : s.tracker.selected with
    | none =>
      refine .unselected rfl hselected ?_
      simp [step, Tracker.refresh_eq, hselected]
    | some e =>
      refine .issued rfl e ?_
      simp [step, Tracker.refresh_eq, hselected]
  | clear => exact .cleared rfl rfl
  | conclude i o =>
    cases hk : s.tickets[i]? with
    | none =>
      refine .refused rfl ?_
      simp [step, hk]
    | some k =>
      by_cases hcurrent : k.generation = s.tracker.generation
      · refine .concluded rfl k (List.mem_of_getElem? hk) hcurrent o ?_
        simp [step, hk, Tracker.conclude_eq, Tracker.settle_of_current hcurrent, shown]
      · refine .refused rfl ?_
        simp [step, hk, Tracker.conclude_eq, Tracker.settle_of_stale hcurrent]

/-! ### What every step preserves -/

/-- What is shown is about the selected entity; generations of tickets rise, none is beyond the
present one, and the ticket of the present one names the selected entity. -/
structure Sound (s : Ticketing) : Prop where
  shown : s.tracker.view.entity? = s.tracker.selected
  rising : s.tickets.Pairwise (·.generation < ·.generation)
  issued : ∀ k ∈ s.tickets, k.generation ≤ s.tracker.generation
  current : ∀ k ∈ s.tickets, k.generation = s.tracker.generation →
    s.tracker.selected = some k.entity

theorem sound_fresh : fresh.Sound where
  shown := rfl
  rising := .nil
  issued := by simp [fresh]
  current := by simp [fresh]

theorem Sound.issue (h : s.Sound) (e : String) : (s.issue (s.tracker.select e)).Sound := by
  have hold : ∀ k ∈ s.tickets, k.generation < s.tracker.generation + 1 := by
    intro k hk
    exact Nat.lt_succ_of_le (h.issued k hk)
  refine ⟨rfl, ?rising, ?issued, ?current⟩
  case rising =>
    show (s.tickets ++ [_]).Pairwise _
    rw [List.pairwise_append]
    refine ⟨h.rising, List.pairwise_singleton _ _, ?_⟩
    intro k hk k' hk'
    rw [List.mem_singleton.mp hk']
    exact hold k hk
  case issued =>
    intro k hk
    rcases List.mem_append.mp hk with hk | hk
    · exact Nat.le_of_lt (hold k hk)
    · rw [List.mem_singleton.mp hk]
      exact Nat.le_refl _
  case current =>
    intro k hk hcurrent
    rcases List.mem_append.mp hk with hk | hk
    · exact absurd hcurrent (Nat.ne_of_lt (hold k hk))
    · rw [List.mem_singleton.mp hk]
      rfl

theorem Sound.clear (h : s.Sound) : Sound { s with tracker := s.tracker.clear } where
  shown := rfl
  rising := h.rising
  issued := by
    intro k hk
    exact Nat.le_succ_of_le (h.issued k hk)
  current := by
    intro k hk hcurrent
    exact absurd hcurrent (Nat.ne_of_lt (Nat.lt_succ_of_le (h.issued k hk)))

theorem Sound.concluded (h : s.Sound) (hk : k ∈ s.tickets)
    (hcurrent : k.generation = s.tracker.generation) (o : RequestOutcome) :
    (s.shown k.entity o).Sound where
  shown := by
    show (InsuranceView.outcome k.entity o).entity? = s.tracker.selected
    rw [h.current k hk hcurrent, InsuranceView.entity?_outcome]
  rising := h.rising
  issued := h.issued
  current := h.current

/-- **No operation breaks what makes a tracker sound.** -/
theorem Sound.step (h : s.Sound) (op : Op) : (s.step op).Sound := by
  cases s.steps op with
  | issued _ e heq =>
    rw [heq]
    exact h.issue e
  | cleared _ heq =>
    rw [heq]
    exact h.clear
  | unselected _ _ heq =>
    rw [heq]
    exact h
  | concluded _ k hk hcurrent o heq =>
    rw [heq]
    exact h.concluded hk hcurrent o
  | refused _ heq =>
    rw [heq]
    exact h

theorem Sound.run (h : s.Sound) (ops : List Op) : (s.run ops).Sound := by
  induction ops generalizing s with
  | nil => exact h
  | cons op ops ih => exact ih (h.step op)

/-! ### Generations -/

theorem generation_step (s : Ticketing) (op : Op) :
    (s.step op).tracker.generation = s.tracker.generation ∨
      (s.step op).tracker.generation = s.tracker.generation + 1 := by
  cases s.steps op with
  | issued _ e heq =>
    rw [heq]
    exact .inr rfl
  | cleared _ heq =>
    rw [heq]
    exact .inr rfl
  | unselected _ _ heq => exact .inl (by rw [heq])
  | concluded _ k _ _ o heq =>
    rw [heq]
    exact .inl rfl
  | refused _ heq => exact .inl (by rw [heq])

/-- Generations do not fall, and there are no more of them than operations, so that a word is wide
enough to count them. -/
theorem generation_run (s : Ticketing) (ops : List Op) :
    s.tracker.generation ≤ (s.run ops).tracker.generation ∧
      (s.run ops).tracker.generation ≤ s.tracker.generation + ops.length := by
  induction ops generalizing s with
  | nil => simp
  | cons op ops ih =>
    have hstep := generation_step s op
    have hrest := ih (s.step op)
    rw [run_cons, List.length_cons]
    omega

theorem generation_step_of_change (hselected : s.tracker.selected ≠ none)
    (hop : op.isChange = true) :
    (s.step op).tracker.generation = s.tracker.generation + 1 := by
  cases s.steps op with
  | issued _ e heq =>
    rw [heq]
    rfl
  | cleared _ heq =>
    rw [heq]
    rfl
  | unselected _ hnone _ => exact absurd hnone hselected
  | concluded hnot =>
    rw [hop] at hnot
    contradiction
  | refused hnot =>
    rw [hop] at hnot
    contradiction

theorem step_of_not_change (hop : op.isChange = false) :
    (s.step op).tracker.generation = s.tracker.generation ∧
      (s.step op).tracker.selected = s.tracker.selected := by
  cases s.steps op with
  | concluded _ k _ _ o heq =>
    rw [heq]
    exact ⟨rfl, rfl⟩
  | refused _ heq =>
    rw [heq]
    exact ⟨rfl, rfl⟩
  | issued hchange =>
    rw [hop] at hchange
    contradiction
  | cleared hchange =>
    rw [hop] at hchange
    contradiction
  | unselected hchange =>
    rw [hop] at hchange
    contradiction

/-- **A ticket stays current exactly as long as there is no call on the selection.** -/
theorem current_run_iff (hselected : s.tracker.selected ≠ none)
    (hcurrent : k.generation = s.tracker.generation) :
    k.generation = (s.run ops).tracker.generation ↔ ∀ op ∈ ops, op.isChange = false := by
  induction ops generalizing s with
  | nil => simpa using hcurrent
  | cons op ops ih =>
    rw [run_cons, List.forall_mem_cons]
    cases hop : op.isChange with
    | true =>
      have hlt := generation_step_of_change hselected hop
      have hle := (generation_run (s.step op) ops).1
      have hne : k.generation ≠ ((s.step op).run ops).tracker.generation := by omega
      simp [hne]
    | false =>
      obtain ⟨hgeneration, hsame⟩ := step_of_not_change (s := s) hop
      have hrest := ih (s := s.step op) (hsame ▸ hselected) (hcurrent.trans hgeneration.symm)
      rw [hrest]
      simp

/-! ### Tickets -/

theorem ticket_step {i : Nat} (h : (s.step op).tickets[i]? = some k) :
    s.tickets[i]? = some k ∨
      (op.isChange = true ∧ i = s.tickets.length ∧
        ∃ e, s.step op = s.issue (s.tracker.select e) ∧ k = (s.tracker.select e).2) := by
  cases s.steps op with
  | issued hop e heq =>
    rw [heq, issue, List.getElem?_append] at h
    split at h
    · exact .inl h
    · rename_i hge
      obtain ⟨hlt, hk⟩ := List.getElem?_eq_some_iff.mp h
      rw [List.length_singleton] at hlt
      refine .inr ⟨hop, by omega, e, heq, ?_⟩
      simpa using hk.symm
  | cleared _ heq =>
    rw [heq] at h
    exact .inl h
  | unselected _ _ heq =>
    rw [heq] at h
    exact .inl h
  | concluded _ _ _ _ o heq =>
    rw [heq] at h
    exact .inl h
  | refused _ heq =>
    rw [heq] at h
    exact .inl h

theorem exists_issued {i : Nat} (h : (s.run ops).tickets[i]? = some k) :
    s.tickets[i]? = some k ∨ ∃ before op since e, ops = before ++ op :: since ∧
      op.isChange = true ∧ i = (s.run before).tickets.length ∧
      (s.run before).step op = (s.run before).issue ((s.run before).tracker.select e) ∧
      k = ((s.run before).tracker.select e).2 := by
  induction ops generalizing s with
  | nil => exact .inl h
  | cons op ops ih =>
    rcases ih h with hstep | ⟨before, op', since, e, rfl, hrest⟩
    · rcases ticket_step hstep with hold | ⟨hchange, hi, e, heq, hk⟩
      · exact .inl hold
      · exact .inr ⟨[], op, ops, e, rfl, hchange, hi, heq, hk⟩
    · exact .inr ⟨op :: before, op', since, e, rfl, hrest⟩

/-! ### What shows -/

/-- What handing back a ticket does, said of whether there were calls on the selection since it was
issued. -/
structure Concludes (t : Tracker) (ticket : Ticket) (since : List Op) (o : RequestOutcome) :
    Prop where
  accepted_iff : (t.conclude ticket o).2 = true ↔ ∀ op ∈ since, op.isChange = false
  refused : (t.conclude ticket o).2 = false → (t.conclude ticket o).1 = t
  shown : (t.conclude ticket o).2 = true →
    (t.conclude ticket o).1 = { t with view := .outcome ticket.entity o } ∧
      t.selected = some ticket.entity

theorem concludes (h : s.Sound) (hk : k ∈ s.tickets) {since : List Op}
    (hsince : k.generation = s.tracker.generation ↔ ∀ op ∈ since, op.isChange = false)
    (o : RequestOutcome) : Concludes s.tracker k since o := by
  by_cases hcurrent : k.generation = s.tracker.generation
  · have haccepted : s.tracker.conclude k o =
        ({ s.tracker with view := .outcome k.entity o }, true) := by
      rw [Tracker.conclude_eq, Tracker.settle_of_current hcurrent]
    refine ⟨?_, ?_, ?_⟩
    · rw [haccepted]
      exact iff_of_true rfl (hsince.mp hcurrent)
    · intro hfalse
      rw [haccepted] at hfalse
      contradiction
    · intro _
      rw [haccepted]
      exact ⟨rfl, h.current k hk hcurrent⟩
  · have hrefused : s.tracker.conclude k o = (s.tracker, false) := by
      rw [Tracker.conclude_eq, Tracker.settle_of_stale hcurrent]
    refine ⟨?_, ?_, ?_⟩
    · rw [hrefused]
      exact iff_of_false Bool.false_ne_true (mt hsince.mpr hcurrent)
    · intro _
      rw [hrefused]
    · intro htrue
      rw [hrefused] at htrue
      contradiction

/-- An entity selected twice, with the first ticket handed back in between and after. -/
def reselected : List Op :=
  [.select "A", .clear, .conclude 0 .unavailable, .select "A", .conclude 0 (.answered (.ok []))]

end Ticketing

end FrameScope
