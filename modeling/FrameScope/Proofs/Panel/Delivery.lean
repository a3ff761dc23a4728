import FrameScope.Panel.Reaction
import FrameScope.Proofs.Panel.Registry

/-!
# What an action sets off

`Performs` says, without any bound on the depth, what an action does with all that it sets off: a
delivery calls the handlers of its topic (`Calls`), and a called handler acts in its turn (`Acts`).
It keeps a log of the changes to the registry and of the notes left behind.

* `Performs.tracked`: what holds of every part holds of the whole;
* `Performs.unique`: an action has one outcome;
* `settles_of_lt`: with more depth than the reserve of a stage, `perform` finds that outcome.
-/

namespace FrameScope

/-- One call of a handler in a delivery: what it was given, what was done to the registry before it
returned, and what it left behind. -/
structure Visit where
  handler : Nat × Handler
  event : PanelEvent
  changes : List (Change Handler)
  left : List Note

/-- All that a call leaves behind. -/
def Visit.notes (v : Visit) : List Note := .received v.handler.2.name v.event :: v.left

namespace Stage

/-- What an action does to the registry by itself. -/
def changes (s : Stage) : Action → List (Change Handler)
  | .subscribe name topic _ _ =>
    if s.held then [.made (s.bridge.subscribe topic ⟨name⟩).2 ⟨name⟩] else []
  | .unsubscribe name =>
    match s.subscriptions.get? name with
    | some sub => [.withdrawn sub]
    | none => []
  | .clear => if s.held then [.cleared] else []
  | _ => []

/-- What a handler does about an event it is given, and the stage at which it does it. -/
def given (s : Stage) (event : PanelEvent) (h : Nat × Handler) : List Action × Stage :=
  (s.note (.received h.2.name event)).begin h.1

mutual

/-- An action with everything it sets off: what comes of it, all that is done to the registry, all
that is left behind, and the stage behind it. -/
inductive Performs :
    Stage → Action → ActionResult → List (Change Handler) → List Note → Stage → Prop
  | alone {s : Stage} {act : Action} (hnone : s.delivery? act = none) :
      Performs s act (s.alone act).2 (s.changes act) [] (s.alone act).1
  | delivers {s t : Stage} {act : Action} {topic : String} {event : PanelEvent}
      {visits : List Visit} (hsome : s.delivery? act = some (topic, event))
      (hcalls : Calls event s (s.bridge.handlers topic) visits t) :
      Performs s act (.count (s.bridge.count topic)) (visits.flatMap (·.changes))
        (visits.flatMap (·.notes)) t

/-- Handlers that are given an event, one after the other. -/
inductive Calls : PanelEvent → Stage → List (Nat × Handler) → List Visit → Stage → Prop
  | nil {event : PanelEvent} {s : Stage} : Calls event s [] [] s
  | cons {event : PanelEvent} {s t u : Stage} {h : Nat × Handler} {hs : List (Nat × Handler)}
      {changes : List (Change Handler)} {left : List Note} {visits : List Visit}
      (hacts : Acts h.2.name (s.given event h).2 (s.given event h).1 changes left t)
      (hcalls : Calls event t hs visits u) :
      Calls event s (h :: hs) (⟨h, event, changes, left⟩ :: visits) u

/-- What a handler does at one of its calls, with a note of each operation. -/
inductive Acts : String → Stage → List Action → List (Change Handler) → List Note → Stage → Prop
  | nil {name : String} {s : Stage} : Acts name s [] [] [] s
  | cons {name : String} {s t u : Stage} {act : Action} {acts : List Action}
      {result : ActionResult} {c c' : List (Change Handler)} {n n' : List Note}
      (hact : Performs s act result c n t)
      (hacts : Acts name (t.note (.did name act result)) acts c' n' u) :
      Acts name s (act :: acts) (c ++ c') (n ++ .did name act result :: n') u

end

/-! ## One action by itself -/

/-- All that an action can do by itself. -/
inductive Moves (s : Stage) : Action → List (Change Handler) → Stage → Prop
  | idle {act : Action} : Moves s act [] s
  | subscribed {name topic : String} {times : Nat} {script : Script Action} :
      Moves s (.subscribe name topic times script)
        [.made (s.bridge.subscribe topic ⟨name⟩).2 ⟨name⟩]
        (s.subscribe name topic ⟨times, script⟩).1
  | withdrawn {name : String} {sub : Subscription} (hsub : s.subscriptions.get? name = some sub) :
      Moves s (.unsubscribe name) [.withdrawn sub] { s with bridge := s.bridge.unsubscribe sub }
  | cleared : Moves s .clear [.cleared] { s with bridge := s.bridge.clear }
  | dropped : Moves s .drop [] { s with held := false }

theorem moves_alone (s : Stage) (act : Action) : Moves s act (s.changes act) (s.alone act).1 := by
  have hidle {act : Action} {t : Stage} (ht : t = s) : Moves s act [] t := by
    rw [ht]
    exact .idle
  have hheld (next : Stage × ActionResult) (hnext : next.1 = s) : (s.whileHeld next).1 = s := by
    rw [whileHeld]
    split
    · exact hnext
    · rfl
  have hunheard (event : Except DecodeError PanelEvent) : (s.unheard event).1 = s := by
    cases event <;> rfl
  cases act with
  | subscribe name topic times script =>
    rw [changes, alone, whileHeld]
    split
    · exact .subscribed
    · exact .idle
  | unsubscribe name =>
    rw [changes, alone]
    cases hsub : s.subscriptions.get? name with
    | none => exact .idle
    | some sub => exact .withdrawn hsub
  | isActive name =>
    apply hidle
    rw [alone]
    split <;> rfl
  | publish topic event => exact hidle (hheld _ (hunheard event))
  | emit event => exact hidle (hheld _ (hunheard event))
  | select entity => exact hidle (hheld _ (hunheard _))
  | count topic => exact hidle (hheld _ rfl)
  | clear =>
    rw [changes, alone, whileHeld]
    split
    · exact .cleared
    · exact .idle
  | describe => exact hidle (hheld _ rfl)
  | drop => exact .dropped

/-! ## What the parts have in common -/

/-- What holds of every part of an action, and of parts one after the other. -/
structure Tracks (R : Stage → List (Change Handler) → List Note → Stage → Prop) : Prop where
  refl : ∀ s, R s [] [] s
  trans : ∀ {s t u c c' n n'}, R s c n t → R t c' n' u → R s (c ++ c') (n ++ n') u
  alone : ∀ {s act}, s.delivery? act = none → R s (s.changes act) [] (s.alone act).1
  begin : ∀ s id, R s [] [] (s.begin id).2
  note : ∀ s n, R s [] [n] (s.note n)

section Tracks

variable {R : Stage → List (Change Handler) → List Note → Stage → Prop}

theorem Tracks.given (hR : Tracks R) (s : Stage) (event : PanelEvent) (h : Nat × Handler) :
    R s [] [.received h.2.name event] (s.given event h).2 :=
  hR.trans (hR.note s _) (hR.begin _ h.1)

mutual

theorem Performs.tracked (hR : Tracks R) {s t : Stage} {act : Action} {result : ActionResult}
    {c : List (Change Handler)} {n : List Note} : Performs s act result c n t → R s c n t
  | .alone hnone => hR.alone hnone
  | .delivers _ hcalls => hcalls.tracked hR

theorem Calls.tracked (hR : Tracks R) {s t : Stage} {event : PanelEvent}
    {hs : List (Nat × Handler)} {visits : List Visit} :
    Calls event s hs visits t → R s (visits.flatMap (·.changes)) (visits.flatMap (·.notes)) t
  | .nil => hR.refl _
  | .cons hacts hcalls => by
    have hcall := hR.trans (hR.given s event _) (hacts.tracked hR)
    exact hR.trans hcall (hcalls.tracked hR)

theorem Acts.tracked (hR : Tracks R) {s t : Stage} {name : String} {acts : List Action}
    {c : List (Change Handler)} {n : List Note} : Acts name s acts c n t → R s c n t
  | .nil => hR.refl _
  | .cons hact hacts => by
    have hrest := hR.trans (hR.note _ _) (hacts.tracked hR)
    exact hR.trans (hact.tracked hR) hrest

end

end Tracks

theorem tracks_notes : Tracks fun s _ n t => t.notes = s.notes ++ n where
  refl s := (List.append_nil _).symm
  trans hst htu := by rw [htu, hst, List.append_assoc]
  alone {s act} _ := by
    have hmoves := moves_alone s act
    generalize s.changes act = c, (s.alone act).1 = t at hmoves
    cases hmoves <;> exact (List.append_nil _).symm
  begin s id := (List.append_nil _).symm
  note s n := rfl

/-- The registry behind an action is the one before it with all changes done to it, in order. -/
theorem tracks_bridge : Tracks fun s c _ t => t.bridge = c.foldl Bridge.apply s.bridge where
  refl s := rfl
  trans hst htu := by rw [htu, hst, List.foldl_append]
  alone {s act} _ := by
    have hmoves := moves_alone s act
    generalize s.changes act = c, (s.alone act).1 = t at hmoves ⊢
    cases hmoves <;> rfl
  begin s id := rfl
  note s n := rfl

/-! ## Who is called -/

theorem Calls.handlers_eq {s t : Stage} {event : PanelEvent} {hs : List (Nat × Handler)}
    {visits : List Visit} : Calls event s hs visits t → visits.map (·.handler) = hs
  | .nil => rfl
  | .cons _ hcalls => congrArg _ hcalls.handlers_eq

theorem Calls.event_eq {s t : Stage} {event : PanelEvent} {hs : List (Nat × Handler)}
    {visits : List Visit} : Calls event s hs visits t → ∀ v ∈ visits, v.event = event
  | .nil => by simp
  | .cons _ hcalls => List.forall_mem_cons.mpr ⟨rfl, hcalls.event_eq⟩

/-! ## One outcome -/

mutual

theorem Performs.unique {s t t' : Stage} {act : Action} {r r' : ActionResult}
    {c c' : List (Change Handler)} {n n' : List Note} :
    Performs s act r c n t → Performs s act r' c' n' t' → r = r' ∧ c = c' ∧ n = n' ∧ t = t'
  | .alone _, .alone _ => ⟨rfl, rfl, rfl, rfl⟩
  | .alone hnone, .delivers hsome _ => by simp [hnone] at hsome
  | .delivers hsome _, .alone hnone => by simp [hnone] at hsome
  | .delivers hsome hcalls, .delivers hsome' hcalls' => by
    obtain ⟨rfl, rfl⟩ : _ = _ ∧ _ = _ := by simpa using hsome.symm.trans hsome'
    obtain ⟨rfl, rfl⟩ := hcalls.unique hcalls'
    exact ⟨rfl, rfl, rfl, rfl⟩

theorem Calls.unique {s t t' : Stage} {event : PanelEvent} {hs : List (Nat × Handler)}
    {visits visits' : List Visit} :
    Calls event s hs visits t → Calls event s hs visits' t' → visits = visits' ∧ t = t'
  | .nil, .nil => ⟨rfl, rfl⟩
  | .cons hacts hcalls, .cons hacts' hcalls' => by
    obtain ⟨rfl, rfl, rfl⟩ := hacts.unique hacts'
    obtain ⟨rfl, rfl⟩ := hcalls.unique hcalls'
    exact ⟨rfl, rfl⟩

theorem Acts.unique {s t t' : Stage} {name : String} {acts : List Action}
    {c c' : List (Change Handler)} {n n' : List Note} :
    Acts name s acts c n t → Acts name s acts c' n' t' → c = c' ∧ n = n' ∧ t = t'
  | .nil, .nil => ⟨rfl, rfl, rfl⟩
  | .cons hact hacts, .cons hact' hacts' => by
    obtain ⟨rfl, rfl, rfl, rfl⟩ := hact.unique hact'
    obtain ⟨rfl, rfl, rfl⟩ := hacts.unique hacts'
    exact ⟨rfl, rfl, rfl⟩

end

/-! ## Enough depth -/

end Stage

theorem Plan.next_cases (p : Plan) :
    (p.next.1 = [] ∧ p.next.2 = p) ∨
      1 + Action.reserveAll p.next.1 + p.next.2.reserve = p.reserve := by
  rcases p with ⟨_ | times, acts, later⟩
  · cases later with
    | nil => exact .inl ⟨rfl, rfl⟩
    | cons script later =>
      right
      simp [next, reserve, Action.reserveEach]
  · right
    simp only [next, reserve]
    rw [Nat.succ_mul]
    omega

namespace Stage

theorem foldr_reserve_append (ps qs : List Plan) :
    (ps ++ qs).foldr (fun p n => p.reserve + n) 0 =
      ps.foldr (fun p n => p.reserve + n) 0 + qs.foldr (fun p n => p.reserve + n) 0 := by
  induction ps with
  | nil => simp
  | cons p ps ih => simp [ih, Nat.add_assoc]

theorem foldr_reserve_set {ps : List Plan} {id : Nat} (hid : id < ps.length) (q : Plan) :
    (ps.set id q).foldr (fun p n => p.reserve + n) 0 + (ps.getD id {}).reserve =
      ps.foldr (fun p n => p.reserve + n) 0 + q.reserve := by
  induction ps generalizing id with
  | nil => simp at hid
  | cons p ps ih =>
    cases id with
    | zero =>
      simp only [List.set_cons_zero, List.foldr_cons, List.getD_cons_zero]
      omega
    | succ id =>
      have hlt : id < ps.length := by simpa using hid
      have htail := ih hlt
      simp only [List.set_cons_succ, List.foldr_cons, List.getD_cons_succ]
      omega

/-- A handler that acts uses up one acting call, with all it does then. -/
theorem reserve_begin (s : Stage) (id : Nat) :
    ((s.begin id).1 = [] ∧ (s.begin id).2.reserve = s.reserve) ∨
      1 + Action.reserveAll (s.begin id).1 + (s.begin id).2.reserve = s.reserve := by
  show ((s.planOf id).next.1 = [] ∧ reserve { s with plans := s.plans.set id (s.planOf id).next.2 } =
      s.reserve) ∨ 1 + Action.reserveAll (s.planOf id).next.1 +
        reserve { s with plans := s.plans.set id (s.planOf id).next.2 } = s.reserve
  by_cases hid : id < s.plans.length
  · have hset := foldr_reserve_set hid (s.planOf id).next.2
    rcases Plan.next_cases (s.planOf id) with ⟨hnil, hsame⟩ | hless
    · left
      refine ⟨hnil, ?_⟩
      rw [hsame] at hset ⊢
      exact Nat.add_right_cancel hset
    · right
      simp only [reserve, planOf] at hset hless ⊢
      omega
  · -- A number that was never given has nothing left to do.
    left
    have hplan : s.planOf id = {} := by
      rw [planOf, List.getD_eq_getElem?_getD, List.getElem?_eq_none (Nat.le_of_not_lt hid)]
      rfl
    refine ⟨by rw [hplan]; rfl, ?_⟩
    rw [List.set_eq_of_length_le (Nat.le_of_not_lt hid)]

theorem Moves.reserve_le {s t : Stage} {act : Action} {c : List (Change Handler)}
    (h : Moves s act c t) : t.reserve ≤ s.reserve + act.reserve := by
  cases h with
  | @subscribed name topic times script =>
    show (s.plans ++ [(⟨times, script⟩ : Plan)]).foldr (fun p n => p.reserve + n) 0 ≤ _
    rw [foldr_reserve_append]
    simp [reserve, Plan.reserve, Action.reserve]
  | idle => exact Nat.le_add_right _ _
  | withdrawn => exact Nat.le_add_right _ _
  | cleared => exact Nat.le_add_right _ _
  | dropped => exact Nat.le_add_right _ _

/-- `perform` finds the outcome of an action, and no more can happen behind it than before. -/
def Settles (depth : Nat) (s : Stage) (act : Action) : Prop :=
  (∃ c n, Performs s act (perform depth s act).2 c n (perform depth s act).1) ∧
    (perform depth s act).1.reserve ≤ s.reserve + act.reserve

variable {depth : Nat}

theorem acts_foldl (hsettles : ∀ s act, s.reserve + act.reserve < depth → Settles depth s act)
    (name : String) (acts : List Action) (s : Stage)
    (hdepth : acts = [] ∨ s.reserve + Action.reserveAll acts < depth) :
    let t := acts.foldl (fun s act =>
      (perform depth s act).1.note (.did name act (perform depth s act).2)) s
    (∃ c n, Acts name s acts c n t) ∧ t.reserve ≤ s.reserve + Action.reserveAll acts := by
  induction acts generalizing s with
  | nil => exact ⟨⟨[], [], .nil⟩, Nat.le_add_right _ _⟩
  | cons act acts ih =>
    have hall : Action.reserveAll (act :: acts) = act.reserve + Action.reserveAll acts := rfl
    have hlt : s.reserve + Action.reserveAll (act :: acts) < depth := by simpa using hdepth
    rw [hall] at hlt ⊢
    obtain ⟨⟨c, n, hact⟩, hle⟩ := hsettles s act (by omega)
    have hnoted : ((perform depth s act).1.note (.did name act (perform depth s act).2)).reserve =
        (perform depth s act).1.reserve := rfl
    obtain ⟨⟨c', n', hacts⟩, hle'⟩ := ih
      ((perform depth s act).1.note (.did name act (perform depth s act).2))
      (.inr (by omega))
    exact ⟨⟨_, _, .cons hact hacts⟩, by dsimp only [List.foldl_cons]; omega⟩

theorem calls_foldl (hsettles : ∀ s act, s.reserve + act.reserve < depth → Settles depth s act)
    (event : PanelEvent) (hs : List (Nat × Handler)) (s : Stage) (hdepth : s.reserve ≤ depth) :
    let t := hs.foldl (call (perform depth) event) s
    (∃ visits, Calls event s hs visits t) ∧ t.reserve ≤ s.reserve := by
  induction hs generalizing s with
  | nil => exact ⟨⟨[], .nil⟩, Nat.le_refl _⟩
  | cons h hs ih =>
    have hgiven : ((s.given event h).1 = [] ∧ (s.given event h).2.reserve = s.reserve) ∨
        1 + Action.reserveAll (s.given event h).1 + (s.given event h).2.reserve = s.reserve :=
      reserve_begin (s.note (.received h.2.name event)) h.1
    obtain ⟨⟨c, n, hacts⟩, hle⟩ := acts_foldl hsettles h.2.name (s.given event h).1
      (s.given event h).2 (hgiven.imp And.left (by omega))
    have hless : (call (perform depth) event s h).reserve ≤ s.reserve := by
      refine Nat.le_trans hle ?_
      rcases hgiven with ⟨hnil, hsame⟩ | hless
      · rw [hnil, hsame]
        exact Nat.le_refl _
      · omega
    obtain ⟨⟨visits, hcalls⟩, hle'⟩ := ih (call (perform depth) event s h) (by omega)
    exact ⟨⟨_, .cons hacts hcalls⟩, Nat.le_trans hle' hless⟩

theorem settles_of_lt {depth : Nat} {s : Stage} {act : Action}
    (hdepth : s.reserve + act.reserve < depth) : Settles depth s act := by
  induction depth generalizing s act with
  | zero => omega
  | succ depth ih =>
    rw [Settles, perform]
    cases hevent : s.delivery? act with
    | none => exact ⟨⟨_, _, .alone hevent⟩, (moves_alone s act).reserve_le⟩
    | some delivery =>
      obtain ⟨topic, event⟩ := delivery
      obtain ⟨⟨visits, hcalls⟩, hle⟩ := calls_foldl (fun s act => ih) event
        (s.bridge.handlers topic) s (by omega)
      exact ⟨⟨_, _, .delivers hevent hcalls⟩, Nat.le_trans hle (Nat.le_add_right _ _)⟩

end Stage

end FrameScope
