import FrameScope.Time.Cursor

/-!
# Moves of a cursor as a walk

The frames of a history are its places `0` to `n - 1`, and the live head is the place `n` behind
them. A cursor is at one place of every history, however long (`Cursor.position`), and all that its
index is good for is to say which. A step goes to the place next to it, as long as there is one, and
a jump to the first place (`position_move`); on a history of another length the cursor is then at
the same frame, at the last frame when there is no such frame, or at the live head (`carried`). So a
run of moves is a walk, even while the history grows or shrinks (`Cursor.run_walks`).
-/

namespace FrameScope

variable {α : Type u} {requested : Option Int} {history : List α} {live : Option α}

/-! ### Places -/

/-- The place that an index means on a history of `length` frames. -/
def placeOf (requested : Option Int) (length : Nat) : Nat :=
  match requested with
  | none => length
  | some i => if 0 ≤ i ∧ 0 < length then min i.toNat (length - 1) else length

@[simp] theorem placeOf_none (length : Nat) : placeOf none length = length := rfl

theorem placeOf_natCast (i length : Nat) :
    placeOf (some (i : Int)) length = min i (length - 1) := by
  rw [placeOf]
  split <;> omega

theorem placeOf_le (requested : Option Int) (length : Nat) : placeOf requested length ≤ length := by
  cases requested with
  | none => exact Nat.le_refl length
  | some i =>
    rw [placeOf]
    split <;> omega

theorem placeOf_eq_of_live {n : Nat} (hn : 0 < n) (hlive : n ≤ placeOf requested n) (length : Nat) :
    placeOf requested length = length := by
  cases requested with
  | none => rfl
  | some i =>
    rw [placeOf] at hlive ⊢
    split at hlive <;> split <;> omega

theorem heldIndex?_eq (requested : Option Int) (length : Nat) :
    heldIndex? requested length =
      if placeOf requested length < length then some (placeOf requested length) else none := by
  cases requested with
  | none => rw [placeOf_none, if_neg (Nat.lt_irrefl length), heldIndex?]
  | some i =>
    by_cases hframe : 0 ≤ i ∧ 0 < length
    · rw [placeOf, if_pos hframe, if_pos (by omega), heldIndex?, if_neg (by omega)]
    · rw [placeOf, if_neg hframe, if_neg (Nat.lt_irrefl length), heldIndex?, if_pos (by omega)]

/-! ### What is shown at a place -/

theorem frameShown?_eq (requested : Option Int) (history : List α) (live : Option α) :
    frameShown? requested history live = (TimeView.of requested history live).frame? := by
  unfold frameShown? TimeView.of
  cases heldIndex? requested history.length with
  | none => cases live <;> rfl
  | some i =>
    dsimp only
    cases history[i]? <;> rfl

theorem view_of_lt (h : placeOf requested history.length < history.length) :
    TimeView.of requested history live = .historical (placeOf requested history.length)
      history.length history[placeOf requested history.length] := by
  unfold TimeView.of
  rw [heldIndex?_eq, if_pos h]
  simp only [List.getElem?_eq_getElem h]

theorem view_of_not_lt (h : ¬ placeOf requested history.length < history.length) :
    TimeView.of requested history live = live.elim .noData .live := by
  unfold TimeView.of
  rw [heldIndex?_eq, if_neg h]
  cases live <;> rfl

namespace Cursor

/-! ### Moves -/

/-- A call of a cursor; a step or a jump is told how long the history is. -/
inductive Move where
  | followLive
  | seek (i : Int)
  | jumpToStart (length : Nat)
  | stepBack (length : Nat)
  | stepForward (length : Nat)

/-- A history that a signed word counts. -/
def Move.Fits : Move → Prop
  | .jumpToStart length => Word.holdsSigned Word.size length = true
  | .stepBack length => Word.holdsSigned Word.size length = true
  | .stepForward length => Word.holdsSigned Word.size length = true
  | _ => True

def move (c : Cursor) : Move → Cursor
  | .followLive => c.followLive
  | .seek i => c.seek i
  | .jumpToStart length => c.jumpToStart length
  | .stepBack length => c.stepBack length
  | .stepForward length => c.stepForward length

def run (c : Cursor) (ms : List Move) : Cursor := ms.foldl move c

/-- Where the cursor is on a history of `length` frames. -/
def position (c : Cursor) (length : Nat) : Nat := placeOf c.index length

/-- Where one who went to place `p` of `n` is on a history of another length. -/
def carried (n p length : Nat) : Nat := if p < n then min p (length - 1) else length

/-- The places after a move, from those before it. -/
def walk (places : Nat → Nat) : Move → Nat → Nat
  | .followLive => placeOf none
  | .seek i => placeOf (some i)
  | .jumpToStart n => if n = 0 then places else carried n 0
  | .stepBack n => if n = 0 then places else carried n (places n - 1)
  | .stepForward n => if n = 0 then places else carried n (min (places n + 1) n)

theorem carried_self {n p : Nat} (hp : p ≤ n) : carried n p n = p := by
  rw [carried]
  split <;> omega

theorem keptIndex_eq {i n : Nat} (hn : Word.holdsSigned Word.size n = true) (hi : i ≤ n) :
    keptIndex i = i := by
  simp only [Word.holdsSigned, Bool.and_eq_true, decide_eq_true_eq] at hn
  exact Int.bmod_eq_of_le_mul_two (by omega) (by omega)

theorem heldIndex?_position (c : Cursor) (n : Nat) :
    heldIndex? c.index n = if c.position n < n then some (c.position n) else none :=
  heldIndex?_eq c.index n

theorem position_le (c : Cursor) (n : Nat) : c.position n ≤ n := placeOf_le c.index n

theorem stepBack_eq (c : Cursor) {n : Nat} (hn : 0 < n)
    (hfits : Word.holdsSigned Word.size n = true) : c.stepBack n = ⟨some (c.position n - 1 : Nat)⟩ := by
  have hplace := c.position_le n
  rw [stepBack, if_neg (by omega), heldIndex?_position]
  by_cases hframe : c.position n < n
  · rw [if_pos hframe]
    dsimp only
    rw [keptIndex_eq hfits (by omega)]
  · have hlive : c.position n = n := by omega
    rw [if_neg hframe]
    dsimp only
    rw [keptIndex_eq hfits (by omega), hlive]

theorem stepForward_eq (c : Cursor) {n : Nat} (hfits : Word.holdsSigned Word.size n = true) :
    c.stepForward n = if c.position n < n then
      (if c.position n + 1 < n then ⟨some (c.position n + 1 : Nat)⟩ else ⟨none⟩) else c := by
  rw [stepForward, heldIndex?_position]
  by_cases hframe : c.position n < n
  · rw [if_pos hframe, if_pos hframe]
    dsimp only
    by_cases hlast : c.position n + 1 < n
    · rw [if_neg (by omega), if_pos hlast, keptIndex_eq hfits (by omega)]
    · rw [if_pos (by omega), if_neg hlast]
  · rw [if_neg hframe, if_neg hframe]

/-- **A move is a step of the walk.** -/
theorem position_move (c : Cursor) {m : Move} (hm : m.Fits) :
    (c.move m).position = walk c.position m := by
  funext length
  cases m with
  | followLive => rfl
  | seek i => rfl
  | jumpToStart n =>
    rcases Nat.eq_zero_or_pos n with rfl | hn
    · rfl
    rw [walk, if_neg (by omega), move, jumpToStart, if_pos hn, carried, if_pos hn]
    exact placeOf_natCast 0 length
  | stepBack n =>
    rcases Nat.eq_zero_or_pos n with rfl | hn
    · rfl
    have hplace := c.position_le n
    rw [walk, if_neg (by omega), move, stepBack_eq c hn hm, carried, if_pos (by omega)]
    exact placeOf_natCast (c.position n - 1) length
  | stepForward n =>
    have hplace := c.position_le n
    rw [walk, move, stepForward_eq c hm]
    rcases Nat.eq_zero_or_pos n with rfl | hn
    · rw [if_neg (by omega), if_pos rfl]
    rw [if_neg (c := n = 0) (by omega), carried]
    by_cases hframe : c.position n < n
    · rw [if_pos hframe, Nat.min_eq_left (by omega)]
      by_cases hlast : c.position n + 1 < n
      · rw [if_pos hlast, if_pos hlast]
        exact placeOf_natCast (c.position n + 1) length
      · rw [if_neg hlast, if_neg hlast]
        rfl
    · rw [if_neg hframe, if_neg (by omega)]
      exact placeOf_eq_of_live hn (by rw [← position]; omega) length

/-- A run of moves is a walk, whatever lengths the moves are told. -/
theorem position_run (c : Cursor) {ms : List Move} (hms : ∀ m ∈ ms, m.Fits) :
    (c.run ms).position = ms.foldl walk c.position := by
  induction ms generalizing c with
  | nil => rfl
  | cons m ms ih =>
    obtain ⟨hm, hms⟩ := List.forall_mem_cons.mp hms
    rw [List.foldl_cons, ← position_move c hm]
    exact ih (c.move m) hms

/-- The calls of a cursor along a history of `n` frames: each step goes to the next place that there
is, a jump to the first, and without frames they change nothing. -/
structure MovesAlong (c : Cursor) (n : Nat) : Prop where
  back : 0 < n → (c.stepBack n).position n = c.position n - 1
  forward : 0 < n → (c.stepForward n).position n = min (c.position n + 1) n
  start : 0 < n → (c.jumpToStart n).position n = 0
  live : c.followLive.position n = n
  empty : n = 0 → c.stepBack n = c ∧ c.stepForward n = c ∧ c.jumpToStart n = c

theorem position_of_walk (c : Cursor) {m : Move} (hm : m.Fits) {n p : Nat} (hp : p ≤ n)
    (hwalk : walk c.position m = carried n p) : (c.move m).position n = p := by
  rw [position_move c hm, hwalk, carried_self hp]

theorem movesAlong (c : Cursor) {n : Nat} (hfits : Word.holdsSigned Word.size n = true) :
    c.MovesAlong n := by
  have hplace := c.position_le n
  refine ⟨fun hn => ?back, fun hn => ?forward, fun hn => ?start, rfl, fun hn => ?empty⟩
  case back => exact position_of_walk c (m := .stepBack n) hfits (by omega) (if_neg (by omega))
  case forward =>
    exact position_of_walk c (m := .stepForward n) hfits (by omega) (if_neg (by omega))
  case start => exact position_of_walk c (m := .jumpToStart n) hfits (by omega) (if_neg (by omega))
  case empty =>
    subst hn
    refine ⟨rfl, ?_, rfl⟩
    rw [stepForward_eq c hfits, if_neg (by omega)]

/-- What a cursor shows is what stands at its place: the frame there, or the live frame if any. -/
structure ShowsPlace (c : Cursor) (history : List α) (live : Option α) : Prop where
  atFrame : ∀ h : c.position history.length < history.length, c.view history live =
    .historical (c.position history.length) history.length history[c.position history.length]
  atHead : c.position history.length = history.length →
    c.view history live = live.elim .noData .live
  resolved : c.frame? history live = (c.view history live).frame?

theorem showsPlace (c : Cursor) (history : List α) (live : Option α) : c.ShowsPlace history live :=
  ⟨view_of_lt, fun h => view_of_not_lt (Nat.not_lt.mpr (Nat.le_of_eq h.symm)), frameShown?_eq ..⟩

/-- **A run of moves is a walk on the line of the frames and the live head**, whatever lengths the
history has on the way, and what is shown is what stands at the place it leads to. -/
theorem run_walks (c : Cursor) {ms : List Move} (hms : ∀ m ∈ ms, m.Fits) :
    (c.run ms).position = ms.foldl walk c.position ∧
      (∀ n : Nat, Word.holdsSigned Word.size n = true → (c.run ms).MovesAlong n) ∧
        ∀ (history : List α) (live : Option α), (c.run ms).ShowsPlace history live :=
  ⟨position_run c hms, fun _ hfits => movesAlong _ hfits, showsPlace _⟩

/-- From past the end back and forth, while the history grows and shrinks and is empty. -/
def unevenMoves : List Move := [.seek 50, .stepBack 3, .stepForward 10, .stepForward 9, .stepBack 0]

theorem run_walks_unevenMoves :
    (∀ m ∈ unevenMoves, m.Fits) ∧ Word.holdsSigned Word.size (7 : Nat) = true ∧
      (run ⟨none⟩ unevenMoves).position 7 = 3 ∧
        ((run ⟨none⟩ unevenMoves).stepForward 7).position 7 = 4 ∧
          (run ⟨none⟩ unevenMoves).view [10, 11] (some 99) = .historical 1 2 11 := by
  have hmoves : ∀ m ∈ unevenMoves, m.Fits := by
    simp only [unevenMoves, List.forall_mem_cons, Move.Fits, List.not_mem_nil, false_implies,
      implies_true, and_true, true_and]
    decide
  have hseven : Word.holdsSigned Word.size (7 : Nat) = true := by decide
  obtain ⟨hwalk, halong, hshows⟩ := @run_walks Nat ⟨none⟩ unevenMoves hmoves
  have hplace (n : Nat) :
      (run ⟨none⟩ unevenMoves).position n = unevenMoves.foldl walk (placeOf none) n :=
    congrFun hwalk n
  refine ⟨hmoves, hseven, (hplace 7).trans (by decide), ?_, ?_⟩
  · rw [(halong 7 hseven).forward (by decide), hplace 7]
    decide
  · exact ((hshows [10, 11] (some 99)).atFrame (by decide)).trans (by decide)

end Cursor

end FrameScope
