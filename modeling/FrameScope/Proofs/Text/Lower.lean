import FrameScope.Text.Lower
import Mathlib.Data.List.Infix

/-!
# A part of a text in lower case

A part of a text comes out in lower case as it does alone, but for capital sigmas that stand at a
word's end in one of the two and not in the other (`lowerBetween_eq_iff`). Which sigmas these can be
the part itself tells (`openSigma`): one with nothing but case-ignorable characters on one side. All
others stand at a word's end in every text around the part or in none (`readsAlike_of_not_open`),
and an open one changes in front of a letter or behind one (`exists_letter_of_open`).
-/

namespace FrameScope.Text

variable {before behind cs xs ys : List Char}

/-! ### Parts of a text -/

/-- The lower case of a part of a text, between the characters before it, the nearest first, and
those behind it. -/
def lowerBetween (before : List Char) : List Char → List Char → List Char
  | [], _ => []
  | c :: rest, behind =>
    (if c = 'Σ' then [if isWordEnd before (rest ++ behind) then 'ς' else 'σ'] else lowerOf c)
      ++ lowerBetween (c :: before) rest behind

theorem lowerFrom_append (before cs behind : List Char) :
    lowerFrom before (cs ++ behind) =
      lowerBetween before cs behind ++ lowerFrom (cs.reverse ++ before) behind := by
  induction cs generalizing before with
  | nil => rfl
  | cons c cs ih =>
    rw [List.cons_append, lowerFrom, lowerBetween, ih, List.append_assoc, List.reverse_cons,
      List.append_assoc, List.singleton_append]

theorem lower_eq_lowerBetween (cs : List Char) : lower cs = lowerBetween [] cs [] := by
  have h := lowerFrom_append [] cs []
  rwa [List.append_nil, lowerFrom, List.append_nil] at h

theorem lower_append_append (before cs behind : List Char) :
    lower (before ++ cs ++ behind) =
      lowerBetween [] before (cs ++ behind) ++ lowerBetween before.reverse cs behind ++
        lowerBetween (cs.reverse ++ before.reverse) behind [] := by
  have hbehind := lowerFrom_append (cs.reverse ++ before.reverse) behind []
  rw [List.append_nil, lowerFrom, List.append_nil] at hbehind
  rw [lower, List.append_assoc, lowerFrom_append, lowerFrom_append, List.append_nil, hbehind,
    List.append_assoc]

/-- Every capital sigma of a part stands at a word's end between these texts when it does between
those. -/
def ReadsAlike (before behind before' behind' cs : List Char) : Prop :=
  ∀ xs ys, cs = xs ++ 'Σ' :: ys →
    isWordEnd (xs.reverse ++ before) (ys ++ behind) =
      isWordEnd (xs.reverse ++ before') (ys ++ behind')

theorem readsAlike_cons_iff {c : Char} {before' behind' : List Char} :
    ReadsAlike before behind before' behind' (c :: cs) ↔
      (c = 'Σ' → isWordEnd before (cs ++ behind) = isWordEnd before' (cs ++ behind')) ∧
        ReadsAlike (c :: before) behind (c :: before') behind' cs := by
  constructor
  · intro h
    refine ⟨fun hc => h [] cs (by rw [hc, List.nil_append]), fun xs ys hcs => ?_⟩
    have hxs := h (c :: xs) ys (by rw [hcs, List.cons_append])
    rwa [List.reverse_cons, List.append_assoc, List.append_assoc] at hxs
  · rintro ⟨hhead, hrest⟩ xs ys hcs
    cases xs with
    | nil =>
      obtain ⟨hc, rfl⟩ := List.cons.inj hcs
      exact hhead hc
    | cons x xs =>
      obtain ⟨rfl, hrest'⟩ := List.cons.inj hcs
      rw [List.reverse_cons, List.append_assoc, List.append_assoc]
      exact hrest xs ys hrest'

theorem length_lowerBetween (before behind before' behind' cs : List Char) :
    (lowerBetween before cs behind).length = (lowerBetween before' cs behind').length := by
  induction cs generalizing before before' with
  | nil => rfl
  | cons c cs ih =>
    rw [lowerBetween, lowerBetween, List.length_append, List.length_append,
      ih (c :: before) (c :: before')]
    split <;> rfl

/-- **A part comes out alike exactly when its capital sigmas do.** -/
theorem lowerBetween_eq_iff {before' behind' : List Char} :
    lowerBetween before cs behind = lowerBetween before' cs behind' ↔
      ReadsAlike before behind before' behind' cs := by
  induction cs generalizing before before' with
  | nil => simp [lowerBetween, ReadsAlike]
  | cons c cs ih =>
    rw [lowerBetween, lowerBetween, readsAlike_cons_iff, ← ih]
    by_cases hc : c = 'Σ'
    · subst hc
      rw [if_pos rfl, if_pos rfl, List.singleton_append, List.singleton_append, List.cons.injEq,
        imp_iff_right rfl]
      refine and_congr_left fun _ => ?_
      cases isWordEnd before (cs ++ behind) <;> cases isWordEnd before' (cs ++ behind') <;> simp
    · rw [if_neg hc, if_neg hc, List.append_cancel_left_eq]
      simp [hc]

/-! ### Ends of words -/

theorem meetsCased_append_of_ignorable (h : xs.all isCaseIgnorable = true) (ys : List Char) :
    meetsCased (xs ++ ys) = meetsCased ys := by
  rw [meetsCased, List.dropWhile_append_of_pos (by simpa using h)]
  rfl

theorem meetsCased_append_of_not_ignorable (h : ¬ xs.all isCaseIgnorable = true) (ys : List Char) :
    meetsCased (xs ++ ys) = meetsCased xs := by
  induction xs with
  | nil => exact absurd rfl h
  | cons x xs ih =>
    by_cases hx : isCaseIgnorable x = true
    · have hrest : ¬ xs.all isCaseIgnorable = true := fun hall => h (by simp [hx, hall])
      have hskip (zs : List Char) : meetsCased (x :: zs) = meetsCased zs := by
        simp [meetsCased, hx]
      rw [List.cons_append, hskip, hskip, ih hrest]
    · simp [meetsCased, hx]

theorem meetsCased_of_ignorable (h : xs.all isCaseIgnorable = true) : meetsCased xs = false := by
  have happend := meetsCased_append_of_ignorable h []
  rwa [List.append_nil] at happend

/-! ### Open sigmas -/

/-- Whether a capital sigma between these parts of a text is open: on one side of it there is nothing
but case-ignorable characters, so that a letter beyond them makes it the end of a word, or makes it
the end of a word no longer. -/
def openBetween (before behind : List Char) : Bool :=
  before.all isCaseIgnorable && !meetsCased behind ||
    meetsCased before && behind.all isCaseIgnorable

/-- Whether some capital sigma of a text that follows the characters `before` is open. -/
def openSigmaFrom (before : List Char) : List Char → Bool
  | [] => false
  | c :: rest => (c == 'Σ' && openBetween before rest) || openSigmaFrom (c :: before) rest

/-- Whether some capital sigma of a text is open. -/
def openSigma (cs : List Char) : Bool := openSigmaFrom [] cs

theorem openSigmaFrom_iff :
    openSigmaFrom before cs = true ↔
      ∃ xs ys, cs = xs ++ 'Σ' :: ys ∧ openBetween (xs.reverse ++ before) ys = true := by
  induction cs generalizing before with
  | nil => simp [openSigmaFrom]
  | cons c cs ih =>
    rw [openSigmaFrom, Bool.or_eq_true, Bool.and_eq_true, beq_iff_eq, ih]
    constructor
    · rintro (⟨rfl, hopen⟩ | ⟨xs, ys, rfl, hopen⟩)
      · exact ⟨[], cs, rfl, hopen⟩
      · refine ⟨c :: xs, ys, rfl, ?_⟩
        rwa [List.reverse_cons, List.append_assoc]
    · rintro ⟨xs, ys, hcs, hopen⟩
      cases xs with
      | nil =>
        obtain ⟨hc, rfl⟩ := List.cons.inj hcs
        exact .inl ⟨hc, hopen⟩
      | cons x xs =>
        obtain ⟨rfl, hrest⟩ := List.cons.inj hcs
        rw [List.reverse_cons, List.append_assoc] at hopen
        exact .inr ⟨xs, ys, hrest, hopen⟩

theorem openSigma_iff :
    openSigma cs = true ↔ ∃ xs ys, cs = xs ++ 'Σ' :: ys ∧ openBetween xs.reverse ys = true := by
  rw [openSigma, openSigmaFrom_iff]
  simp only [List.append_nil]

/-- A sigma that is not open stands at a word's end in every text around its part or in none. -/
theorem isWordEnd_of_not_open (h : openBetween xs ys = false) (before behind : List Char) :
    isWordEnd (xs ++ before) (ys ++ behind) = isWordEnd xs ys := by
  rw [openBetween, Bool.or_eq_false_iff, Bool.and_eq_false_iff, Bool.and_eq_false_iff,
    Bool.not_eq_false'] at h
  obtain ⟨hstart, hend⟩ := h
  rw [isWordEnd, isWordEnd]
  by_cases hxs : xs.all isCaseIgnorable = true
  · -- a letter stands behind it whatever follows, so it ends no word
    have hcased : meetsCased ys = true := hstart.resolve_left (by simp [hxs])
    have hys : ¬ ys.all isCaseIgnorable = true := fun hall => by
      simp [meetsCased_of_ignorable hall] at hcased
    rw [meetsCased_append_of_not_ignorable hys, hcased, Bool.not_true, Bool.and_false,
      Bool.and_false]
  · rw [meetsCased_append_of_not_ignorable hxs]
    cases hcased : meetsCased xs with
    | false => rfl
    | true =>
      have hys : ¬ ys.all isCaseIgnorable = true := by simpa [hcased] using hend
      rw [meetsCased_append_of_not_ignorable hys]

/-- **Without an open sigma a part comes out alike in every text.** -/
theorem readsAlike_of_not_open (h : openSigma cs = false) (before behind : List Char) :
    ReadsAlike before behind [] [] cs := by
  intro xs ys hcs
  have hclosed : openBetween xs.reverse ys = false := by
    rw [← Bool.not_eq_true] at h ⊢
    exact fun hopen => h (openSigma_iff.mpr ⟨xs, ys, hcs, hopen⟩)
  rw [List.append_nil, List.append_nil, isWordEnd_of_not_open hclosed]

/-- A letter: what has a case and is not ignored where cases are looked for. -/
def IsLetter (c : Char) : Prop := isCased c = true ∧ isCaseIgnorable c = false

theorem IsLetter.meetsCased {c : Char} (hc : IsLetter c) : meetsCased [c] = true := by
  simp [Text.meetsCased, hc.1, hc.2]

/-- **An open sigma changes behind a letter or in front of one**, whichever letter it is. -/
theorem exists_letter_of_open (h : openSigma cs = true) :
    (∀ c, IsLetter c → ¬ ReadsAlike [c] [] [] [] cs) ∨
      ∀ c, IsLetter c → ¬ ReadsAlike [] [c] [] [] cs := by
  obtain ⟨xs, ys, hcs, hopen⟩ := openSigma_iff.mp h
  rw [openBetween, Bool.or_eq_true, Bool.and_eq_true, Bool.and_eq_true, Bool.not_eq_true'] at hopen
  rcases hopen with ⟨hxs, hys⟩ | ⟨hxs, hys⟩
  · refine .inl fun c hc halike => ?_
    have hend := halike xs ys hcs
    rw [isWordEnd, isWordEnd, meetsCased_append_of_ignorable hxs, hc.meetsCased, List.append_nil,
      List.append_nil, meetsCased_of_ignorable hxs, hys] at hend
    exact absurd hend (by decide)
  · refine .inr fun c hc halike => ?_
    have hend := halike xs ys hcs
    rw [isWordEnd, isWordEnd, meetsCased_append_of_ignorable hys, hc.meetsCased, List.append_nil,
      List.append_nil, meetsCased_of_ignorable hys, hxs] at hend
    exact absurd hend (by decide)

end FrameScope.Text
