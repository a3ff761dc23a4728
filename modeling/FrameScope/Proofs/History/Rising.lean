import FrameScope.History.Basic
import FrameScope.Proofs.Outcome
import Mathlib.Tactic.Common

/-!
# Histories that rise

Appending keeps heights rising (`Rising.append`), and an append is refused exactly when the frame
does not advance past the head (`append_eq_ok_iff`, `append_eq_error_iff`): `Appended` says what
becomes of the frames either way (`appended_tryAppend`). On rising heights the
binary search finds a height wherever it is (`findHeight_eq_some_iff`).
-/

namespace FrameScope

/-- What an append makes of the frames before it: the frame goes last when there is none or its
height exceeds the last one's, and else nothing changes. -/
structure Appended (before after : List Frame) (f : Frame) (outcome : Except StoreError Height) :
    Prop where
  accepted : (∀ head ∈ before.getLast?, head.height < f.height) →
    outcome = .ok f.height ∧ after = before ++ [f]
  refused : ∀ head ∈ before.getLast?, f.height ≤ head.height →
    outcome = .error (.notAdvancing head.height f.height) ∧ after = before

namespace History

/-- Heights strictly rise from frame to frame. -/
def Rising (h : History) : Prop := h.frames.toList.Pairwise (·.height < ·.height)

variable {h h' : History} {f : Frame}

theorem rising_empty : empty.Rising := List.Pairwise.nil

theorem Rising.lt (hh : h.Rising) {i j : Nat} {f g : Frame} (hi : h.frames[i]? = some f)
    (hj : h.frames[j]? = some g) (hij : i < j) : f.height < g.height := by
  rw [← Array.getElem?_toList] at hi hj
  obtain ⟨hi', rfl⟩ := List.getElem?_eq_some_iff.mp hi
  obtain ⟨hj', rfl⟩ := List.getElem?_eq_some_iff.mp hj
  exact List.pairwise_iff_getElem.mp hh i j hi' hj' hij

theorem Rising.eq_of_height_eq (hh : h.Rising) {i j : Nat} {f g : Frame}
    (hi : h.frames[i]? = some f) (hj : h.frames[j]? = some g) (hfg : f.height = g.height) :
    i = j := by
  rcases Nat.lt_trichotomy i j with hlt | heq | hgt
  · exact absurd (hh.lt hi hj hlt) (by rw [hfg]; exact Nat.lt_irrefl _)
  · exact heq
  · exact absurd (hh.lt hj hi hgt) (by rw [hfg]; exact Nat.lt_irrefl _)

/-! ### Appending -/

theorem head?_eq : h.head? = h.frames.toList.getLast?.map (·.height) := by
  rw [head?, latest?, Array.getLast?_toList]

theorem append_eq_ok_iff :
    h.append f = .ok h' ↔ (∀ head ∈ h.head?, head < f.height) ∧ h' = ⟨h.frames.push f⟩ := by
  unfold append checkAdvances
  cases h.head? with
  | none => simp [bind, Except.bind, eq_comm]
  | some head =>
    by_cases hle : f.height ≤ head
    · have hnot : ¬ head < f.height := Nat.not_lt.mpr hle
      simp [bind, Except.bind, hle, hnot]
    · have hlt : head < f.height := Nat.lt_of_not_le hle
      simp [bind, Except.bind, hle, hlt, eq_comm]

theorem append_eq_error_iff {e : StoreError} :
    h.append f = .error e ↔ ∃ head ∈ h.head?, f.height ≤ head ∧ e = .notAdvancing head f.height := by
  unfold append checkAdvances
  cases h.head? with
  | none => simp [bind, Except.bind]
  | some head =>
    by_cases hle : f.height ≤ head
    · simp [bind, Except.bind, hle, eq_comm]
    · simp [bind, Except.bind, hle]

theorem Rising.push (hh : h.Rising) (hhead : ∀ head ∈ h.head?, head < f.height) :
    Rising ⟨h.frames.push f⟩ := by
  rw [Rising, Array.toList_push, List.pairwise_append]
  refine ⟨hh, List.pairwise_singleton _ _, fun g hg f' hf' => ?_⟩
  rw [List.mem_singleton.mp hf']
  -- the last frame advances past every other one, and `f` past the last
  rcases h.frames.toList.eq_nil_or_concat with hnil | ⟨fs, last, hlast⟩
  · simp [hnil] at hg
  · have hlt : last.height < f.height := hhead last.height (by simp [head?_eq, hlast])
    rw [Rising, hlast, List.concat_eq_append, List.pairwise_append] at hh
    rw [hlast, List.concat_eq_append, List.mem_append, List.mem_singleton] at hg
    rcases hg with hg | rfl
    · exact Nat.lt_trans (hh.2.2 g hg last (by simp)) hlt
    · exact hlt

theorem Rising.append (hh : h.Rising) (happend : h.append f = .ok h') : h'.Rising := by
  obtain ⟨hhead, rfl⟩ := append_eq_ok_iff.mp happend
  exact hh.push hhead

theorem appendAll_eq_ok {fs : List Frame} (happend : h.appendAll fs = .ok h') (hh : h.Rising) :
    h'.Rising ∧ h'.frames.toList = h.frames.toList ++ fs := by
  induction fs generalizing h with
  | nil =>
    simp only [appendAll, Except.ok.injEq] at happend
    simp [← happend, hh]
  | cons f fs ih =>
    obtain ⟨mid, hmid, hrest⟩ := except_bind_eq_ok happend
    obtain ⟨hrising, hframes⟩ := ih hrest (hh.append hmid)
    obtain ⟨-, rfl⟩ := append_eq_ok_iff.mp hmid
    exact ⟨hrising, by simp [hframes]⟩

theorem appended_tryAppend (h : History) (f : Frame) :
    Appended h.frames.toList (h.tryAppend f).1.frames.toList f (h.tryAppend f).2 where
  accepted hhead := by
    have hok : h.append f = .ok ⟨h.frames.push f⟩ := by
      refine append_eq_ok_iff.mpr ⟨fun p hp => ?_, rfl⟩
      rw [head?_eq] at hp
      obtain ⟨g, hg, rfl⟩ := Option.map_eq_some_iff.mp hp
      exact hhead g hg
    simp [tryAppend, hok]
  refused head hhead hle := by
    have hheight : h.head? = some head.height := by
      rw [head?_eq, Option.mem_def.mp hhead, Option.map_some]
    have herror : h.append f = .error (.notAdvancing head.height f.height) :=
      append_eq_error_iff.mpr ⟨head.height, hheight, hle, rfl⟩
    simp [tryAppend, herror]

theorem Rising.tryAppend {h : History} (hh : h.Rising) (f : Frame) : (h.tryAppend f).1.Rising := by
  unfold History.tryAppend
  split
  · rename_i h' hok
    exact hh.append hok
  · exact hh

theorem prefix_tryAppend (h : History) (f : Frame) :
    h.frames.toList <+: (h.tryAppend f).1.frames.toList := by
  unfold History.tryAppend
  split
  · rename_i h' hok
    obtain ⟨-, rfl⟩ := append_eq_ok_iff.mp hok
    simp
  · exact List.prefix_rfl

/-! ### Looking up a height -/

/-- **On rising heights the search finds the position of a height, if there is one between its
bounds.** -/
theorem search_eq_some_iff (hh : h.Rising) {height : Height} {low high i : Nat}
    (hhigh : high ≤ h.frames.size) :
    search h.frames height low high = some i ↔
      low ≤ i ∧ i < high ∧ ∃ f, h.frames[i]? = some f ∧ f.height = height := by
  fun_induction search h.frames height low high with
  | case1 low high hlt middle hnone =>
    have hmiddle : middle < h.frames.size := by omega
    simp [hmiddle] at hnone
  | case2 low high hlt middle f hf hheight =>
    constructor
    · intro hi
      obtain rfl := Option.some.inj hi
      exact ⟨by omega, by omega, f, hf, hheight⟩
    · rintro ⟨-, -, g, hg, hgheight⟩
      rw [hh.eq_of_height_eq hf hg (hheight.trans hgheight.symm)]
  | case3 low high hlt middle f hf hne hless ih =>
    rw [ih hhigh]
    constructor
    · rintro ⟨hi, hrest⟩
      exact ⟨by omega, hrest⟩
    · rintro ⟨-, hi, g, hg, hgheight⟩
      refine ⟨?_, hi, g, hg, hgheight⟩
      by_contra hle
      have hmono : ¬ middle < i := by omega
      rcases Nat.lt_or_eq_of_le (Nat.not_lt.mp hmono) with hbefore | rfl
      · have := hh.lt hg hf hbefore
        rw [hgheight] at this
        exact Nat.lt_asymm this hless
      · rw [hf] at hg
        exact hne (by rw [Option.some.inj hg, hgheight])
  | case4 low high hlt middle f hf hne hless ih =>
    rw [ih (by omega)]
    constructor
    · rintro ⟨hi, hbefore, hrest⟩
      exact ⟨hi, by omega, hrest⟩
    · rintro ⟨hi, -, g, hg, hgheight⟩
      refine ⟨hi, ?_, g, hg, hgheight⟩
      by_contra hle
      rcases Nat.lt_or_eq_of_le (Nat.not_lt.mp hle) with hbehind | rfl
      · have := hh.lt hf hg hbehind
        rw [hgheight] at this
        exact hless this
      · rw [hf] at hg
        exact hne (by rw [Option.some.inj hg, hgheight])
  | case5 low high hge =>
    simp only [reduceCtorEq, false_iff]
    rintro ⟨hi, hi', -⟩
    omega

theorem findHeight_eq_some_iff (hh : h.Rising) {height : Height} {i : Nat} :
    findHeight h.frames height = some i ↔ ∃ f, h.frames[i]? = some f ∧ f.height = height := by
  rw [findHeight, search_eq_some_iff hh (Nat.le_refl _)]
  constructor
  · rintro ⟨-, -, hf⟩
    exact hf
  · rintro ⟨f, hf, hheight⟩
    obtain ⟨hi, -⟩ := Array.getElem?_eq_some_iff.mp hf
    exact ⟨Nat.zero_le i, hi, f, hf, hheight⟩

theorem at?_eq_some_iff (hh : h.Rising) {height : Height} :
    h.at? height = some f ↔ f ∈ h.frames.toList ∧ f.height = height := by
  rw [at?, Option.bind_eq_some_iff]
  constructor
  · rintro ⟨i, hi, hf⟩
    obtain ⟨g, hg, hheight⟩ := (findHeight_eq_some_iff hh).mp hi
    obtain rfl := Option.some.inj (hf.symm.trans hg)
    exact ⟨Array.mem_toList_iff.mpr (Array.mem_of_getElem? hf), hheight⟩
  · rintro ⟨hf, hheight⟩
    obtain ⟨i, hi⟩ := List.mem_iff_getElem?.mp hf
    rw [Array.getElem?_toList] at hi
    exact ⟨i, (findHeight_eq_some_iff hh).mpr ⟨f, hi, hheight⟩, hi⟩

end History

end FrameScope
