import FrameScope.History.Memory
import FrameScope.Proofs.History.Rising

/-!
# Histories in memory

Whatever is done with a memory, every handle stands for a cell that is there, every cell holds a
history that rises (`Memory.Valid`), and the histories behind handles only grow (`Memory.Extends`,
`run_valid_extends`). An append through a handle is an append to the history of all its clones
(`history_append`) and of nothing else (`history_append_of_ne`).
-/

namespace FrameScope

namespace Memory

/-! ### Memories that make sense -/

/-- Every handle stands for a cell that is there, and every history rises. -/
structure Valid (m : Memory) : Prop where
  cells : ∀ c ∈ m.handles, c < m.cells.length
  rising : ∀ h ∈ m.cells, h.Rising

/-- A handle that is there. -/
def Live (m : Memory) (i : Handle) : Prop := i < m.handles.length

instance (m : Memory) (i : Handle) : Decidable (m.Live i) := Nat.decLt _ _

/-- Every handle is still there, and its history has at most grown. -/
structure Extends (m m' : Memory) : Prop where
  handles : m.handles <+: m'.handles
  histories : ∀ i, m.Live i → (m.history i).frames.toList <+: (m'.history i).frames.toList

variable {m m' m'' : Memory} {i j : Handle}

theorem Extends.refl (m : Memory) : Extends m m :=
  ⟨List.prefix_rfl, fun _ _ => List.prefix_rfl⟩

theorem Extends.live (h : Extends m m') (hi : m.Live i) : m'.Live i :=
  Nat.lt_of_lt_of_le hi h.handles.length_le

theorem Extends.trans (h : Extends m m') (h' : Extends m' m'') : Extends m m'' :=
  ⟨h.handles.trans h'.handles,
    fun i hi => (h.histories i hi).trans (h'.histories i (h.live hi))⟩

theorem Extends.cell? (h : Extends m m') (hi : m.Live i) : m'.cell? i = m.cell? i := by
  obtain ⟨rest, hrest⟩ := h.handles
  rw [Memory.cell?, Memory.cell?, ← hrest, List.getElem?_append_left hi]

theorem valid_empty : Valid empty := ⟨by simp [empty], by simp [empty]⟩

theorem history_of_cell {c : Nat} {h : History} (hcell : m.cell? i = some c)
    (hc : m.cells[c]? = some h) : m.history i = h := by
  rw [history, hcell, Option.bind_some, hc, Option.getD_some]

theorem Valid.exists_cell (hm : m.Valid) (hi : m.Live i) :
    ∃ c h, m.cell? i = some c ∧ m.cells[c]? = some h ∧ m.history i = h := by
  have hcell : m.cell? i = some m.handles[i] := List.getElem?_eq_getElem hi
  have hlt := hm.cells m.handles[i] (List.getElem_mem hi)
  have hc := List.getElem?_eq_getElem hlt
  exact ⟨_, _, hcell, hc, history_of_cell hcell hc⟩

theorem Valid.rising_history (hm : m.Valid) (hi : m.Live i) : (m.history i).Rising := by
  obtain ⟨c, h, -, hc, rfl⟩ := hm.exists_cell hi
  exact hm.rising _ (List.mem_of_getElem? hc)

theorem history_eq_of_cell?_eq (h : m.cell? i = m.cell? j) : m.history i = m.history j := by
  rw [history, history, h]

/-! ### A new cell -/

theorem Valid.allocate (hm : m.Valid) {h : History} (hh : h.Rising) : (m.allocate h).1.Valid where
  cells c hc := by
    simp only [Memory.allocate, List.mem_append, List.mem_singleton, List.length_append,
      List.length_singleton] at hc ⊢
    rcases hc with hc | rfl
    · exact Nat.lt_succ_of_lt (hm.cells c hc)
    · exact Nat.lt_succ_self _
  rising h' hh' := by
    simp only [Memory.allocate, List.mem_append, List.mem_singleton] at hh'
    rcases hh' with hh' | rfl
    · exact hm.rising h' hh'
    · exact hh

theorem history_allocate (m : Memory) (h : History) :
    (m.allocate h).1.history (m.allocate h).2 = h := by
  simp [allocate, history, cell?]

theorem extends_allocate (hm : m.Valid) (h : History) : Extends m (m.allocate h).1 where
  handles := List.prefix_append _ _
  histories i hi := by
    obtain ⟨c, h', hcell, hc, hhistory⟩ := hm.exists_cell hi
    have hlt : c < m.cells.length := (List.getElem?_eq_some_iff.mp hc).1
    have hcell' : (m.allocate h).1.cell? i = some c := by
      rw [← hcell]
      exact List.getElem?_append_left hi
    have hc' : (m.allocate h).1.cells[c]? = some h' := by
      rw [← hc]
      exact List.getElem?_append_left hlt
    have hsame : (m.allocate h).1.history i = m.history i := by
      rw [hhistory, history_of_cell hcell' hc']
    exact hsame ▸ List.prefix_rfl

/-! ### One more handle -/

theorem Valid.clone (hm : m.Valid) (i : Handle) : (m.clone i).1.Valid := by
  unfold Memory.clone
  split
  · rename_i c hc
    refine ⟨fun c' hc' => ?_, hm.rising⟩
    rcases List.mem_append.mp hc' with hc' | hc'
    · exact hm.cells c' hc'
    · rw [List.mem_singleton.mp hc']
      exact hm.cells c (List.mem_of_getElem? hc)
  · exact hm

theorem extends_clone (m : Memory) (i : Handle) : Extends m (m.clone i).1 := by
  unfold Memory.clone
  split
  · rename_i c hc
    refine ⟨List.prefix_append _ _, fun j hj => ?_⟩
    have hcell : (⟨m.cells, m.handles ++ [c]⟩ : Memory).cell? j = m.cell? j :=
      List.getElem?_append_left hj
    simp only [history, hcell]
    exact List.prefix_rfl
  · exact Extends.refl m

theorem cell?_clone (hi : m.Live i) :
    (m.clone i).1.Live (m.clone i).2 ∧ (m.clone i).1.cell? (m.clone i).2 = m.cell? i := by
  have hcell : m.cell? i = some m.handles[i] := List.getElem?_eq_getElem hi
  simp only [Memory.clone, hcell]
  exact ⟨by simp [Live], by simp [cell?]⟩

/-! ### One more frame -/

theorem append_of_cell {c : Nat} (hcell : m.cell? i = some c) (f : Frame) :
    m.append i f = (⟨m.cells.set c ((m.history i).tryAppend f).1, m.handles⟩,
      ((m.history i).tryAppend f).2) := by
  simp [append, hcell]

theorem Valid.append (hm : m.Valid) (hi : m.Live i) (f : Frame) : (m.append i f).1.Valid := by
  obtain ⟨c, h, hcell, -, -⟩ := hm.exists_cell hi
  rw [append_of_cell hcell]
  refine ⟨fun c' hc' => by simpa using hm.cells c' hc', fun h' hh' => ?_⟩
  rcases List.mem_or_eq_of_mem_set hh' with hh' | rfl
  · exact hm.rising h' hh'
  · exact (hm.rising_history hi).tryAppend f

theorem history_append (hm : m.Valid) (hi : m.Live i) (hj : m.cell? j = m.cell? i) (f : Frame) :
    (m.append j f).1.history i = ((m.history i).tryAppend f).1 ∧
      (m.append j f).2 = ((m.history i).tryAppend f).2 := by
  obtain ⟨c, h, hcell, hc, -⟩ := hm.exists_cell hi
  have hlt : c < m.cells.length := (List.getElem?_eq_some_iff.mp hc).1
  rw [append_of_cell (hj.trans hcell), history_eq_of_cell?_eq hj]
  refine ⟨?_, rfl⟩
  exact history_of_cell (m := ⟨m.cells.set c _, m.handles⟩) hcell (List.getElem?_set_self hlt)

theorem history_append_of_ne (hne : m.cell? j ≠ m.cell? i) (f : Frame) :
    (m.append j f).1.history i = m.history i := by
  rcases hcell : m.cell? j with _ | c
  · simp [append, hcell]
  · rw [append_of_cell hcell]
    generalize (m.history j).tryAppend f = behind
    have hcell' : (⟨m.cells.set c behind.1, m.handles⟩ : Memory).cell? i = m.cell? i := rfl
    rw [history, history, hcell']
    rcases hi : m.cell? i with _ | c'
    · rfl
    · have hcc : c ≠ c' := fun heq => hne (by rw [hcell, hi, heq])
      rw [Option.bind_some, Option.bind_some, List.getElem?_set_ne hcc]

theorem extends_append (hm : m.Valid) (j : Handle) (f : Frame) : Extends m (m.append j f).1 where
  handles := by
    unfold Memory.append
    simp only
    split <;> exact List.prefix_rfl
  histories i hi := by
    by_cases hj : m.cell? j = m.cell? i
    · rw [(history_append hm hi hj f).1]
      exact History.prefix_tryAppend _ f
    · exact history_append_of_ne hj f ▸ List.prefix_rfl

/-! ### Runs -/

/-- What can be done with a memory. -/
inductive Op where
  | new
  | ofFrames (fs : List Frame)
  | clone (i : Handle)
  | append (i : Handle) (f : Frame)

/-- The memory behind one operation. -/
def step (m : Memory) : Op → Memory
  | .new => m.new.1
  | .ofFrames fs => ((m.ofFrames fs).toOption.map (·.1)).getD m
  | .clone i => (m.clone i).1
  | .append i f => (m.append i f).1

/-- The memory behind operations in this order. -/
def run (m : Memory) (ops : List Op) : Memory := ops.foldl step m

theorem run_append (m : Memory) (ops more : List Op) : m.run (ops ++ more) = (m.run ops).run more :=
  List.foldl_append

theorem ofFrames_eq_ok {fs : List Frame} (h : m.ofFrames fs = .ok (m', i)) :
    ∃ history : History, history.Rising ∧ history.frames.toList = fs ∧
      m.allocate history = (m', i) := by
  obtain ⟨history, hhistory, heq⟩ := except_map_eq_ok h
  obtain ⟨hrising, hframes⟩ := History.appendAll_eq_ok hhistory History.rising_empty
  exact ⟨history, hrising, by simpa [History.empty] using hframes, heq⟩

theorem step_valid_extends (hm : m.Valid) (op : Op) : (m.step op).Valid ∧ Extends m (m.step op) := by
  cases op with
  | new => exact ⟨hm.allocate History.rising_empty, extends_allocate hm _⟩
  | ofFrames fs =>
    rcases h : m.ofFrames fs with e | ⟨m', i⟩
    · simp only [step, h, Except.toOption, Option.map_none, Option.getD_none]
      exact ⟨hm, Extends.refl m⟩
    · obtain ⟨history, hrising, -, heq⟩ := ofFrames_eq_ok h
      simp only [step, h, Except.toOption, Option.map_some, Option.getD_some]
      obtain rfl : (m.allocate history).1 = m' := congrArg Prod.fst heq
      exact ⟨hm.allocate hrising, extends_allocate hm history⟩
  | clone i => exact ⟨hm.clone i, extends_clone m i⟩
  | append i f =>
    refine ⟨?_, extends_append hm i f⟩
    by_cases hi : m.Live i
    · exact hm.append hi f
    · have hcell : m.cell? i = none := List.getElem?_eq_none (Nat.le_of_not_lt hi)
      simp only [step, Memory.append, hcell]
      exact hm

/-- **Whatever is done with a memory, it stays valid and its histories only grow.** -/
theorem run_valid_extends (hm : m.Valid) (ops : List Op) :
    (m.run ops).Valid ∧ Extends m (m.run ops) := by
  induction ops generalizing m with
  | nil => exact ⟨hm, Extends.refl m⟩
  | cons op ops ih =>
    obtain ⟨hvalid, hextends⟩ := step_valid_extends hm op
    obtain ⟨hrun, hrest⟩ := ih hvalid
    exact ⟨hrun, hextends.trans hrest⟩

end Memory

end FrameScope
