import FrameScope.Proofs.History.LogStore
import FrameScope.Proofs.History.Memory

/-!
# What a frame store promises

Both kinds of store, memory and log, show a history of rising heights, answer every question about
it rightly (`FrameSource.Shows`), take a frame exactly when it advances past the head (`Appended`),
and only ever add to what they show: `frame_store_contract`.
-/

namespace FrameScope

/-! ### What a source shows -/

/-- A source shows these frames, whichever way it is asked: a height is found where a frame of that
height is, and not found otherwise. -/
structure FrameSource.Shows {σ : Type} [FrameSource σ] (s : σ) (fs : List Frame) : Prop where
  frames : (FrameSource.frames s).toList = fs
  latest : FrameSource.latest? s = fs.getLast?
  length : FrameSource.length s = fs.length
  isEmpty : FrameSource.isEmpty s = true ↔ fs = []
  found : ∀ height f, FrameSource.at? s height = some f ↔ f ∈ fs ∧ f.height = height
  position : ∀ height i, FrameSource.position? s height = some i ↔
    ∃ f, fs[i]? = some f ∧ f.height = height

/-- A source shows a history of rising heights, also where it leaves what it can to the defaults. -/
structure FrameSource.Holds {σ : Type} [FrameSource σ] (s : σ) (h : History) : Prop where
  rising : h.Rising
  shows : Shows s h.frames.toList
  bare : Shows (Bare.mk s) h.frames.toList

namespace FrameSource

theorem shows_history {h : History} (hh : h.Rising) : Shows h h.frames.toList where
  frames := rfl
  latest := by
    rw [Array.getLast?_toList]
    rfl
  length := Array.length_toList.symm
  isEmpty := by simp [FrameSource.isEmpty, History.length]
  found height f := History.at?_eq_some_iff hh
  position height i := by
    simp only [Array.getElem?_toList]
    exact History.findHeight_eq_some_iff hh

theorem holds_logStore {s : LogStore} (hs : s.history.Rising) : Holds s s.history := by
  obtain ⟨hframes, hlatest, hlength, hempty, hfound, hposition⟩ := shows_history hs
  exact ⟨hs, ⟨hframes, hlatest, hlength, hempty, hfound, hposition⟩,
    ⟨hframes, hlatest, hlength, hempty, hfound, hposition⟩⟩

theorem holds_reader {r : MemoryReader} (hr : r.history.Rising) : Holds r r.history := by
  obtain ⟨hframes, hlatest, hlength, hempty, hfound, hposition⟩ := shows_history hr
  exact ⟨hr, ⟨hframes, hlatest, hlength, hempty, hfound, hposition⟩,
    ⟨hframes, hlatest, hlength, hempty, hfound, hposition⟩⟩

end FrameSource

/-! ### Stores in memory -/

namespace Memory

/-- What a handle promises at any time: it holds its history, an append through it or through any of
its clones is an append to that history, and a clone made of it shows the same history ever after. -/
structure Promises (m : Memory) (i : Handle) : Prop where
  holds : FrameSource.Holds (MemoryReader.mk m i) (m.history i)
  appends : ∀ j f, m.cell? j = m.cell? i →
    Appended (m.history i).frames.toList ((m.append j f).1.history i).frames.toList f
      (m.append j f).2
  clones : ∀ more, ((m.clone i).1.run more).history (m.clone i).2 =
    ((m.clone i).1.run more).history i

theorem Valid.promises {m : Memory} (hm : m.Valid) {i : Handle} (hi : m.Live i) : m.Promises i where
  holds := FrameSource.holds_reader (r := ⟨m, i⟩) (hm.rising_history hi)
  appends j f hj := by
    obtain ⟨hhistory, houtcome⟩ := history_append hm hi hj f
    rw [hhistory, houtcome]
    exact History.appended_tryAppend _ f
  clones more := by
    obtain ⟨hlive, hcell⟩ := cell?_clone hi
    obtain ⟨-, hextends⟩ := run_valid_extends (hm.clone i) more
    have hi' : (m.clone i).1.Live i := (extends_clone m i).live hi
    refine history_eq_of_cell?_eq ?_
    rw [hextends.cell? hlive, hextends.cell? hi', hcell, (extends_clone m i).cell? hi]

end Memory

/-! ### Stores on a log -/

namespace LogStore

variable {fs fs' : Files} {s s' : LogStore} {root : Path} {f : Frame}

/-- A store on files where its log can be written. -/
structure Valid (fs : Files) (s : LogStore) : Prop where
  log : fs.Accepts s.path
  rising : s.history.Rising

/-- A store that was opened, for appending or for reading; in the second case nothing stands in the
way of its log. -/
inductive Opened (fs : Files) (root : Path) : Files → LogStore → Prop
  | openStore {fs' : Files} {s : LogStore} :
      LogStore.openStore fs root = (fs', .ok s) → Opened fs root fs' s
  | openExisting {s : LogStore} : fs.Accepts (logPath root) →
      LogStore.openExisting fs root = .ok s → Opened fs root fs s

/-- The files and the store behind appends in this order, refused ones among them. -/
def run (fs : Files) (s : LogStore) (frames : List Frame) : Files × LogStore :=
  frames.foldl (fun state f => (tryAppend state.1 state.2 f).1) (fs, s)

theorem Opened.valid (h : Opened fs root fs' s) : Valid fs' s := by
  cases h with
  | openStore h =>
    obtain ⟨hpath, haccepts, hread⟩ := openStore_ok h
    exact ⟨hpath ▸ haccepts, (FrameLog.read_eq_ok_iff.mp hread).rising.1⟩
  | openExisting haccepts h =>
    obtain ⟨hpath, hreads⟩ := openExisting_ok h
    exact ⟨hpath ▸ haccepts, hreads.rising.1⟩

/-- What a store on a log promises at any time: it holds its history, and an append whose record fits
is one to the history; the frame's record goes last in the log, or nothing at all changes. -/
structure Promises (fs : Files) (s : LogStore) : Prop where
  holds : FrameSource.Holds s s.history
  appends : ∀ f, (FrameLog.payload f).length < Word.narrowSize →
    Appended s.history.frames.toList (tryAppend fs s f).1.2.history.frames.toList f
      (tryAppend fs s f).2
  written : ∀ f height, (tryAppend fs s f).2 = .ok height →
    (tryAppend fs s f).1.1.contentAt s.path = fs.contentAt s.path ++ FrameLog.records [f]
  unchanged : ∀ f e, (tryAppend fs s f).2 = .error e → (tryAppend fs s f).1 = (fs, s)

theorem tryAppend_of_ok {after : Files × LogStore} (h : append fs s f = .ok after) :
    tryAppend fs s f = (after, .ok f.height) := by simp [tryAppend, h]

theorem tryAppend_of_error {e : StoreError} (h : append fs s f = .error e) :
    tryAppend fs s f = ((fs, s), .error e) := by simp [tryAppend, h]

theorem Valid.promises (hs : Valid fs s) : Promises fs s where
  holds := FrameSource.holds_logStore hs.rising
  appends f hsize := by
    have hhistory := History.appended_tryAppend s.history f
    rcases hh : s.history.append f with e | h
    · have herror : append fs s f = .error e := by simp [append, hh, bind, Except.bind]
      simpa [History.tryAppend, hh, tryAppend_of_error herror] using hhistory
    · have hbytes := FrameLog.record_eq_ok_iff.mpr ⟨hsize, rfl⟩
      obtain ⟨fs', hok, -, -⟩ := append_ok hs.log hh hbytes
      simpa [History.tryAppend, hh, tryAppend_of_ok hok] using hhistory
  written f height hheight := by
    rcases hok : append fs s f with e | ⟨fs', s'⟩
    · simp [tryAppend_of_error hok] at hheight
    · obtain ⟨bytes, -, hbytes, -, -, hcontent⟩ := append_eq_ok hs.log hok
      rw [tryAppend_of_ok hok, hcontent, (FrameLog.record_eq_ok_iff.mp hbytes).2]
      simp [FrameLog.records]
  unchanged f e he := by
    rcases hok : append fs s f with e' | after
    · rw [tryAppend_of_error hok]
    · simp [tryAppend_of_ok hok] at he

theorem Valid.tryAppend (hs : Valid fs s) (f : Frame) :
    Valid (tryAppend fs s f).1.1 (tryAppend fs s f).1.2 ∧
      s.history.frames.toList <+: (LogStore.tryAppend fs s f).1.2.history.frames.toList := by
  rcases hok : append fs s f with e | ⟨fs', s'⟩
  · rw [tryAppend_of_error hok]
    exact ⟨hs, List.prefix_rfl⟩
  · obtain ⟨bytes, hh, -, hpath, haccepts, -⟩ := append_eq_ok hs.log hok
    rw [tryAppend_of_ok hok]
    refine ⟨⟨hpath ▸ haccepts, hs.rising.append hh⟩, ?_⟩
    rw [(History.append_eq_ok_iff.mp hh).2]
    simp

theorem run_append (frames more : List Frame) : run fs s (frames ++ more) =
    run (run fs s frames).1 (run fs s frames).2 more := List.foldl_append

/-- **However many frames are appended to a valid store, it stays valid and its history only
grows.** -/
theorem Valid.run (hs : Valid fs s) (frames : List Frame) :
    Valid (run fs s frames).1 (run fs s frames).2 ∧
      s.history.frames.toList <+: (LogStore.run fs s frames).2.history.frames.toList := by
  induction frames generalizing fs s with
  | nil => exact ⟨hs, List.prefix_rfl⟩
  | cons f frames ih =>
    obtain ⟨hvalid, hprefix⟩ := hs.tryAppend f
    obtain ⟨hrun, hrest⟩ := ih hvalid
    exact ⟨hrun, hprefix.trans hrest⟩

end LogStore

/-! ### Both kinds of store -/

/-- **The contract of a frame store.** At every time of every run, a handle on a history in memory and
a store on a log hold a history of rising heights, take a frame exactly when it advances past the
head and change nothing otherwise, and what they show is the start of all they show later, so that
a position once in range keeps its frame. -/
theorem frame_store_contract :
    (∀ (ops more : List Memory.Op) (i : Memory.Handle), (Memory.empty.run ops).Live i →
      (Memory.empty.run ops).Promises i ∧
        ((Memory.empty.run ops).history i).frames.toList <+:
          ((Memory.empty.run (ops ++ more)).history i).frames.toList) ∧
    (∀ (ops : List Memory.Op) (fs : List Frame) (m : Memory) (i : Memory.Handle),
      (Memory.empty.run ops).ofFrames fs = .ok (m, i) → (m.history i).frames.toList = fs) ∧
    ∀ (fs₀ fs : Files) (root : Path) (s : LogStore), LogStore.Opened fs₀ root fs s →
      ∀ frames more : List Frame,
        LogStore.Promises (LogStore.run fs s frames).1 (LogStore.run fs s frames).2 ∧
          (LogStore.run fs s frames).2.history.frames.toList <+:
            (LogStore.run fs s (frames ++ more)).2.history.frames.toList := by
  refine ⟨fun ops more i hi => ?memory, fun ops fs m i h => ?start,
    fun fs₀ fs root s hs frames more => ?log⟩
  case memory =>
    obtain ⟨hvalid, -⟩ := Memory.run_valid_extends Memory.valid_empty ops
    obtain ⟨-, hextends⟩ := Memory.run_valid_extends hvalid more
    refine ⟨hvalid.promises hi, ?_⟩
    rw [Memory.run_append]
    exact hextends.histories i hi
  case start =>
    obtain ⟨history, -, hframes, heq⟩ := Memory.ofFrames_eq_ok h
    have hhistory := Memory.history_allocate (Memory.empty.run ops) history
    rw [heq] at hhistory
    rw [hhistory, hframes]
  case log =>
    obtain ⟨hvalid, -⟩ := hs.valid.run frames
    obtain ⟨-, hprefix⟩ := hvalid.run more
    refine ⟨hvalid.promises, ?_⟩
    rw [LogStore.run_append]
    exact hprefix

/-- The contract for a clone of a new handle and for a fresh store behind one append. -/
theorem frame_store_contract_fresh :
    (Memory.empty.run [.new, .clone 0]).Promises 1 ∧
      (∃ m i, Memory.empty.ofFrames [{ height := 1 }] = .ok (m, i) ∧
        (m.history i).frames.toList = [{ height := 1 }]) ∧
        LogStore.Promises (LogStore.run LogStore.fresh.1 LogStore.fresh.2 [{ height := 1 }]).1
          (LogStore.run LogStore.fresh.1 LogStore.fresh.2 [{ height := 1 }]).2 := by
  obtain ⟨hmemory, hstart, hlog⟩ := frame_store_contract
  refine ⟨(hmemory [.new, .clone 0] [] 1 (by decide)).1, ⟨_, _, rfl, hstart [] _ _ _ rfl⟩, ?_⟩
  exact (hlog .empty _ _ _ (.openStore LogStore.openStore_fresh) [{ height := 1 }] []).1

end FrameScope
