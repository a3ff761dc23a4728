import FrameScope.Proofs.History.Contract
import FrameScope.Proofs.History.Torn

/-!
# Any number of stores on one log

Stores may be opened on a log at any time, and frames appended through any of them, also through one
that has not seen what the others appended (`LogUse.Op`). What every operation preserves is
`LogUse.Sound`: behind what the log held in the beginning stand the records of the accepted frames,
in order. So a log that opens in the end has each of them in its place, and all of the frame that is
outside its keyed collections is as it was (`reopened_frames_same`).
-/

namespace FrameScope

open Cbor (Bytes)

/-- Frames that are the same but for their keyed collections. -/
structure Frame.SameOutsideCollections (f g : Frame) : Prop where
  height : g.height = f.height
  timestamp : g.timestamp = f.timestamp
  logs : g.logs = f.logs
  input : g.input = f.input
  outputs : g.outputs = f.outputs
  gossip : g.gossip = f.gossip

theorem Frame.sameOutsideCollections_logged (f : Frame) : f.SameOutsideCollections f.logged :=
  ⟨rfl, rfl, rfl, rfl, rfl, rfl⟩

/-! ### Records of any frames -/

namespace FrameLog

variable {previous : Option Height} {bytes : Bytes} {frames gs : List Frame} {f g : Frame}

theorem forall₂_of_reads_records (hsize : ∀ f ∈ frames, (payload f).length < Word.narrowSize)
    (h : Reads previous (records frames) gs) :
    List.Forall₂ (fun f g => readPayload none (payload f) = .ok g) frames gs := by
  induction frames generalizing previous gs with
  | nil =>
    rw [reads_nil_iff.mp h]
    exact .nil
  | cons f frames ih =>
    obtain ⟨hf, hrest⟩ := List.forall_mem_cons.mp hsize
    have hbytes : records (f :: frames) =
        header (payload f).length ++ (payload f ++ records frames) := by
      simp [records]
    rw [hbytes, reads_record_iff (length_header _) (ofHeader_header hf).symm] at h
    obtain ⟨g, gs, rfl, hg, hreads⟩ := h
    have halone : readPayload none (payload f) = .ok g :=
      readPayload_eq_ok_iff.mpr ⟨(readPayload_eq_ok_iff.mp hg).1, by simp⟩
    exact .cons halone (ih hrest hreads)

theorem records_append (frames more : List Frame) :
    records (frames ++ more) = records frames ++ records more := by
  simp [records]

theorem eq_logged_of_readPayload (hf : f.Good) (hsize : (payload f).length < Word.narrowSize)
    (h : readPayload none (payload f) = .ok g) : g = f.logged := by
  rw [readPayload_payload hf hsize (by simp)] at h
  split at h
  · exact (Except.ok.inj h).symm
  · contradiction

end FrameLog

/-! ### Opening -/

namespace LogStore

variable {fs fs' : Files} {s : LogStore} {root : Path}

theorem Opened.reads (h : Opened fs root fs' s) :
    s.path = logPath root ∧ fs'.Accepts (logPath root) ∧
      FrameLog.Reads none (fs'.contentAt (logPath root)) s.history.frames.toList := by
  cases h with
  | openStore h =>
    obtain ⟨hpath, haccepts, hread⟩ := openStore_ok h
    exact ⟨hpath, haccepts, FrameLog.read_eq_ok_iff.mp hread⟩
  | openExisting haccepts h =>
    obtain ⟨hpath, hreads⟩ := openExisting_ok h
    exact ⟨hpath, haccepts, hreads⟩

theorem opened_of_isSome (h : (openStore fs root).2.toOption.isSome = true) :
    Opened fs root (openStore fs root).1 ((openStore fs root).2.toOption.getD default) :=
  .openStore (Prod.ext rfl (eq_ok_of_isSome h default))

theorem Opened.content (haccepts : fs.Accepts (logPath root)) (h : Opened fs root fs' s) :
    fs'.contentAt (logPath root) = fs.contentAt (logPath root) := by
  cases h with
  | openStore h =>
    obtain ⟨fs'', heq, -, hcontent⟩ := openStore_of_accepts haccepts
    rw [h] at heq
    rw [(Prod.mk.inj heq).1, hcontent]
  | openExisting _ _ => rfl

end LogStore

/-! ### Using a log -/

/-- Files, the stores opened on a log in them, and the frames accepted so far, in order. -/
structure LogUse where
  files : Files
  stores : List LogStore
  appended : List Frame := []

namespace LogUse

/-- What is done with a log. A store is known by its number. -/
inductive Op where
  | openStore
  | openExisting
  | append (store : Nat) (f : Frame)

/-- The frame that an operation offers to the log. -/
def Op.frame? : Op → Option Frame
  | .append _ f => some f
  | _ => none

open LogStore (logPath Opened)

def step (root : Path) (u : LogUse) : Op → LogUse
  | .openStore =>
    match LogStore.openStore u.files root with
    | (fs, .ok s) => { u with files := fs, stores := u.stores ++ [s] }
    | (fs, .error _) => { u with files := fs }
  | .openExisting =>
    match LogStore.openExisting u.files root with
    | .ok s => { u with stores := u.stores ++ [s] }
    | .error _ => u
  | .append i f =>
    match u.stores[i]? with
    | none => u
    | some s =>
      match LogStore.append u.files s f with
      | .ok (fs, s) => ⟨fs, u.stores.set i s, u.appended ++ [f]⟩
      | .error _ => u

def run (root : Path) (u : LogUse) (ops : List Op) : LogUse := ops.foldl (step root) u

/-- A store that was opened, before any frame is appended. -/
def start (fs : Files) (s : LogStore) : LogUse := ⟨fs, [s], []⟩

variable {root : Path} {bytes : Bytes} {u : LogUse}

/-- The log can be written, every store is on it, and behind some bytes it holds the records of the
accepted frames. -/
structure Sound (root : Path) (bytes : Bytes) (u : LogUse) : Prop where
  accepts : u.files.Accepts (logPath root)
  content : u.files.contentAt (logPath root) = bytes ++ FrameLog.records u.appended
  paths : ∀ s ∈ u.stores, s.path = logPath root
  sizes : ∀ f ∈ u.appended, (FrameLog.payload f).length < Word.narrowSize

theorem Sound.openStore (h : u.Sound root bytes) : (u.step root .openStore).Sound root bytes := by
  obtain ⟨fs, heq, haccepts, hcontent⟩ := LogStore.openStore_of_accepts h.accepts
  rw [h.content] at hcontent
  rw [step, heq]
  rcases FrameLog.read (u.files.contentAt (logPath root)) with e | history
  · exact ⟨haccepts, hcontent, h.paths, h.sizes⟩
  · refine ⟨haccepts, hcontent, ?_, h.sizes⟩
    intro s hs
    rcases List.mem_append.mp hs with hs | hs
    · exact h.paths s hs
    · rw [List.mem_singleton.mp hs]

theorem Sound.openExisting (h : u.Sound root bytes) :
    (u.step root .openExisting).Sound root bytes := by
  rw [step]
  split
  · rename_i s hs
    refine ⟨h.accepts, h.content, ?_, h.sizes⟩
    intro s' hs'
    rcases List.mem_append.mp hs' with hs' | hs'
    · exact h.paths s' hs'
    · rw [List.mem_singleton.mp hs']
      exact (LogStore.openExisting_ok hs).1
  · exact h

theorem Sound.append (h : u.Sound root bytes) (i : Nat) (f : Frame) :
    (u.step root (.append i f)).Sound root bytes := by
  rw [step]
  split
  · exact h
  · rename_i s hs
    have hpath := h.paths s (List.mem_of_getElem? hs)
    split
    · rename_i fs s' hok
      have haccepts := h.accepts
      have hcontent := h.content
      rw [← hpath] at haccepts hcontent
      obtain ⟨record, -, hrecord, hpath', haccepts', hcontent'⟩ :=
        LogStore.append_eq_ok haccepts hok
      obtain ⟨hsize, rfl⟩ := FrameLog.record_eq_ok_iff.mp hrecord
      rw [hpath] at haccepts' hcontent hcontent' hpath'
      refine ⟨haccepts', ?content, ?paths, ?sizes⟩
      case content =>
        rw [hcontent', hcontent, FrameLog.records_append]
        simp [FrameLog.records]
      case paths =>
        intro t ht
        rcases List.mem_or_eq_of_mem_set ht with ht | rfl
        · exact h.paths t ht
        · exact hpath'
      case sizes =>
        intro g hg
        rcases List.mem_append.mp hg with hg | hg
        · exact h.sizes g hg
        · rw [List.mem_singleton.mp hg]
          exact hsize
    · exact h

/-- **Whatever is done, the log grows by the records of the frames it accepts.** -/
theorem Sound.run (h : u.Sound root bytes) (ops : List Op) : (u.run root ops).Sound root bytes := by
  induction ops generalizing u with
  | nil => exact h
  | cons op ops ih =>
    refine ih ?_
    cases op with
    | openStore => exact h.openStore
    | openExisting => exact h.openExisting
    | append i f => exact h.append i f

theorem sound_start {fs₀ fs : Files} {s : LogStore} (h : Opened fs₀ root fs s) :
    (start fs s).Sound root (fs.contentAt (logPath root)) := by
  obtain ⟨hpath, haccepts, -⟩ := h.reads
  refine ⟨haccepts, ?_, ?_, ?_⟩
  · simp [start, FrameLog.records]
  · intro s' hs'
    rw [List.mem_singleton.mp hs']
    exact hpath
  · simp [start]

theorem appended_step (root : Path) (u : LogUse) (op : Op) :
    (u.step root op).appended = u.appended ∨
      ∃ f, op.frame? = some f ∧ (u.step root op).appended = u.appended ++ [f] := by
  cases op with
  | openStore =>
    rw [step]
    split <;> exact .inl rfl
  | openExisting =>
    rw [step]
    split <;> exact .inl rfl
  | append i f =>
    rw [step]
    split
    · exact .inl rfl
    · split
      · exact .inr ⟨f, rfl, rfl⟩
      · exact .inl rfl

theorem exists_appended (root : Path) (u : LogUse) (ops : List Op) :
    ∃ frames, (u.run root ops).appended = u.appended ++ frames ∧
      frames.Sublist (ops.filterMap Op.frame?) := by
  induction ops generalizing u with
  | nil => exact ⟨[], (List.append_nil _).symm, .slnil⟩
  | cons op ops ih =>
    obtain ⟨frames, hframes, hsublist⟩ := ih (u.step root op)
    rcases appended_step root u op with hsame | ⟨f, hf, hmore⟩
    · refine ⟨frames, hframes.trans (by rw [hsame]), hsublist.trans ?_⟩
      rw [List.filterMap_cons]
      split
      · exact List.Sublist.refl _
      · exact List.sublist_cons_self _ _
    · refine ⟨f :: frames, hframes.trans (by simp [hmore]), ?_⟩
      rw [List.filterMap_cons_some hf]
      exact hsublist.cons_cons f

/-! ### Opening again -/

/-- What opens in the end holds the frames from the beginning, and behind them what each accepted
frame's payload is read as. -/
theorem Sound.exists_frames {base : List Frame} {fs : Files} {t : LogStore}
    (h : u.Sound root bytes) (hbase : FrameLog.Reads none bytes base)
    (hopen : Opened u.files root fs t) :
    ∃ gs, t.history.frames.toList = base ++ gs ∧
      List.Forall₂ (fun f g => FrameLog.readPayload none (FrameLog.payload f) = .ok g)
        u.appended gs := by
  obtain ⟨-, -, hreads⟩ := hopen.reads
  rw [hopen.content h.accepts, h.content, FrameLog.reads_append_iff hbase] at hreads
  obtain ⟨gs, hframes, hgs⟩ := hreads
  exact ⟨gs, hframes, FrameLog.forall₂_of_reads_records h.sizes hgs⟩

/-- **Everything outside the keyed collections comes back from a log as it was.** A store is opened,
then more of them are, and frames are appended through any, some refused. When the log is opened in
the end, the frames that were there are there still, and behind them stands for every accepted frame
one that has the same parts outside its keyed collections, if that frame came from a text. -/
theorem reopened_frames_same {fs₀ fs fs' : Files} {s t : LogStore} {ops : List Op}
    (hopen : Opened fs₀ root fs s)
    (hreopen : Opened ((start fs s).run root ops).files root fs' t) :
    t.history.length = s.history.length + ((start fs s).run root ops).appended.length ∧
      (∀ i < s.history.length, t.history.frames[i]? = s.history.frames[i]?) ∧
      ∀ i f, ((start fs s).run root ops).appended[i]? = some f → f.FromText →
        ∃ g, t.history.frames[s.history.length + i]? = some g ∧ f.SameOutsideCollections g := by
  obtain ⟨-, -, hbase⟩ := hopen.reads
  have hsound := (sound_start hopen).run ops
  obtain ⟨gs, hframes, hgs⟩ := hsound.exists_frames hbase hreopen
  have hlength : s.history.frames.toList.length = s.history.length := Array.length_toList
  refine ⟨?length, ?before, ?appended⟩
  case length =>
    rw [History.length, ← Array.length_toList, hframes, List.length_append, hgs.length_eq, hlength]
  case before =>
    intro i hi
    rw [← Array.getElem?_toList, ← Array.getElem?_toList, hframes, List.getElem?_append_left hi]
  case appended =>
    intro i f hf htext
    obtain ⟨hi, rfl⟩ := List.getElem?_eq_some_iff.mp hf
    have hi' : i < gs.length := hgs.length_eq ▸ hi
    have hread := hgs.get hi hi'
    have hlogged := FrameLog.eq_logged_of_readPayload htext.good
      (hsound.sizes _ (List.getElem_mem hi)) hread
    refine ⟨gs[i], ?_, ?_⟩
    · rw [← Array.getElem?_toList, hframes, ← hlength,
        List.getElem?_append_right (Nat.le_add_right _ _), Nat.add_sub_cancel_left,
        List.getElem?_eq_getElem hi']
    · rw [show gs[i] = _ from hlogged]
      exact Frame.sameOutsideCollections_logged _

/-- A frame with untyped numbers in spellings of their own. -/
def spelledFrame : Frame :=
  LogStore.frameOf "\x7b\"height\":1,\"runtimeOutputs\":[-0,1.50]\x7d".toList

/-- Two stores on one log; the first has not seen what the second appended. -/
def twoWriters : List Op :=
  [.openExisting, .append 1 spelledFrame, .append 0 LogStore.laterFrame]

/-- What is left of the two writers. -/
def behindWriters : LogUse := (start LogStore.fresh.1 LogStore.fresh.2).run ["store"] twoWriters

theorem appended_behindWriters :
    behindWriters.appended = [spelledFrame, LogStore.laterFrame] := by
  have hlength : behindWriters.appended.length = 2 := by decide +kernel
  obtain ⟨frames, happended, hsublist⟩ :=
    exists_appended ["store"] (start LogStore.fresh.1 LogStore.fresh.2) twoWriters
  have hframes : behindWriters.appended = frames := happended
  rw [hframes] at hlength ⊢
  exact hsublist.eq_of_length hlength

/-- Both frames come back, the first with its numbers as they were spelled. -/
theorem reopened_frames_same_twoWriters :
    spelledFrame.outputs.map Json.compact = ["-0", "1.50"] ∧
      ∃ t, Opened behindWriters.files ["store"]
          (LogStore.openStore behindWriters.files ["store"]).1 t ∧
        ∃ g, t.history.frames[LogStore.fresh.2.history.length + 0]? = some g ∧
          spelledFrame.SameOutsideCollections g := by
  have hopens : (LogStore.openStore behindWriters.files ["store"]).2.toOption.isSome = true := by
    decide +kernel
  have hreopen := LogStore.opened_of_isSome hopens
  obtain ⟨-, -, hsame⟩ := @reopened_frames_same ["store"] _ _ _ _ _ twoWriters
    (.openStore LogStore.openStore_fresh) hreopen
  refine ⟨by decide +kernel, _, hreopen, hsame 0 spelledFrame ?_ ?_⟩
  · show behindWriters.appended[0]? = some spelledFrame
    rw [appended_behindWriters]
    rfl
  · exact LogStore.fromText_frameOf (by decide +kernel)

end LogUse

end FrameScope
