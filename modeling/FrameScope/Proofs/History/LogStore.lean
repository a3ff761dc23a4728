import FrameScope.History.LogStore
import FrameScope.Proofs.Files
import FrameScope.Proofs.History.FrameLog
import FrameScope.Proofs.History.Rising

/-!
# Stores and their log

A store that opens holds the frames of its log, and the log can be written (`openStore_ok`). What
opening a store whose log can be written comes to is what reading the log comes to
(`openStore_of_accepts`).

An append that is not refused adds the frame's record to the log and the frame to the history
(`append_ok`, `append_eq_ok`).
-/

namespace FrameScope.LogStore

open Cbor (Bytes)

variable {fs fs' : Files} {s s' : LogStore} {f : Frame} {root : Path}

theorem lift_eq_ok_iff {α : Type} {r : Except FileError α} {x : α} :
    lift r = .ok x ↔ r = .ok x := by
  cases r <;> simp [lift, Except.mapError]

/-! ### Opening -/

theorem dropLast_logPath : (logPath root).dropLast = logDir root := by simp [logPath]

theorem logPath_ne_nil : logPath root ≠ [] := by simp [logPath]

theorem hasParents_of_createDirs (h : fs.createDirs (logDir root) = .ok fs') :
    fs'.HasParents (logPath root) ∧ fs'.kind? (logPath root) = fs.kind? (logPath root) := by
  obtain ⟨hdirs, hother⟩ := Files.kind?_createDirs h
  have hlength : (logPath root).length = (logDir root).length + 1 := by simp [logPath]
  refine ⟨fun n hn => ?_, hother _ fun n hn heq => ?_⟩
  · rw [← Files.take_dropLast hn, dropLast_logPath]
    exact hdirs n (by omega)
  · have := congrArg List.length heq
    rw [List.length_take] at this
    omega

/-- Once the log's directory is there and no directory is in its place, opening the store is reading
the log; what the log holds does not change. -/
theorem openStore_of_createDirs {mid : Files} (hmid : fs.createDirs (logDir root) = .ok mid)
    (hfile : fs.kind? (logPath root) ≠ some .directory) :
    ∃ fs', openStore fs root =
        (fs', (FrameLog.read (fs.contentAt (logPath root))).map fun h => ⟨logPath root, h⟩) ∧
      fs'.Accepts (logPath root) ∧ fs'.contentAt (logPath root) = fs.contentAt (logPath root) := by
  obtain ⟨hdirs, hkind⟩ := hasParents_of_createDirs hmid
  rw [← hkind] at hfile
  have hcontent : fs.contentAt (logPath root) = mid.contentAt (logPath root) := by
    rw [Files.contentAt, Files.contentAt, hkind]
  rw [hcontent]
  rcases hlog : mid.kind? (logPath root) with _ | ⟨content⟩ | _
  · refine ⟨mid.set (logPath root) (.file []), ?_, hdirs.accepts_set logPath_ne_nil [], ?_⟩
    · have hdir : mid.isDir (logPath root) = false := by simp [Files.isDir, hlog]
      have hempty : mid.contentAt (logPath root) = [] := by simp [Files.contentAt, hlog]
      have hread : (mid.set (logPath root) (.file [])).read (logPath root) = .ok [] := by
        simp [Files.read, Files.kind?_set logPath_ne_nil]
      simp only [openStore, hmid, Files.exists?, hlog, Option.isSome_none, Bool.false_eq_true,
        if_false, Files.write, hdir, hdirs.isDir_dropLast logPath_ne_nil, if_true, hread, lift,
        hempty, Except.mapError, bind, Except.bind]
      rcases FrameLog.read [] with e | h <;> rfl
    · rw [Files.contentAt_set logPath_ne_nil]
      simp [Files.contentAt, hlog]
  · refine ⟨mid, ?_, hdirs.accepts hfile, rfl⟩
    have hread : mid.read (logPath root) = .ok (mid.contentAt (logPath root)) := by
      simp [Files.read, Files.contentAt, hlog]
    simp only [openStore, hmid, Files.exists?, hlog, Option.isSome_some, if_true, hread, lift,
      Except.mapError, bind, Except.bind]
    rcases FrameLog.read (mid.contentAt (logPath root)) with e | h <;> rfl
  · exact absurd hlog hfile

theorem openStore_of_accepts (h : fs.Accepts (logPath root)) :
    ∃ fs', openStore fs root =
        (fs', (FrameLog.read (fs.contentAt (logPath root))).map fun h => ⟨logPath root, h⟩) ∧
      fs'.Accepts (logPath root) ∧ fs'.contentAt (logPath root) = fs.contentAt (logPath root) := by
  obtain ⟨mid, hmid, -⟩ := h.createDirs_dropLast
  rw [dropLast_logPath] at hmid
  exact openStore_of_createDirs hmid h.file

theorem openStore_read (h : openStore fs root = (fs', .ok s)) :
    s.path = logPath root ∧ fs'.Accepts (logPath root) ∧
      fs'.contentAt (logPath root) = fs.contentAt (logPath root) ∧
        FrameLog.read (fs.contentAt (logPath root)) = .ok s.history := by
  rcases hmid : fs.createDirs (logDir root) with e | mid
  · simp [openStore, hmid] at h
  · by_cases hfile : fs.kind? (logPath root) = some .directory
    · -- a directory in the place of the log does not read
      obtain ⟨-, hkind⟩ := hasParents_of_createDirs hmid
      simp [openStore, hmid, Files.exists?, hkind, hfile, Files.read, lift, Except.mapError, bind,
        Except.bind] at h
    · obtain ⟨fs'', heq, haccepts, hcontent⟩ := openStore_of_createDirs hmid hfile
      rw [heq] at h
      obtain ⟨rfl, hstore⟩ := Prod.mk.inj h
      obtain ⟨history, hread, rfl⟩ := except_map_eq_ok hstore
      exact ⟨rfl, haccepts, hcontent, hread⟩

/-- **A store that opens holds the frames of its log, and the log can be written.** -/
theorem openStore_ok (h : openStore fs root = (fs', .ok s)) :
    s.path = logPath root ∧ fs'.Accepts (logPath root) ∧
      FrameLog.read (fs'.contentAt (logPath root)) = .ok s.history := by
  obtain ⟨hpath, haccepts, hcontent, hread⟩ := openStore_read h
  exact ⟨hpath, haccepts, hcontent ▸ hread⟩

theorem openExisting_ok (h : openExisting fs root = .ok s) :
    s.path = logPath root ∧
      FrameLog.Reads none (fs.contentAt (logPath root)) s.history.frames.toList := by
  unfold openExisting at h
  simp only at h
  split at h
  · obtain ⟨bytes, hbytes, h⟩ := except_bind_eq_ok h
    obtain ⟨history, hread, h⟩ := except_bind_eq_ok h
    obtain rfl := Except.ok.inj h
    rw [Files.contentAt_of_read (lift_eq_ok_iff.mp hbytes)]
    exact ⟨rfl, FrameLog.read_eq_ok_iff.mp hread⟩
  · rename_i hnone
    obtain rfl := Except.ok.inj h
    rw [Files.contentAt_of_not_exists hnone]
    exact ⟨rfl, .nil none⟩

/-- The store that opens where there are no files, and the files it leaves. -/
def fresh : Files × LogStore :=
  ((openStore .empty ["store"]).1, (openStore .empty ["store"]).2.toOption.getD default)

theorem openStore_fresh : openStore .empty ["store"] = (fresh.1, .ok fresh.2) :=
  Prod.ext rfl (eq_ok_of_isSome (by decide +kernel) default)

/-! ### Appending -/

/-- **An append to a log that can be written adds the frame's record to the log and the frame to the
history.** -/
theorem append_ok {h : History} {bytes : Bytes} (hfs : fs.Accepts s.path)
    (hh : s.history.append f = .ok h) (hbytes : FrameLog.record f = .ok bytes) :
    ∃ fs', append fs s f = .ok (fs', { s with history := h }) ∧ fs'.Accepts s.path ∧
      fs'.contentAt s.path = fs.contentAt s.path ++ bytes := by
  obtain ⟨mid, hmid, hdirs, hkind⟩ := hfs.createDirs_dropLast
  have hextend := Files.extend_ok hdirs hfs.ne_nil (hkind ▸ hfs.file) bytes
  have hcontent : mid.contentAt s.path = fs.contentAt s.path := by
    rw [Files.contentAt, Files.contentAt, hkind]
  refine ⟨mid.set s.path (.file (mid.contentAt s.path ++ bytes)), ?_,
    hdirs.accepts_set hfs.ne_nil _, ?_⟩
  · simp only [append, hh, hbytes, hmid, hextend, lift, bind, Except.bind, Except.mapError]
  · rw [Files.contentAt_set hfs.ne_nil, hcontent]

theorem append_eq_ok (hfs : fs.Accepts s.path) (h : append fs s f = .ok (fs', s')) :
    ∃ bytes, s.history.append f = .ok s'.history ∧ FrameLog.record f = .ok bytes ∧
      s'.path = s.path ∧ fs'.Accepts s.path ∧
        fs'.contentAt s.path = fs.contentAt s.path ++ bytes := by
  rcases hh : s.history.append f with e | history
  · simp [append, hh, bind, Except.bind] at h
  · rcases hbytes : FrameLog.record f with e | bytes
    · simp [append, hh, hbytes, bind, Except.bind] at h
    · obtain ⟨fs'', heq, haccepts, hcontent⟩ := append_ok hfs hh hbytes
      rw [heq] at h
      obtain ⟨rfl, rfl⟩ := Prod.mk.inj (Except.ok.inj h)
      exact ⟨bytes, rfl, rfl, rfl, haccepts, hcontent⟩

end FrameScope.LogStore
