import FrameScope.Proofs.History.LogStore

/-!
# Stores opened again

Frames from texts that were appended come back, when the log is opened again, as their logged forms
(`sessions_frames`), in however many sessions they were appended. From this follows exactly when the
log opens at all (`reopens_iff`): when no record nests deeper than the reader goes; and exactly when
a collection still shows the same pairs (`reopened_pairs_iff`): when a log keeps it.
-/

namespace FrameScope

open Cbor (Bytes)

/-! ### What the log holds behind its appends -/

namespace FrameLog

/-- Behind a log that reads, the records of rising frames are read as their logged forms, unless one
of them nests too deep. -/
theorem reads_behind_iff {bytes : Bytes} {base frames hs : List Frame} (hbase : Reads none bytes base)
    (hrising : (base ++ frames).Pairwise (·.height < ·.height))
    (htexts : ∀ f ∈ frames, f.FromText)
    (hsize : ∀ f ∈ frames, (payload f).length < Word.narrowSize) :
    Reads none (bytes ++ records frames) hs ↔
      (∀ f ∈ frames, (document f).nesting ≤ Cbor.maxDepth) ∧
        hs = base ++ frames.map Frame.logged := by
  obtain ⟨-, hframes, hbetween⟩ := List.pairwise_append.mp hrising
  have habove : ∀ p ∈ headBehind none base, ∀ f ∈ frames, p < f.height := by
    rw [headBehind_none]
    intro p hp f hf
    obtain ⟨g, hg, rfl⟩ := Option.map_eq_some_iff.mp hp
    exact hbetween g (List.mem_of_getLast? hg) f hf
  rw [reads_append_iff hbase]
  have hrecords (gs : List Frame) : Reads (headBehind none base) (records frames) gs ↔
      (∀ f ∈ frames, (document f).nesting ≤ Cbor.maxDepth) ∧ gs = frames.map Frame.logged :=
    reads_records_iff (fun f hf => (htexts f hf).good) hsize hframes habove
  constructor
  · rintro ⟨gs, rfl, hgs⟩
    obtain ⟨hnest, rfl⟩ := (hrecords gs).mp hgs
    exact ⟨hnest, rfl⟩
  · rintro ⟨hnest, rfl⟩
    exact ⟨_, rfl, (hrecords _).mpr ⟨hnest, rfl⟩⟩

end FrameLog

namespace LogStore

variable {fs fs' : Files} {s s' : LogStore} {root : Path} {frames : List Frame}

theorem appendAll_eq_ok (hfs : fs.Accepts s.path) (h : appendAll fs s frames = .ok (fs', s')) :
    s'.path = s.path ∧ fs'.Accepts s.path ∧ s.history.appendAll frames = .ok s'.history ∧
      fs'.contentAt s.path = fs.contentAt s.path ++ FrameLog.records frames ∧
        ∀ f ∈ frames, (FrameLog.payload f).length < Word.narrowSize := by
  induction frames generalizing fs s with
  | nil =>
    obtain ⟨rfl, rfl⟩ := Prod.mk.inj (Except.ok.inj h)
    exact ⟨rfl, hfs, rfl, by simp [FrameLog.records], by simp⟩
  | cons f frames ih =>
    obtain ⟨⟨mid, t⟩, hmid, hrest⟩ := except_bind_eq_ok h
    obtain ⟨bytes, hhistory, hbytes, hpath, haccepts, hcontent⟩ := append_eq_ok hfs hmid
    obtain ⟨hsize, rfl⟩ := FrameLog.record_eq_ok_iff.mp hbytes
    rw [← hpath] at haccepts
    obtain ⟨hpath', haccepts', hhistory', hcontent', hsize'⟩ := ih haccepts hrest
    rw [hpath] at hpath' haccepts' hcontent'
    refine ⟨hpath', haccepts', ?_, ?_, List.forall_mem_cons.mpr ⟨hsize, hsize'⟩⟩
    · simp only [History.appendAll, hhistory, bind, Except.bind, hhistory']
    · rw [hcontent', hcontent]
      simp [FrameLog.records]

theorem reads_of_session {bytes : Bytes} {base : List Frame}
    (hopen : openStore fs root = (fs', .ok s)) (hcontent : fs'.contentAt (logPath root) = bytes)
    (hbase : FrameLog.Reads none bytes base) {fs'' : Files}
    (happend : appendAll fs' s frames = .ok (fs'', s')) (htexts : ∀ f ∈ frames, f.FromText) :
    fs''.Accepts (logPath root) ∧ s'.history.frames.toList = base ++ frames ∧
      ∀ hs, FrameLog.Reads none (fs''.contentAt (logPath root)) hs ↔
        (∀ f ∈ frames, (FrameLog.document f).nesting ≤ Cbor.maxDepth) ∧
          hs = base ++ frames.map Frame.logged := by
  obtain ⟨hpath, haccepts, hread⟩ := openStore_ok hopen
  rw [hcontent, FrameLog.read_eq_ok_iff] at hread
  have hsame : s.history.frames.toList = base := by
    have h := (FrameLog.reads_append_iff hbase).mp ((List.append_nil bytes).symm ▸ hread)
    obtain ⟨gs, heq, hgs⟩ := h
    rw [heq, FrameLog.reads_nil_iff.mp hgs, List.append_nil]
  rw [← hpath] at haccepts
  obtain ⟨-, haccepts', hhistory, hcontent', hsize⟩ := appendAll_eq_ok haccepts happend
  obtain ⟨hrising, hframes⟩ := History.appendAll_eq_ok hhistory (hread.rising).1
  rw [hpath] at haccepts' hcontent'
  rw [hsame] at hframes
  refine ⟨haccepts', hframes, fun hs => ?_⟩
  rw [hcontent', hcontent]
  exact FrameLog.reads_behind_iff hbase (hframes ▸ hrising) htexts hsize

theorem openStore_eq_ok_iff {t : LogStore} (hfs : fs.Accepts (logPath root)) :
    (openStore fs root).2 = .ok t ↔
      t.path = logPath root ∧
        FrameLog.Reads none (fs.contentAt (logPath root)) t.history.frames.toList := by
  obtain ⟨fs', heq, -, -⟩ := openStore_of_accepts hfs
  rw [heq, ← FrameLog.read_eq_ok_iff]
  constructor
  · intro h
    obtain ⟨history, hread, rfl⟩ := except_map_eq_ok h
    exact ⟨rfl, hread⟩
  · rintro ⟨hpath, hread⟩
    rw [hread, ← hpath]
    rfl

/-! ### Sample runs -/

/-- The frame of a text. -/
def frameOf (text : List Char) : Frame :=
  ((Document.ofChars text).decode Coded.read).toOption.getD default

/-- A frame with nothing in it but its height. -/
def plainFrame : Frame := frameOf "\x7b\"height\":1\x7d".toList

/-- A frame with an output that nests as deep as a text can. -/
def deepFrame : Frame :=
  frameOf ("\x7b\"height\":1,\"runtimeOutputs\":[".toList ++ List.replicate 125 '['
    ++ List.replicate 125 ']' ++ "]\x7d".toList)

/-- A frame with a replica that does not decode. -/
def brokenReplicaFrame : Frame :=
  frameOf "\x7b\"height\":1,\"replicas\":\x7b\"b\":7\x7d\x7d".toList

/-- A frame with a replica that decodes and one that does not. -/
def mixedReplicasFrame : Frame :=
  frameOf "\x7b\"height\":1,\"replicas\":\x7b\"a\":\x7b\x7d,\"b\":true\x7d\x7d".toList

/-- The files and the store behind appends to the fresh store. -/
def freshWith (frames : List Frame) : Files × LogStore :=
  (appendAll fresh.1 fresh.2 frames).toOption.getD fresh

theorem fromText_frameOf {text : List Char}
    (h : ((Document.ofChars text).decode (Coded.read (α := Frame))).toOption.isSome = true) :
    (frameOf text).FromText := .inl ⟨text, eq_ok_of_isSome h default⟩

theorem appendAll_fresh {frames : List Frame}
    (h : (appendAll fresh.1 fresh.2 frames).toOption.isSome = true) :
    appendAll fresh.1 fresh.2 frames = .ok ((freshWith frames).1, (freshWith frames).2) :=
  eq_ok_of_isSome h fresh

/-! ### Opening the log again -/

/-- **The log opens again with the same heights exactly when no record of the frames appended nests
deeper than the reader goes.** -/
theorem reopens_iff {fs₀ : Files} (hopen : openStore fs₀ root = (fs, .ok s))
    (htexts : ∀ f ∈ frames, f.FromText) (happend : appendAll fs s frames = .ok (fs', s')) :
    (∃ t, (openStore fs' root).2 = .ok t ∧ t.history.length = s'.history.length ∧
      t.history.heights = s'.history.heights) ↔
        ∀ f ∈ frames, (FrameLog.document f).nesting ≤ Cbor.maxDepth := by
  obtain ⟨-, -, hread⟩ := openStore_ok hopen
  obtain ⟨hfs', hframes, hreads⟩ :=
    reads_of_session hopen rfl (FrameLog.read_eq_ok_iff.mp hread) happend htexts
  constructor
  · rintro ⟨t, ht, -, -⟩
    exact ((hreads _).mp ((openStore_eq_ok_iff hfs').mp ht).2).1
  · intro hnest
    refine ⟨⟨logPath root, ⟨(s.history.frames.toList ++ frames.map Frame.logged).toArray⟩⟩,
      (openStore_eq_ok_iff hfs').mpr ⟨rfl, (hreads _).mpr ⟨hnest, rfl⟩⟩, ?_, ?_⟩
    · have hlength := congrArg List.length hframes
      simpa [History.length] using hlength.symm
    · simp [History.heights, hframes]

/-- The log of a plain frame opens again. -/
theorem reopens_plainFrame :
    ∃ t, (openStore (freshWith [plainFrame]).1 ["store"]).2 = .ok t ∧
      t.history.length = (freshWith [plainFrame]).2.history.length ∧
        t.history.heights = (freshWith [plainFrame]).2.history.heights := by
  have hsome : (appendAll fresh.1 fresh.2 [plainFrame]).toOption.isSome = true := by decide +kernel
  refine (reopens_iff openStore_fresh ?_ (appendAll_fresh hsome)).mpr (by decide +kernel)
  rintro f hf
  rw [List.mem_singleton.mp hf]
  exact fromText_frameOf (by decide +kernel)

/-- Not every append leaves a log that opens: the record of the deep frame is written and then not
read. -/
theorem not_reopens_deepFrame :
    ¬ ∀ (fs₀ fs fs' : Files) (root : Path) (s s' : LogStore) (frames : List Frame),
      openStore fs₀ root = (fs, .ok s) → (∀ f ∈ frames, f.FromText) →
        appendAll fs s frames = .ok (fs', s') →
          ∃ t, (openStore fs' root).2 = .ok t ∧ t.history.length = s'.history.length ∧
            t.history.heights = s'.history.heights := by
  intro hclaim
  have hsome : (appendAll fresh.1 fresh.2 [deepFrame]).toOption.isSome = true := by decide +kernel
  have htext : deepFrame.FromText := fromText_frameOf (by decide +kernel)
  obtain ⟨t, ht, -⟩ := hclaim _ _ _ _ _ _ _ openStore_fresh
    (fun f hf => List.mem_singleton.mp hf ▸ htext) (appendAll_fresh hsome)
  have hfails : (openStore (freshWith [deepFrame]).1 ["store"]).2.toOption.isSome = false := by
    decide +kernel
  rw [ht] at hfails
  exact Bool.noConfusion hfails

/-! ### Sessions -/

/-- The files behind sessions that each open the log and append frames to it. -/
def sessions (root : Path) : Files → List (List Frame) → Except StoreError Files
  | fs, [] => .ok fs
  | fs, frames :: rest =>
    match openStore fs root with
    | (fs, .ok s) => do
      let (fs, _) ← appendAll fs s frames
      sessions root fs rest
    | (_, .error e) => .error e

theorem reads_of_sessions {days : List (List Frame)} {t : LogStore}
    (hfs : fs.Accepts (logPath root)) (hrun : sessions root fs days = .ok fs')
    (hopen : (openStore fs' root).2 = .ok t) :
    ∃ hs, FrameLog.Reads none (fs.contentAt (logPath root)) hs := by
  cases days with
  | nil =>
    obtain rfl := Except.ok.inj hrun
    exact ⟨_, ((openStore_eq_ok_iff hfs).mp hopen).2⟩
  | cons frames rest =>
    rw [sessions] at hrun
    split at hrun
    · rename_i mid s heq
      exact ⟨_, ((openStore_eq_ok_iff hfs).mp (congrArg Prod.snd heq)).2⟩
    · simp at hrun

theorem frames_of_sessions {base : List Frame} {days : List (List Frame)} {t : LogStore}
    (hfs : fs.Accepts (logPath root)) (hbase : FrameLog.Reads none (fs.contentAt (logPath root)) base)
    (htexts : ∀ frames ∈ days, ∀ f ∈ frames, f.FromText)
    (hrun : sessions root fs days = .ok fs') (hopen : (openStore fs' root).2 = .ok t) :
    t.history.frames.toList = base ++ days.flatten.map Frame.logged := by
  induction days generalizing fs base with
  | nil =>
    obtain rfl := Except.ok.inj hrun
    have hread := ((openStore_eq_ok_iff hfs).mp hopen).2
    rw [← List.append_nil (fs.contentAt _)] at hread
    obtain ⟨gs, heq, hgs⟩ := (FrameLog.reads_append_iff hbase).mp hread
    simp [heq, FrameLog.reads_nil_iff.mp hgs]
  | cons frames rest ih =>
    rw [sessions] at hrun
    split at hrun
    · rename_i mid s heq
      obtain ⟨⟨behind, s'⟩, happend, hrest⟩ := except_bind_eq_ok hrun
      obtain ⟨fs₁, hfs₁, -, hcontent⟩ := openStore_of_accepts hfs
      obtain rfl : fs₁ = mid := congrArg Prod.fst (hfs₁.symm.trans heq)
      obtain ⟨hbehind, -, hreads⟩ :=
        reads_of_session heq hcontent hbase happend (htexts frames (by simp))
      -- the log is read in the end, so the records of this session are among what was read
      obtain ⟨hs, hhs⟩ := reads_of_sessions hbehind hrest hopen
      obtain ⟨hnest, -⟩ := (hreads hs).mp hhs
      have hframes := ih hbehind ((hreads _).mpr ⟨hnest, rfl⟩)
        (fun frames hframes => htexts frames (List.mem_cons_of_mem _ hframes)) hrest
      simp [hframes]
    · simp at hrun

/-- **Frames come back from a log as their logged forms, in whatever sessions they were
appended.** -/
theorem sessions_frames {fs₀ : Files} {days : List (List Frame)} {t : LogStore}
    (hopen : openStore fs₀ root = (fs, .ok s))
    (htexts : ∀ frames ∈ days, ∀ f ∈ frames, f.FromText)
    (hrun : sessions root fs days = .ok fs') (hreopen : (openStore fs' root).2 = .ok t) :
    t.history.frames.toList = s.history.frames.toList ++ days.flatten.map Frame.logged := by
  obtain ⟨-, haccepts, hread⟩ := openStore_ok hopen
  exact frames_of_sessions haccepts (FrameLog.read_eq_ok_iff.mp hread) htexts hrun hreopen

/-- **A frame that was appended shows the same pairs, once the log is opened again, exactly when a
log keeps its collections.** Frames that were in the log before are the same. -/
theorem reopened_pairs_iff {fs₀ : Files} {days : List (List Frame)} {t : LogStore}
    (hopen : openStore fs₀ root = (fs, .ok s))
    (htexts : ∀ frames ∈ days, ∀ f ∈ frames, f.FromText)
    (hrun : sessions root fs days = .ok fs') (hreopen : (openStore fs' root).2 = .ok t) :
    t.history.length = s.history.length + days.flatten.length ∧
      (∀ i < s.history.length, t.history.frames[i]? = s.history.frames[i]?) ∧
      ∀ i f, days.flatten[i]? = some f →
        ∃ g, t.history.frames[s.history.length + i]? = some g ∧
          (g.replicaPairs = f.replicaPairs ↔ (f.replicas.getD .empty).Kept Replica.Kept) ∧
          (g.machinePairs = f.machinePairs ↔ (f.machines.getD .empty).Kept fun _ => True) := by
  have hframes := sessions_frames hopen htexts hrun hreopen
  have hlength : s.history.frames.toList.length = s.history.length := Array.length_toList
  refine ⟨?_, fun i hi => ?_, fun i f hf => ⟨f.logged, ?_, ?_, ?_⟩⟩
  · rw [History.length, ← Array.length_toList, hframes, List.length_append, List.length_map, hlength]
  · rw [← Array.getElem?_toList, ← Array.getElem?_toList, hframes, List.getElem?_append_left hi]
  · rw [← Array.getElem?_toList, hframes, ← hlength,
      List.getElem?_append_right (Nat.le_add_right _ _), Nat.add_sub_cancel_left, List.getElem?_map,
      hf, Option.map_some]
  · exact Frame.replicaPairs_logged_iff
  · exact Frame.machinePairs_logged_iff

/-- The files behind one session that appends one frame to the fresh store. -/
def sessionsWith (f : Frame) : Files :=
  (sessions ["store"] fresh.1 [[f]]).toOption.getD .empty

/-- The store that opens behind that session. -/
def reopenedWith (f : Frame) : LogStore :=
  (openStore (sessionsWith f) ["store"]).2.toOption.getD default

theorem sessions_fresh {f : Frame}
    (h : (sessions ["store"] fresh.1 [[f]]).toOption.isSome = true) :
    sessions ["store"] fresh.1 [[f]] = .ok (sessionsWith f) := eq_ok_of_isSome h .empty

theorem openStore_reopened {f : Frame}
    (h : (openStore (sessionsWith f) ["store"]).2.toOption.isSome = true) :
    (openStore (sessionsWith f) ["store"]).2 = .ok (reopenedWith f) := eq_ok_of_isSome h default

/-- A frame whose second replica decodes neither before nor behind a log comes back with the same
pairs. -/
theorem reopened_pairs_mixedReplicasFrame :
    ∃ g, (reopenedWith mixedReplicasFrame).history.frames[0]? = some g ∧
      g.replicaPairs = mixedReplicasFrame.replicaPairs := by
  have htext : mixedReplicasFrame.FromText := fromText_frameOf (by decide +kernel)
  have hrun := sessions_fresh (f := mixedReplicasFrame) (by decide +kernel)
  have hopen := openStore_reopened (f := mixedReplicasFrame) (by decide +kernel)
  have hkept : (match mixedReplicasFrame.replicas.getD .empty with
      | .object fs => fs.any fun f => (Coded.ofLogged? f.2 : Option Replica).isNone
      | _ => false) = true := by decide +kernel
  have hlength : fresh.2.history.length = 0 := by decide +kernel
  obtain ⟨-, -, hpairs⟩ := reopened_pairs_iff openStore_fresh (by simpa using htext) hrun hopen
  obtain ⟨g, hg, hreplicas, -⟩ := hpairs 0 mixedReplicasFrame (by simp)
  rw [hlength, Nat.zero_add] at hg
  refine ⟨g, hg, hreplicas.mpr ?_⟩
  generalize mixedReplicasFrame.replicas.getD .empty = c at hkept ⊢
  cases c with
  | object fs =>
    obtain ⟨f, hf, hnone⟩ := List.any_eq_true.mp hkept
    exact .inl ⟨f, hf, Option.isNone_iff_eq_none.mp hnone⟩
  | map es => exact Bool.noConfusion hkept
  | pairs ps => exact Bool.noConfusion hkept

/-- Not every frame comes back with the same pairs: the replica that did not decode is a number, and
the map that a log makes of a number does decode. -/
theorem not_reopened_pairs_brokenReplicaFrame :
    ¬ ∀ (fs₀ fs fs' : Files) (root : Path) (s t : LogStore) (days : List (List Frame)),
      openStore fs₀ root = (fs, .ok s) → (∀ frames ∈ days, ∀ f ∈ frames, f.FromText) →
        sessions root fs days = .ok fs' → (openStore fs' root).2 = .ok t →
          ∀ i f, days.flatten[i]? = some f →
            ∃ g, t.history.frames[s.history.length + i]? = some g ∧
              g.replicaPairs = f.replicaPairs ∧ g.machinePairs = f.machinePairs := by
  intro hclaim
  have htext : brokenReplicaFrame.FromText := fromText_frameOf (by decide +kernel)
  have hrun := sessions_fresh (f := brokenReplicaFrame) (by decide +kernel)
  have hopen := openStore_reopened (f := brokenReplicaFrame) (by decide +kernel)
  have hlength : fresh.2.history.length = 0 := by decide +kernel
  obtain ⟨g, hg, hreplicas, -⟩ := hclaim _ _ _ _ _ _ _ openStore_fresh (by simpa using htext) hrun
    hopen 0 brokenReplicaFrame (by simp)
  rw [hlength, Nat.zero_add] at hg
  have hdiffer : (reopenedWith brokenReplicaFrame).history.frames[0]?.map
      (·.replicaPairs.length) ≠ some brokenReplicaFrame.replicaPairs.length := by decide +kernel
  exact hdiffer (by rw [hg, Option.map_some, hreplicas])

end LogStore

end FrameScope
