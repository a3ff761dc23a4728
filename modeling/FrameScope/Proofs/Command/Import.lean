import FrameScope.Command.Run
import FrameScope.History.Memory
import FrameScope.Proofs.History.LogStore

/-!
# What an import appends

A store takes frames one after the other as long as their heights advance. Of an export it takes the
longest start that advances past its head (`LongestAdvancing`, `appendFrames_spec`), and the log
grows by the records of just these frames, whether the import goes through or breaks off
(`import_appends_longest_advancing`).
-/

namespace FrameScope

/-! ### Frames that advance -/

/-- Heights strictly rise from frame to frame, all of them above a head when there is one. -/
structure Advances (head : Option Height) (frames : List Frame) : Prop where
  rising : frames.Pairwise (·.height < ·.height)
  above : ∀ h ∈ head, ∀ f ∈ frames, h < f.height

/-- The longest start of a list of frames that advances. -/
structure LongestAdvancing (head : Option Height) (frames p : List Frame) : Prop where
  start : p <+: frames
  advances : Advances head p
  longest : ∀ q, q <+: frames → Advances head q → q <+: p

variable {head : Option Height} {f : Frame} {frames p : List Frame}

theorem advances_nil (head : Option Height) : Advances head [] := ⟨.nil, by simp⟩

theorem advances_cons_iff :
    Advances head (f :: frames) ↔
      (∀ h ∈ head, h < f.height) ∧ Advances (some f.height) frames := by
  constructor
  · rintro ⟨hrising, habove⟩
    obtain ⟨hbehind, hrest⟩ := List.pairwise_cons.mp hrising
    refine ⟨fun h hh => habove h hh f List.mem_cons_self, hrest, ?_⟩
    rintro h hh g hg
    rw [← Option.some.inj hh]
    exact hbehind g hg
  · rintro ⟨hfirst, hrest, hbehind⟩
    have hlt : ∀ g ∈ frames, f.height < g.height := hbehind f.height rfl
    refine ⟨List.pairwise_cons.mpr ⟨hlt, hrest⟩, ?_⟩
    intro h hh g hg
    rcases List.mem_cons.mp hg with rfl | hg
    · exact hfirst h hh
    · exact Nat.lt_trans (hfirst h hh) (hlt g hg)

namespace LongestAdvancing

theorem nil (head : Option Height) : LongestAdvancing head [] [] where
  start := List.prefix_rfl
  advances := advances_nil head
  longest := by
    intro q hq _
    exact hq

theorem refused {h : Height} (hh : h ∈ head) (hle : f.height ≤ h) :
    LongestAdvancing head (f :: frames) [] where
  start := List.nil_prefix
  advances := advances_nil head
  longest q hq hadvances := by
    cases q with
    | nil => exact List.prefix_rfl
    | cons g q =>
      obtain ⟨hgf, -⟩ := List.cons_prefix_cons.mp hq
      have hlt : h < g.height := hadvances.above h hh g List.mem_cons_self
      rw [hgf] at hlt
      exact absurd hlt (Nat.not_lt.mpr hle)

theorem cons (hf : ∀ h ∈ head, h < f.height) (hp : LongestAdvancing (some f.height) frames p) :
    LongestAdvancing head (f :: frames) (f :: p) where
  start := List.cons_prefix_cons.mpr ⟨rfl, hp.start⟩
  advances := advances_cons_iff.mpr ⟨hf, hp.advances⟩
  longest q hq hadvances := by
    cases q with
    | nil => exact List.nil_prefix
    | cons g q =>
      obtain ⟨rfl, hrest⟩ := List.cons_prefix_cons.mp hq
      exact List.cons_prefix_cons.mpr ⟨rfl, hp.longest q hrest (advances_cons_iff.mp hadvances).2⟩

theorem unique {q : List Frame} (hp : LongestAdvancing head frames p)
    (hq : LongestAdvancing head frames q) : p = q :=
  (hq.longest p hp.start hp.advances).eq_of_length_le
    (hp.longest q hq.start hq.advances).length_le

theorem eq_iff (h : LongestAdvancing head frames p) : p = frames ↔ Advances head frames := by
  constructor
  · rintro rfl
    exact h.advances
  · intro hall
    exact h.start.eq_of_length_le (h.longest frames List.prefix_rfl hall).length_le

theorem eq_or_exists (h : LongestAdvancing head frames p) :
    p = frames ∨ ∃ f rest, frames = p ++ f :: rest := by
  obtain ⟨rest, rfl⟩ := h.start
  cases rest with
  | nil => exact .inl (List.append_nil p).symm
  | cons f rest => exact .inr ⟨f, rest, rfl⟩

end LongestAdvancing

namespace History

variable {h h' : History}

theorem head?_append (happend : h.append f = .ok h') : h'.head? = some f.height := by
  obtain ⟨-, rfl⟩ := append_eq_ok_iff.mp happend
  simp [head?_eq]

theorem exists_appendAll_iff : (∃ h', h.appendAll frames = .ok h') ↔ Advances h.head? frames := by
  induction frames generalizing h with
  | nil => exact iff_of_true ⟨h, rfl⟩ (advances_nil _)
  | cons f frames ih =>
    rw [advances_cons_iff]
    rcases hf : h.append f with e | mid
    · obtain ⟨head, hhead, hle, -⟩ := append_eq_error_iff.mp hf
      refine iff_of_false ?_ ?_
      · simp [appendAll, hf, bind, Except.bind]
      · rintro ⟨hlt, -⟩
        exact absurd (hlt head hhead) (Nat.not_lt.mpr hle)
    · have hrest := ih (h := mid)
      rw [head?_append hf] at hrest
      obtain ⟨hlt, -⟩ := append_eq_ok_iff.mp hf
      simp only [appendAll, hf, bind, Except.bind, hrest]
      exact (and_iff_right hlt).symm

end History

theorem Memory.exists_ofFrames_iff (m : Memory) :
    (∃ m' i, m.ofFrames frames = .ok (m', i)) ↔ Advances none frames := by
  rw [← show History.empty.head? = none from rfl, ← History.exists_appendAll_iff, Memory.ofFrames,
    History.ofFrames]
  rcases History.empty.appendAll frames with e | h
  · simp [Except.map]
  · exact iff_of_true ⟨_, _, rfl⟩ ⟨h, rfl⟩

/-! ### Appending one after the other -/

namespace Invocation

variable {fs : Files} {s : LogStore} {count : Nat}

/-- What becomes of a log and of the frames offered to it. -/
structure Took (fs : Files) (s : LogStore) (count : Nat) (frames p : List Frame)
    (after : Files × Except CommandError (LogStore × Nat)) : Prop where
  content : after.1.contentAt s.path = fs.contentAt s.path ++ FrameLog.records p
  all : p = frames → ∃ s', after.2 = .ok (s', count + frames.length) ∧
    s'.history.frames.toList = s.history.frames.toList ++ frames
  first : ∀ f rest, frames = p ++ f :: rest → after.2 = .error (.append f.height)

/-- **A log takes the longest start of the frames that advances past its head.** -/
theorem appendFrames_spec (hfs : fs.Accepts s.path)
    (hsize : ∀ f ∈ frames, (FrameLog.payload f).length < Word.narrowSize) (count : Nat) :
    ∃ p, LongestAdvancing s.history.head? frames p ∧
      Took fs s count frames p (appendFrames fs s count frames) := by
  induction frames generalizing fs s count with
  | nil =>
    refine ⟨[], .nil _, ?_, ?_, ?_⟩
    · simp [appendFrames, FrameLog.records]
    · intro _
      exact ⟨s, rfl, by simp⟩
    · intro f rest h
      simp at h
  | cons f frames ih =>
    obtain ⟨hf, hrest⟩ := List.forall_mem_cons.mp hsize
    rcases hhistory : s.history.append f with e | h
    · obtain ⟨head, hhead, hle, -⟩ := History.append_eq_error_iff.mp hhistory
      have hrefused : appendFrames fs s count (f :: frames) = (fs, .error (.append f.height)) := by
        simp [appendFrames, LogStore.append, hhistory, bind, Except.bind]
      rw [hrefused]
      refine ⟨[], .refused hhead hle, ?_, ?_, ?_⟩
      · simp [FrameLog.records]
      · intro h
        simp at h
      · intro g rest h
        obtain ⟨rfl, -⟩ := List.cons.inj h
        rfl
    · obtain ⟨fs', hok, haccepts, hcontent⟩ :=
        LogStore.append_ok hfs hhistory (FrameLog.record_eq_ok_iff.mpr ⟨hf, rfl⟩)
      obtain ⟨hlt, rfl⟩ := History.append_eq_ok_iff.mp hhistory
      have hstep : appendFrames fs s count (f :: frames) =
          appendFrames fs' { s with history := ⟨s.history.frames.push f⟩ } (count + 1) frames := by
        simp [appendFrames, hok]
      obtain ⟨p, hp, htook⟩ := ih (s := { s with history := ⟨s.history.frames.push f⟩ }) haccepts
        hrest (count + 1)
      rw [History.head?_append hhistory] at hp
      rw [hstep]
      refine ⟨f :: p, .cons hlt hp, ?_, ?_, ?_⟩
      · rw [htook.content, hcontent]
        simp [FrameLog.records]
      · intro hall
        obtain ⟨s', hs', hframes⟩ := htook.all (List.cons.inj hall).2
        refine ⟨s', ?_, ?_⟩
        · rw [hs', List.length_cons, Nat.add_right_comm, Nat.add_assoc]
        · rw [hframes]
          simp
      · intro g rest h
        exact htook.first g rest (List.cons.inj h).2

/-! ### Importing an export -/

/-- The frames of an export, where its file reads as an array of frames. -/
def exported? (fs : Files) (file : String) : Option (List Frame) :=
  (fs.read (Files.path file)).toOption.bind fun bytes => (FrameLog.readExport bytes).toOption

/-- The answer to an import: how many frames were taken, and the height the store ends at. -/
def importReport (count : Nat) (head : Option Height) : Answer :=
  let text := match head with
    | some height => s!"imported {count} frames (head {height})"
    | none => s!"imported {count} frames"
  .found (.obj [("imported", .ofNat count), ("head", .ofNat? head)]) text none []

/-- What an import of frames into a store that holds frames already comes to. -/
structure Imports (fs : Files) (root : Path) (old frames p : List Frame)
    (after : Files × Except CommandError Answer) : Prop where
  longest : LongestAdvancing (old.getLast?.map (·.height)) frames p
  content : after.1.contentAt (LogStore.logPath root) =
    fs.contentAt (LogStore.logPath root) ++ FrameLog.records p
  succeeds : (∃ answer, after.2 = .ok answer) ↔ p = frames
  report : p = frames → after.2 =
    .ok (importReport frames.length ((old ++ frames).getLast?.map (·.height)))
  breaksOff : ∀ f rest, frames = p ++ f :: rest → after.2 = .error (.append f.height)

variable {r : Invocation} {file : String}

theorem importFrames_of_not_exported (h : exported? fs file = none) :
    r.importFrames fs file = (fs, .error (.document file)) := by
  unfold exported? at h
  unfold importFrames
  rcases hbytes : fs.read (Files.path file) with e | bytes
  · rfl
  · rcases hframes : FrameLog.readExport bytes with e | frames
    · simp only [hframes]
    · simp [hbytes, hframes, Except.toOption] at h

theorem importFrames_of_exported {fs₁ : Files} (h : exported? fs file = some frames)
    (hopen : LogStore.openStore fs (Files.path r.store) = (fs₁, .ok s)) :
    r.importFrames fs file = match appendFrames fs₁ s 0 frames with
      | (fs', .error e) => (fs', .error e)
      | (fs', .ok (s', count)) => (fs', .ok (importReport count s'.history.head?)) := by
  obtain ⟨bytes, hbytes, hframes⟩ := Option.bind_eq_some_iff.mp h
  rw [toOption_eq_some_iff] at hbytes hframes
  simp only [importFrames, hbytes, hframes, hopen]
  rfl

/-- **An import into a store that opens takes the longest start of the export that advances.** -/
theorem importFrames_imports {fs₁ : Files} (h : exported? fs file = some frames)
    (hopen : LogStore.openStore fs (Files.path r.store) = (fs₁, .ok s))
    (hsize : ∀ f ∈ frames, (FrameLog.payload f).length < Word.narrowSize) :
    ∃ p, Imports fs (Files.path r.store) s.history.frames.toList frames p
      (r.importFrames fs file) := by
  obtain ⟨hpath, haccepts, hcontent, -⟩ := LogStore.openStore_read hopen
  rw [← hpath] at haccepts
  obtain ⟨p, hp, htook⟩ := appendFrames_spec haccepts hsize 0
  rw [importFrames_of_exported h hopen]
  rw [History.head?_eq] at hp
  obtain ⟨hlog, hall, hfirst⟩ := htook
  rw [hpath, hcontent] at hlog
  refine ⟨p, ?_⟩
  rcases hp.eq_or_exists with hwhole | ⟨f, rest, hrest⟩
  · obtain ⟨s', hs', hframes⟩ := hall hwhole
    have hhead : s'.history.head? =
        (s.history.frames.toList ++ frames).getLast?.map (·.height) := by
      rw [History.head?_eq, hframes]
    rcases happended : appendFrames fs₁ s 0 frames with ⟨fs', outcome⟩
    rw [happended] at hs' hlog
    obtain rfl : outcome = .ok (s', 0 + frames.length) := hs'
    refine ⟨hp, hlog, iff_of_true ⟨_, rfl⟩ hwhole, ?_, ?_⟩
    · intro _
      simp only [hhead, Nat.zero_add]
    · intro g rest hrest
      simp [hwhole] at hrest
  · have herror := hfirst f rest hrest
    have hpart : p ≠ frames := by
      rintro rfl
      simp at hrest
    rcases happended : appendFrames fs₁ s 0 frames with ⟨fs', outcome⟩
    rw [happended] at herror hlog
    obtain rfl : outcome = .error (.append f.height) := herror
    refine ⟨hp, hlog, iff_of_false ?_ hpart, fun hwhole => absurd hwhole hpart, ?_⟩
    · rintro ⟨answer, hanswer⟩
      simp at hanswer
    · intro g rest' hrest'
      have hsame : f :: rest = g :: rest' := List.append_cancel_left (hrest.symm.trans hrest')
      rw [(List.cons.inj hsame).1]

/-- **An import appends the records of the longest start of the export that advances past the head
of the store, and succeeds exactly when that is the whole export.** An export that does not read as
an array of frames changes nothing, and an empty store takes what a history in memory starts with. -/
theorem import_appends_longest_advancing (hr : r.command = .importFrames file) (now : Nat)
    (fs : Files) :
    (exported? fs file = none → r.run now fs = (fs, .error (.document file))) ∧
      ∀ frames fs₁ s, exported? fs file = some frames →
        LogStore.openStore fs (Files.path r.store) = (fs₁, .ok s) →
        (∀ f ∈ frames, (FrameLog.payload f).length < Word.narrowSize) →
        ∃ p, Imports fs (Files.path r.store) s.history.frames.toList frames p (r.run now fs) ∧
          (s.history.frames.toList = [] →
            ∀ m : Memory, (∃ m' i, m.ofFrames frames = .ok (m', i)) ↔ p = frames) := by
  have hrun : r.run now fs = r.importFrames fs file := by rw [run, hr]
  rw [hrun]
  refine ⟨importFrames_of_not_exported, ?_⟩
  intro frames fs₁ s hexported hopen hsize
  obtain ⟨p, hp⟩ := importFrames_imports hexported hopen hsize
  refine ⟨p, hp, fun hempty m => ?_⟩
  have hlongest := hp.longest
  rw [hempty] at hlongest
  rw [Memory.exists_ofFrames_iff, hlongest.eq_iff]
  rfl

/-- A file with an export whose last frame does not advance, and no store. -/
def brokenExport : Files :=
  Files.empty.set ["e"]
    (.file (Text.toBytes
      "[\x7b\"height\":1\x7d,\x7b\"height\":3\x7d,\x7b\"height\":2\x7d]"))

def brokenFrames : List Frame := (exported? brokenExport "e").getD []

def brokenImport : Invocation := ofCommand (.importFrames "e") { store := some "s" }

theorem path_brokenExport : Files.path "e" = ["e"] := @Files.path_singleton 'e' (by decide)

theorem path_brokenImport : Files.path brokenImport.store = ["s"] :=
  @Files.path_singleton 's' (by decide)

theorem exported_brokenExport : exported? brokenExport "e" = some brokenFrames := by
  have hsome : (exported? brokenExport "e").isSome = true := by
    rw [exported?, path_brokenExport]
    decide +kernel
  obtain ⟨frames, hframes⟩ := Option.isSome_iff_exists.mp hsome
  rw [brokenFrames, hframes, Option.getD_some]

theorem exists_brokenFrames : ∃ f g h, brokenFrames = [f, g, h] ∧
    f.height = 1 ∧ g.height = 3 ∧ h.height = 2 := by
  have hheights : brokenFrames.map (·.height) = [1, 3, 2] := by
    rw [brokenFrames, exported?, path_brokenExport]
    decide +kernel
  obtain ⟨f, _, hframes, hf, hheights⟩ := List.map_eq_cons_iff.mp hheights
  obtain ⟨g, _, rfl, hg, hheights⟩ := List.map_eq_cons_iff.mp hheights
  obtain ⟨h, rfl, hh⟩ := List.map_eq_singleton_iff.mp hheights
  exact ⟨f, g, h, hframes, hf, hg, hh⟩

/-- An export whose third frame does not advance, imported where there is no store yet: the log that
is there afterwards has the first two. -/
theorem import_appends_longest_advancing_brokenExport :
    brokenFrames.map (·.height) = [1, 3, 2] ∧
      Imports brokenExport ["s"] [] brokenFrames (brokenFrames.take 2)
        (brokenImport.run 0 brokenExport) ∧
      (brokenImport.run 0 brokenExport).2 = .error (.append 2) ∧
      (FrameLog.read ((brokenImport.run 0 brokenExport).1.contentAt
        (LogStore.logPath ["s"]))).toOption.map (fun h => h.frames.toList.map (·.height)) =
          some [1, 3] ∧
      ¬ ∃ m' i, Memory.empty.ofFrames brokenFrames = .ok (m', i) := by
  have hopen : LogStore.openStore brokenExport ["s"] =
      ((LogStore.openStore brokenExport ["s"]).1, .ok ⟨LogStore.logPath ["s"], .empty⟩) := rfl
  have hsize : ∀ f ∈ brokenFrames, (FrameLog.payload f).length < Word.narrowSize := by
    rw [brokenFrames, exported?, path_brokenExport]
    decide +kernel
  have hread : (FrameLog.read (FrameLog.records (brokenFrames.take 2))).toOption.map
      (fun h => h.frames.toList.map (·.height)) = some [1, 3] := by
    rw [brokenFrames, exported?, path_brokenExport]
    decide +kernel
  obtain ⟨f, g, h, hframes, hf, hg, hh⟩ := exists_brokenFrames
  have hlongest : LongestAdvancing none [f, g, h] [f, g] :=
    .cons (by simp) (.cons (by simp [hf, hg]) (.refused rfl (by simp [hg, hh])))
  obtain ⟨-, himport⟩ := import_appends_longest_advancing (r := brokenImport) rfl 0 brokenExport
  rw [path_brokenImport] at himport
  obtain ⟨p, hp, hmemory⟩ := himport _ _ _ exported_brokenExport hopen hsize
  rw [hframes] at hp hmemory hread ⊢
  obtain rfl := hp.longest.unique hlongest
  refine ⟨by simp [hf, hg, hh], hp, ?_, ?_, ?_⟩
  · rw [hp.breaksOff h [] rfl, hh]
  · rw [hp.content]
    exact hread
  · rw [hmemory rfl Memory.empty]
    simp

end Invocation

end FrameScope
