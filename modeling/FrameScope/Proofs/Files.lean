import FrameScope.Files
import FrameScope.Proofs.Outcome
import Mathlib.Data.String.Basic

/-!
# What file operations change

`kind?_set`: setting one path changes that path alone. Creating the directories above a path leaves
every other path as it is (`kind?_createDirs`), and nothing but a file among them stops it
(`createDirs_ok`).

`Files.Accepts`: a file can be written at a path. Then adding to the file succeeds and adds to its
content (`extend_ok`).
-/

namespace FrameScope.Files

variable {fs fs' : Files} {p q : Path}

@[simp] theorem kind?_nil (fs : Files) : fs.kind? [] = some .directory := by simp [kind?]

theorem find?_filter_ne {entries : List (Path × FileKind)} (h : q ≠ p) :
    (entries.filter fun e => e.1 ≠ p).find? (fun e => e.1 = q) =
      entries.find? fun e => e.1 = q := by
  rw [List.find?_filter]
  congr 1
  funext e
  by_cases he : e.1 = q
  · simp [he, h]
  · simp [he]

theorem path_singleton {c : Char} (hc : c ∉ ['/', '.']) :
    path (String.singleton c) = [String.singleton c] := by
  obtain ⟨hslash, hdot⟩ : c ≠ '/' ∧ c ≠ '.' := by simpa using hc
  have hsize : c.utf8Size ≠ 0 := Nat.ne_of_gt c.utf8Size_pos
  have hsplit : (String.singleton c).splitOn "/" = [String.singleton c] := by
    rw [String.splitOn, if_neg (by decide), String.splitOnAux, String.splitOnAux]
    simp [String.Pos.Raw.get, String.Pos.Raw.utf8GetAux, String.Pos.Raw.next, String.Pos.Raw.atEnd,
      String.Pos.Raw.extract, String.Pos.Raw.extract.go₁, String.Pos.Raw.extract.go₂,
      String.Pos.Raw.ext_iff, hslash, hsize, hsize.symm]
  have hother : ∀ name : String, name.toList ≠ [c] → String.singleton c ≠ name := by
    rintro name hname rfl
    simp at hname
  rw [path, hsplit]
  simp [hother "." (by simpa using hdot.symm), hother ".." (by simp), hslash.symm]

theorem kind?_set {kind : FileKind} (hp : p ≠ []) :
    (fs.set p kind).kind? q = if q = p then some kind else fs.kind? q := by
  by_cases hq : q = p
  · subst hq
    have hnone : (fs.entries.filter fun e => e.1 ≠ q).find? (fun e => e.1 = q) = none := by
      simp [List.find?_eq_none]
    simp only [kind?, if_neg hp, set, List.find?_append, hnone, if_true, Option.none_or]
    simp
  · by_cases hnil : q = []
    · simp [hnil, Ne.symm hp]
    · simp only [kind?, if_neg hnil, set, List.find?_append, find?_filter_ne hq, if_neg hq]
      simp [Ne.symm hq]

theorem kind?_filter (hp : p ≠ []) :
    (⟨fs.entries.filter fun e => e.1 ≠ p⟩ : Files).kind? q = if q = p then none else fs.kind? q := by
  by_cases hq : q = p
  · subst hq
    simp [kind?, hp, List.find?_eq_none]
  · rw [if_neg hq, kind?, find?_filter_ne hq, kind?]

theorem blocked_eq_false (h : ∀ n < p.length, fs.kind? (p.take n) = some .directory) :
    fs.blocked p = false := by
  rw [blocked, List.any_eq_false]
  intro n hn
  simp [h n (List.mem_range.mp hn)]

theorem blocked_congr (h : ∀ n < p.length, fs.kind? (p.take n) = fs'.kind? (p.take n)) :
    fs.blocked p = fs'.blocked p := by
  rw [blocked, blocked, Bool.eq_iff_iff, List.any_eq_true, List.any_eq_true]
  refine exists_congr fun n => and_congr_right fun hn => ?_
  rw [h n (List.mem_range.mp hn)]

theorem read_congr (h : ∀ n < p.length, fs.kind? (p.take n) = fs'.kind? (p.take n))
    (hp : fs.kind? p = fs'.kind? p) : fs.read p = fs'.read p := by
  rw [read, read, hp, blocked_congr h]

/-! ### Writing and moving -/

theorem eq_set_of_write {content : Cbor.Bytes} (h : fs.write p content = .ok fs') :
    fs' = fs.set p (.file content) := by
  unfold write at h
  split at h
  · simp at h
  · split at h
    · exact (Except.ok.inj h).symm
    · simp at h

theorem eq_set_of_rename {source target : Path} (h : fs.rename source target = .ok fs') :
    ∃ content, fs.kind? source = some (.file content) ∧
      fs' = (⟨fs.entries.filter fun e => e.1 ≠ source⟩ : Files).set target (.file content) := by
  obtain ⟨content, hread, h⟩ := except_bind_eq_ok h
  have hkind : fs.kind? source = some (.file content) := by
    unfold read at hread
    split at hread
    · rename_i hkind
      rw [hkind, Except.ok.inj hread]
    · simp at hread
    · simp at hread
  refine ⟨content, hkind, ?_⟩
  split at h
  · simp at h
  · exact eq_set_of_write h

/-! ### Directories -/

theorem kind?_createDir (h : fs.createDir p = .ok fs') :
    fs'.kind? p = some .directory ∧ (∀ q, fs.kind? q ≠ none → fs'.kind? q = fs.kind? q) ∧
      ∀ q, q ≠ p → fs'.kind? q = fs.kind? q := by
  unfold createDir at h
  split at h
  · rename_i hdir
    simp only [Except.ok.injEq] at h
    exact h ▸ ⟨hdir, fun _ _ => rfl, fun _ _ => rfl⟩
  · simp at h
  · rename_i hnone
    have hp : p ≠ [] := by
      rintro rfl
      simp at hnone
    simp only [Except.ok.injEq] at h
    subst h
    refine ⟨by simp [kind?_set hp], fun q hq => ?_, fun q hq => by rw [kind?_set hp, if_neg hq]⟩
    rw [kind?_set hp, if_neg]
    rintro rfl
    exact hq hnone

/-- Directories created one after the other: each is one then, whatever was there stays, and no other
path changes. -/
theorem kind?_foldlM_createDir {ns : List Nat} {fs fs' : Files}
    (h : ns.foldlM (fun fs n => fs.createDir (p.take n)) fs = .ok fs') :
    (∀ n ∈ ns, fs'.kind? (p.take n) = some .directory) ∧
      (∀ q, fs.kind? q ≠ none → fs'.kind? q = fs.kind? q) ∧
        ∀ q, (∀ n ∈ ns, q ≠ p.take n) → fs'.kind? q = fs.kind? q := by
  induction ns generalizing fs with
  | nil =>
    simp only [List.foldlM_nil, pure, Except.pure, Except.ok.injEq] at h
    exact h ▸ ⟨by simp, fun _ _ => rfl, fun _ _ => rfl⟩
  | cons n ns ih =>
    rw [List.foldlM_cons] at h
    obtain ⟨mid, hmid, h⟩ := except_bind_eq_ok h
    obtain ⟨hdir, hkeep, hother⟩ := kind?_createDir hmid
    obtain ⟨hdirs, hkeeps, hothers⟩ := ih h
    refine ⟨?_, fun q hq => ?_, fun q hq => ?_⟩
    · intro k hk
      rcases List.mem_cons.mp hk with rfl | hk
      · rw [hkeeps _ (by simp [hdir]), hdir]
      · exact hdirs k hk
    · rw [hkeeps q (by rwa [hkeep q hq]), hkeep q hq]
    · rw [hothers q fun k hk => hq k (List.mem_cons_of_mem n hk), hother q (hq n (by simp))]

theorem kind?_createDirs (h : fs.createDirs p = .ok fs') :
    (∀ n ≤ p.length, fs'.kind? (p.take n) = some .directory) ∧
      ∀ q, (∀ n ≤ p.length, q ≠ p.take n) → fs'.kind? q = fs.kind? q := by
  obtain ⟨hdirs, -, hother⟩ := kind?_foldlM_createDir h
  exact ⟨fun n hn => hdirs n (List.mem_range.mpr (by omega)),
    fun q hq => hother q fun n hn => hq n (by have := List.mem_range.mp hn; omega)⟩

theorem foldlM_createDir_ok {ns : List Nat}
    (h : ∀ n ∈ ns, ∀ content, fs.kind? (p.take n) ≠ some (.file content)) :
    ∃ fs', ns.foldlM (fun fs n => fs.createDir (p.take n)) fs = .ok fs' := by
  induction ns generalizing fs with
  | nil => exact ⟨fs, rfl⟩
  | cons n ns ih =>
    obtain ⟨mid, hmid⟩ : ∃ mid, fs.createDir (p.take n) = .ok mid := by
      unfold createDir
      split
      · exact ⟨_, rfl⟩
      · rename_i content hfile
        exact absurd hfile (h n (by simp) content)
      · exact ⟨_, rfl⟩
    obtain ⟨hdir, hkeep, hother⟩ := kind?_createDir hmid
    have hfree : ∀ k ∈ ns, ∀ content, mid.kind? (p.take k) ≠ some (.file content) := by
      intro k hk content
      by_cases hsame : p.take k = p.take n
      · simp [hsame, hdir]
      · rw [hother _ hsame]
        exact h k (List.mem_cons_of_mem n hk) content
    obtain ⟨fs', hfs'⟩ := ih hfree
    exact ⟨fs', by rw [List.foldlM_cons, hmid]; exact hfs'⟩

theorem createDirs_ok
    (h : ∀ n ≤ p.length, ∀ content, fs.kind? (p.take n) ≠ some (.file content)) :
    ∃ fs', fs.createDirs p = .ok fs' :=
  foldlM_createDir_ok fun n hn => h n (by have := List.mem_range.mp hn; omega)

theorem createDirs_eq_self (h : ∀ n ≤ p.length, fs.kind? (p.take n) = some .directory) :
    fs.createDirs p = .ok fs := by
  have hfold (ns : List Nat) (hns : ∀ n ∈ ns, n ≤ p.length) :
      ns.foldlM (fun fs n => fs.createDir (p.take n)) fs = .ok fs := by
    induction ns with
    | nil => rfl
    | cons n ns ih =>
      have hdir : fs.createDir (p.take n) = .ok fs := by
        rw [createDir, h n (hns n (by simp))]
      rw [List.foldlM_cons, hdir]
      exact ih fun k hk => hns k (List.mem_cons_of_mem n hk)
  exact hfold _ fun n hn => by have := List.mem_range.mp hn; omega

/-! ### Files that can be written -/

/-- A file can be written at a path: no file stands where a directory above it should, and it is no
directory itself. -/
structure Accepts (fs : Files) (p : Path) : Prop where
  free : ∀ n < p.length, ∀ content, fs.kind? (p.take n) ≠ some (.file content)
  file : fs.kind? p ≠ some .directory

/-- The directories above a path are there. -/
def HasParents (fs : Files) (p : Path) : Prop :=
  ∀ n < p.length, fs.kind? (p.take n) = some .directory

theorem HasParents.accepts (h : fs.HasParents p) (hfile : fs.kind? p ≠ some .directory) :
    fs.Accepts p where
  free n hn content := by simp [h n hn]
  file := hfile

/-- What a file holds; nothing when it is not there. -/
def contentAt (fs : Files) (p : Path) : Cbor.Bytes :=
  match fs.kind? p with
  | some (.file content) => content
  | _ => []

theorem contentAt_of_read {content : Cbor.Bytes} (h : fs.read p = .ok content) :
    fs.contentAt p = content := by
  unfold read at h
  split at h
  · rename_i hfile
    rw [contentAt, hfile]
    exact Except.ok.inj h
  · contradiction
  · contradiction

theorem contentAt_of_not_exists (h : ¬ fs.exists? p = true) : fs.contentAt p = [] := by
  have hnone : fs.kind? p = none := by simpa [exists?] using h
  rw [contentAt, hnone]

theorem Accepts.ne_nil (h : fs.Accepts p) : p ≠ [] := by
  rintro rfl
  exact h.file (kind?_nil fs)

theorem take_ne_self {n : Nat} (h : n < p.length) : p.take n ≠ p := by
  intro heq
  have := congrArg List.length heq
  rw [List.length_take] at this
  omega

theorem take_dropLast {n : Nat} (h : n < p.length) : p.dropLast.take n = p.take n := by
  rw [List.dropLast_eq_take, List.take_take, Nat.min_eq_left (by omega)]

/-- The directories above a path that can be written are there or can be created, and nothing at the
path changes. -/
theorem Accepts.createDirs_dropLast (h : fs.Accepts p) :
    ∃ fs', fs.createDirs p.dropLast = .ok fs' ∧ fs'.HasParents p ∧
      fs'.kind? p = fs.kind? p := by
  have hpos := List.length_pos_iff.mpr h.ne_nil
  have hfree : ∀ n ≤ p.dropLast.length, ∀ content,
      fs.kind? (p.dropLast.take n) ≠ some (.file content) := by
    intro n hn content
    rw [List.length_dropLast] at hn
    rw [take_dropLast (by omega)]
    exact h.free n (by omega) content
  obtain ⟨fs', hfs'⟩ := createDirs_ok hfree
  obtain ⟨hdirs, hother⟩ := kind?_createDirs hfs'
  rw [List.length_dropLast] at hdirs hother
  refine ⟨fs', hfs', fun n hn => ?_, hother p fun n hn => ?_⟩
  · rw [← take_dropLast hn]
    exact hdirs n (by omega)
  · rw [take_dropLast (by omega)]
    exact (take_ne_self (by omega)).symm

theorem HasParents.isDir_dropLast (h : fs.HasParents p) (hp : p ≠ []) :
    fs.isDir p.dropLast = true := by
  have hpos := List.length_pos_iff.mpr hp
  rw [List.dropLast_eq_take]
  simp [isDir, h (p.length - 1) (by omega)]

theorem extend_ok (hdirs : fs.HasParents p) (hp : p ≠ []) (hfile : fs.kind? p ≠ some .directory)
    (bytes : Cbor.Bytes) :
    fs.extend p bytes = .ok (fs.set p (.file (fs.contentAt p ++ bytes))) := by
  rcases hkind : fs.kind? p with _ | ⟨old⟩ | _
  · have hdir : fs.isDir p = false := by simp [isDir, hkind]
    simp [extend, contentAt, hkind, write, hdir, hdirs.isDir_dropLast hp]
  · simp [extend, contentAt, hkind]
  · exact absurd hkind hfile

theorem contentAt_set (hp : p ≠ []) (content : Cbor.Bytes) :
    (fs.set p (.file content)).contentAt p = content := by
  simp [contentAt, kind?_set hp]

theorem HasParents.set (hdirs : fs.HasParents p) (hp : p ≠ []) (kind : FileKind) :
    (fs.set p kind).HasParents p := by
  intro n hn
  rw [kind?_set hp, if_neg (take_ne_self hn), hdirs n hn]

theorem HasParents.accepts_set (hdirs : fs.HasParents p) (hp : p ≠ []) (content : Cbor.Bytes) :
    (fs.set p (.file content)).Accepts p :=
  (hdirs.set hp _).accepts (by simp [kind?_set hp])

end FrameScope.Files
