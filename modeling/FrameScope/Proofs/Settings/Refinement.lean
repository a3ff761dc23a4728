import FrameScope.Proofs.Settings.Reload

/-!
# A directory of documents and documents in memory

The two stores side by side. A key stands for two entries of the directory, the file of its document
and the draft (`SettingsKey.paths`), and no two keys share one (`paths_disjoint`). A call changes
nothing but these two (`kind?_call`) and depends on nothing but them and the directories above
(`call_congr`); so a run of calls is answered as it is in memory (`calls_refine`), save that a key
that names no file is refused.
-/

namespace FrameScope

/-! ### Keys and paths -/

namespace SettingsKey

variable {dir : Path} {key other : String} {p : Path}

theorem file_inj : file key = file other ↔ key = other := by
  simp [file, String.ext_iff]

theorem draft_inj : draft key = draft other ↔ key = other := by
  simp [draft, file, String.ext_iff]

theorem file_ne_draft (key other : String) : file key ≠ draft other := by
  intro h
  have hlast := congrArg (fun name => name.toList.getLast?) h
  simp [file, draft] at hlast

/-- The entries of the directory that a key stands for. -/
def paths (dir : Path) (key : String) : List Path := [dir ++ [file key], dir ++ [draft key]]

theorem mem_paths_iff : p ∈ paths dir key ↔ p = dir ++ [file key] ∨ p = dir ++ [draft key] := by
  simp [paths]

/-- **Different keys share no entry.** -/
theorem paths_disjoint (h : key ≠ other) : ∀ p ∈ paths dir key, p ∉ paths dir other := by
  simp [paths, file_inj, draft_inj, h, file_ne_draft, (file_ne_draft _ _).symm]

/-- The name of an entry of the directory itself. -/
structure EntryName (name : String) : Prop where
  ne_empty : name ≠ ""
  ne_dot : name ≠ "."
  ne_dots : name ≠ ".."
  no_slash : '/' ∉ name.toList

theorem entryName_append (h : isValid key = true) {tail : String} (htail : '/' ∉ tail.toList) :
    EntryName (key ++ tail) := by
  obtain ⟨c, cs, hkey⟩ : ∃ c cs, key.toList = c :: cs := by
    cases hkey : key.toList with
    | nil => simp [isValid, hkey] at h
    | cons c cs => exact ⟨c, cs, rfl⟩
  have hdot : c ≠ '.' := by
    rintro rfl
    simp [isValid, hkey] at h
  have hslash : '/' ∉ key.toList := by
    intro hmem
    simp only [isValid, Bool.and_eq_true, List.all_eq_true] at h
    exact absurd (h.2 _ hmem) (by decide)
  have hne {name : String} (hname : ∀ ds, name.toList ≠ c :: ds) : key ++ tail ≠ name := by
    rintro rfl
    exact hname (cs ++ tail.toList) (by simp [hkey])
  refine ⟨hne (by simp), hne (by simp [hdot.symm]), hne (by simp [hdot.symm]), ?_⟩
  simp [hslash, htail]

/-- **An accepted key stands for entries of the directory itself.** -/
theorem exists_entryName (h : isValid key = true) :
    ∀ p ∈ paths dir key, ∃ name, p = dir ++ [name] ∧ EntryName name := by
  intro p hp
  rcases mem_paths_iff.mp hp with rfl | rfl
  · exact ⟨_, rfl, entryName_append h (by decide)⟩
  · refine ⟨_, rfl, ?_⟩
    rw [draft, file, String.append_assoc]
    exact entryName_append h (by decide)

end SettingsKey

/-! ### Calls -/

/-- What is asked of a store. -/
inductive StoreCall where
  | load (key : String)
  | save (key : String) (value : Json)
  | remove (key : String)

namespace StoreCall

def key : StoreCall → String
  | load key => key
  | save key _ => key
  | remove key => key

/-- A call whose value is one that a text stands for. -/
def Parsed : StoreCall → Prop
  | save _ value => value.Parsed
  | _ => True

/-- What a directory answers, from what memory answers. -/
def answer (c : StoreCall) (a : Except SettingsError (Option Json)) :
    Except SettingsError (Option Json) :=
  if SettingsKey.isValid c.key then a else .error (.invalidKey c.key)

end StoreCall

namespace SettingsStore

variable {σ : Type}

/-- One call: the state behind it and what it answers. -/
def call (S : SettingsStore σ) (st : σ) : StoreCall → σ × Except SettingsError (Option Json)
  | .load key => (st, S.load st key)
  | .save key value => ((S.save st key value).1, (S.save st key value).2.map fun _ => none)
  | .remove key => ((S.remove st key).1, (S.remove st key).2.map fun _ => none)

/-- Calls one after the other: the state behind the last, and all answers. -/
def calls (S : SettingsStore σ) : σ → List StoreCall → σ × List (Except SettingsError (Option Json))
  | st, [] => (st, [])
  | st, c :: cs =>
    let done := S.call st c
    let rest := S.calls done.1 cs
    (rest.1, done.2 :: rest.2)

/-! ### What a call changes -/

open SettingsKey

variable {dir p : Path} {fs fs' : Files} {key other : String} {v : Json} {c : StoreCall}
  {documents : Entries Json}

theorem writeDocument_cases (fs : Files) (dir : Path) (key : String) (v : Json) :
    writeDocument fs dir key v = (fs, .error .file) ∨
      writeDocument fs dir key v =
        (fs.set (dir ++ [draft key]) (.file (Text.toBytes v.pretty)), .error .file) ∨
        writeDocument fs dir key v =
          ((⟨(fs.set (dir ++ [draft key]) (.file (Text.toBytes v.pretty))).entries.filter
            fun e => e.1 ≠ dir ++ [draft key]⟩ : Files).set (dir ++ [file key])
              (.file (Text.toBytes v.pretty)), .ok ()) := by
  unfold writeDocument
  dsimp only
  cases hwrite : fs.write (dir ++ [draft key]) (Text.toBytes v.pretty) with
  | error e => exact .inl rfl
  | ok written =>
    obtain rfl := Files.eq_set_of_write hwrite
    dsimp only
    split
    · exact .inr (.inl rfl)
    · rename_i moved hrename
      obtain ⟨content, hcontent, rfl⟩ := Files.eq_set_of_rename hrename
      rw [Files.kind?_set entry_ne_nil, if_pos rfl] at hcontent
      obtain rfl : Text.toBytes v.pretty = content := by simpa using hcontent
      exact .inr (.inr rfl)

theorem call_of_not_valid (h : isValid c.key = false) :
    (directory dir).call fs c = (fs, .error (.invalidKey c.key)) := by
  cases c <;> simp_all [StoreCall.key, call, directory, Except.map]

/-- What a call does in a directory when its key names a file. -/
def work (dir : Path) (fs : Files) : StoreCall → Files × Except SettingsError (Option Json)
  | .load key => (fs, readDocument fs (dir ++ [file key]))
  | .save key v => (writeDocument fs dir key v).map id (Except.map fun _ => none)
  | .remove key => (removeDocument fs (dir ++ [file key])).map id (Except.map fun _ => none)

theorem call_of_valid (h : isValid c.key = true) : (directory dir).call fs c = work dir fs c := by
  cases c <;> simp only [StoreCall.key] at h <;> simp [call, directory, work, Prod.map, h]

theorem kind?_writeDocument (hp : p ∉ paths dir key) :
    (writeDocument fs dir key v).1.kind? p = fs.kind? p := by
  rw [mem_paths_iff, not_or] at hp
  rcases writeDocument_cases fs dir key v with h | h | h
  · rw [h]
  · rw [h, Files.kind?_set entry_ne_nil, if_neg hp.2]
  · rw [h, Files.kind?_set entry_ne_nil, if_neg hp.1, Files.kind?_filter entry_ne_nil,
      if_neg hp.2, Files.kind?_set entry_ne_nil, if_neg hp.2]

theorem kind?_removeDocument {q : Path} (hq : q ≠ []) (hp : p ≠ q) :
    (removeDocument fs q).1.kind? p = fs.kind? p := by
  rcases removeDocument_cases fs q with h | ⟨h, -⟩ | h
  · rw [h]
  · rw [h]
  · rw [h, Files.kind?_filter hq, if_neg hp]

/-- **A call changes nothing but the entries of its key.** -/
theorem kind?_call (hp : p ∉ paths dir c.key) :
    ((directory dir).call fs c).1.kind? p = fs.kind? p := by
  cases hvalid : isValid c.key with
  | false => rw [call_of_not_valid hvalid]
  | true =>
    rw [call_of_valid hvalid]
    cases c with
    | load key => rfl
    | save key v => exact kind?_writeDocument hp
    | remove key => exact kind?_removeDocument entry_ne_nil fun h => hp (mem_paths_iff.mpr (.inl h))

theorem take_not_mem_paths (n : Nat) : dir.take n ∉ paths dir key := by
  rw [mem_paths_iff, not_or]
  exact ⟨take_ne_entry n, take_ne_entry n⟩

/-! ### What a call depends on -/

/-- Trees with the same at the entries of a key and at the directories above them. -/
structure AgreeOn (dir : Path) (key : String) (fs fs' : Files) : Prop where
  entries : ∀ p ∈ paths dir key, fs.kind? p = fs'.kind? p
  above : ∀ n, fs.kind? (dir.take n) = fs'.kind? (dir.take n)

/-- The same failure on both sides, or trees that are related. -/
def Alike (R : Files → Files → Prop) (r r' : Except FileError Files) : Prop :=
  (∃ e, r = .error e ∧ r' = .error e) ∨ ∃ fs fs', r = .ok fs ∧ r' = .ok fs' ∧ R fs fs'

namespace AgreeOn

theorem before (h : AgreeOn dir key fs fs') (hp : p ∈ paths dir key) :
    ∀ n < p.length, fs.kind? (p.take n) = fs'.kind? (p.take n) := by
  have hentry {name : String} : ∀ n < (dir ++ [name]).length,
      fs.kind? ((dir ++ [name]).take n) = fs'.kind? ((dir ++ [name]).take n) := by
    intro n hn
    rw [List.length_append, List.length_singleton] at hn
    rw [List.take_append_of_le_length (by omega)]
    exact h.above n
  rcases mem_paths_iff.mp hp with rfl | rfl
  · exact hentry
  · exact hentry

theorem ne_nil (hp : p ∈ paths dir key) : p ≠ [] := by
  rcases mem_paths_iff.mp hp with rfl | rfl
  · exact entry_ne_nil
  · exact entry_ne_nil

theorem blocked (h : AgreeOn dir key fs fs') (hp : p ∈ paths dir key) :
    fs.blocked p = fs'.blocked p := Files.blocked_congr (h.before hp)

theorem read (h : AgreeOn dir key fs fs') (hp : p ∈ paths dir key) : fs.read p = fs'.read p :=
  Files.read_congr (h.before hp) (h.entries p hp)

theorem set (h : AgreeOn dir key fs fs') (hp : p ≠ []) (kind : FileKind) :
    AgreeOn dir key (fs.set p kind) (fs'.set p kind) where
  entries q hq := by rw [Files.kind?_set hp, Files.kind?_set hp, h.entries q hq]
  above n := by rw [Files.kind?_set hp, Files.kind?_set hp, h.above n]

theorem filter (h : AgreeOn dir key fs fs') (hp : p ≠ []) :
    AgreeOn dir key ⟨fs.entries.filter fun e => e.1 ≠ p⟩ ⟨fs'.entries.filter fun e => e.1 ≠ p⟩ where
  entries q hq := by rw [Files.kind?_filter hp, Files.kind?_filter hp, h.entries q hq]
  above n := by rw [Files.kind?_filter hp, Files.kind?_filter hp, h.above n]

theorem isDir (h : AgreeOn dir key fs fs') (hp : p ∈ paths dir key) : fs.isDir p = fs'.isDir p := by
  rw [Files.isDir, Files.isDir, h.entries p hp]

theorem isDir_dropLast (h : AgreeOn dir key fs fs') (hp : p ∈ paths dir key) :
    fs.isDir p.dropLast = fs'.isDir p.dropLast := by
  have hdir : p.dropLast = dir.take dir.length := by
    rcases mem_paths_iff.mp hp with rfl | rfl <;> simp
  rw [hdir, Files.isDir, Files.isDir, h.above]

theorem write (h : AgreeOn dir key fs fs') (hp : p ∈ paths dir key) (content : Cbor.Bytes) :
    Alike (AgreeOn dir key) (fs.write p content) (fs'.write p content) := by
  rw [Files.write, Files.write, h.isDir hp, h.isDir_dropLast hp, h.blocked hp]
  split
  · exact .inl ⟨_, rfl, rfl⟩
  · split
    · exact .inr ⟨_, _, rfl, rfl, h.set (ne_nil hp) _⟩
    · exact .inl ⟨_, rfl, rfl⟩

theorem remove (h : AgreeOn dir key fs fs') (hp : p ∈ paths dir key) :
    Alike (AgreeOn dir key) (fs.remove p) (fs'.remove p) := by
  rw [Files.remove, Files.remove, h.entries p hp, h.blocked hp]
  split
  · exact .inr ⟨_, _, rfl, rfl, h.filter (ne_nil hp)⟩
  · exact .inl ⟨_, rfl, rfl⟩
  · exact .inl ⟨_, rfl, rfl⟩

theorem rename (h : AgreeOn dir key fs fs') {source target : Path}
    (hsource : source ∈ paths dir key) (htarget : target ∈ paths dir key) :
    Alike (AgreeOn dir key) (fs.rename source target) (fs'.rename source target) := by
  rw [Files.rename, Files.rename, h.read hsource, h.isDir htarget]
  cases fs'.read source with
  | error e => exact .inl ⟨e, rfl, rfl⟩
  | ok content =>
    simp only [bind, Except.bind]
    split
    · exact .inl ⟨_, rfl, rfl⟩
    · exact (h.filter (ne_nil hsource)).write htarget content

theorem readDocument (h : AgreeOn dir key fs fs') (hp : p ∈ paths dir key) :
    readDocument fs p = SettingsStore.readDocument fs' p := by
  rw [SettingsStore.readDocument, SettingsStore.readDocument, h.read hp]

theorem writeDocument (h : AgreeOn dir key fs fs') (v : Json) :
    AgreeOn dir key (writeDocument fs dir key v).1 (SettingsStore.writeDocument fs' dir key v).1 ∧
      (SettingsStore.writeDocument fs dir key v).2 =
        (SettingsStore.writeDocument fs' dir key v).2 := by
  have hfile : dir ++ [file key] ∈ paths dir key := mem_paths_iff.mpr (.inl rfl)
  have hdraft : dir ++ [draft key] ∈ paths dir key := mem_paths_iff.mpr (.inr rfl)
  unfold SettingsStore.writeDocument
  rcases h.write hdraft (Text.toBytes v.pretty) with
    ⟨e, hfs, hfs'⟩ | ⟨written, written', hfs, hfs', hagree⟩
  · simp only [hfs, hfs', and_true]
    exact h
  · rcases hagree.rename hdraft hfile with
      ⟨e, hmoved, hmoved'⟩ | ⟨moved, moved', hmoved, hmoved', hdone⟩
    · simp only [hfs, hfs', hmoved, hmoved', and_true]
      exact hagree
    · simp only [hfs, hfs', hmoved, hmoved', and_true]
      exact hdone

theorem removeDocument (h : AgreeOn dir key fs fs') (hp : p ∈ paths dir key) :
    AgreeOn dir key (removeDocument fs p).1 (SettingsStore.removeDocument fs' p).1 ∧
      (SettingsStore.removeDocument fs p).2 = (SettingsStore.removeDocument fs' p).2 := by
  unfold SettingsStore.removeDocument
  rcases h.remove hp with ⟨e, hfs, hfs'⟩ | ⟨removed, removed', hfs, hfs', hagree⟩
  · rw [hfs, hfs']
    cases e with
    | notFound => exact ⟨h, rfl⟩
    | refused => exact ⟨h, rfl⟩
  · rw [hfs, hfs']
    exact ⟨hagree, rfl⟩

end AgreeOn

/-- **A call depends on nothing but the entries of its key and the directories above them.** -/
theorem call_congr (h : AgreeOn dir c.key fs fs') :
    AgreeOn dir c.key ((directory dir).call fs c).1 ((directory dir).call fs' c).1 ∧
      ((directory dir).call fs c).2 = ((directory dir).call fs' c).2 := by
  cases hvalid : isValid c.key with
  | false =>
    rw [call_of_not_valid hvalid, call_of_not_valid hvalid]
    exact ⟨h, rfl⟩
  | true =>
    have hfile : dir ++ [file c.key] ∈ paths dir c.key := mem_paths_iff.mpr (.inl rfl)
    rw [call_of_valid hvalid, call_of_valid hvalid]
    cases c with
    | load key => exact ⟨h, h.readDocument hfile⟩
    | save key v =>
      obtain ⟨hagree, hsame⟩ := h.writeDocument v
      exact ⟨hagree, congrArg (Except.map fun _ => none) hsame⟩
    | remove key =>
      obtain ⟨hagree, hsame⟩ := h.removeDocument hfile
      exact ⟨hagree, congrArg (Except.map fun _ => none) hsame⟩

/-- **A call leaves the document of every other key as it is.** -/
theorem load_call_of_ne (h : key ≠ c.key) :
    (directory dir).load ((directory dir).call fs c).1 key = (directory dir).load fs key := by
  have hagree : AgreeOn dir key ((directory dir).call fs c).1 fs :=
    ⟨fun p hp => kind?_call (paths_disjoint h p hp), fun n => kind?_call (take_not_mem_paths n)⟩
  exact (call_congr (c := .load key) hagree).2

/-! ### When the files allow it -/

/-- A directory that is there, with nothing but files in it. -/
structure Usable (dir : Path) (fs : Files) : Prop where
  isOpen : HasDirectory fs dir
  entry : ∀ name, fs.kind? (dir ++ [name]) ≠ some .directory

namespace Usable

theorem set (h : Usable dir fs) (name : String) (content : Cbor.Bytes) :
    Usable dir (fs.set (dir ++ [name]) (.file content)) where
  isOpen := h.isOpen.set _
  entry other := by
    rw [Files.kind?_set entry_ne_nil]
    split
    · simp
    · exact h.entry other

theorem filter (h : Usable dir fs) (name : String) :
    Usable dir ⟨fs.entries.filter fun e => e.1 ≠ dir ++ [name]⟩ where
  isOpen := h.isOpen.erase
  entry other := by
    rw [Files.kind?_filter entry_ne_nil]
    split
    · simp
    · exact h.entry other

theorem write (h : Usable dir fs) (name : String) (content : Cbor.Bytes) :
    fs.write (dir ++ [name]) content = .ok (fs.set (dir ++ [name]) (.file content)) := by
  have hfree : fs.isDir (dir ++ [name]) = false := by simpa [Files.isDir] using h.entry name
  have hdir : fs.isDir dir = true := by simpa [Files.isDir] using h.isOpen dir.length (Nat.le_refl _)
  simp [Files.write, hfree, hdir]

theorem rename (h : Usable dir fs) {source : String} {content : Cbor.Bytes}
    (hsource : fs.kind? (dir ++ [source]) = some (.file content)) (target : String) :
    fs.rename (dir ++ [source]) (dir ++ [target]) =
      .ok ((⟨fs.entries.filter fun e => e.1 ≠ dir ++ [source]⟩ : Files).set (dir ++ [target])
        (.file content)) := by
  have hread : fs.read (dir ++ [source]) = .ok content := by rw [Files.read, hsource]
  have hfree : fs.isDir (dir ++ [target]) = false := by simpa [Files.isDir] using h.entry target
  rw [Files.rename, hread]
  simp only [bind, Except.bind, hfree, Bool.false_eq_true, if_false]
  exact (h.filter source).write target content

/-- **In a directory with nothing but files no call fails for the files, and it stays one.** -/
theorem call (h : Usable dir fs) (c : StoreCall) :
    Usable dir ((directory dir).call fs c).1 ∧
      ((directory dir).call fs c).2 ≠ .error .file := by
  cases hvalid : isValid c.key with
  | false =>
    rw [call_of_not_valid hvalid]
    exact ⟨h, by simp⟩
  | true =>
    rw [call_of_valid hvalid]
    cases c with
    | load key =>
      refine ⟨h, ?_⟩
      rw [work, readDocument, Files.read, h.isOpen.blocked_eq_false]
      cases hkind : fs.kind? (dir ++ [file key]) with
      | none => simp
      | some kind =>
        cases kind with
        | directory => exact absurd hkind (h.entry _)
        | file content =>
          dsimp only
          split
          · simp
          · simp
    | save key v =>
      have hwritten := h.set (draft key) (Text.toBytes v.pretty)
      have hcontent : (fs.set (dir ++ [draft key]) (.file (Text.toBytes v.pretty))).kind?
          (dir ++ [draft key]) = some (.file (Text.toBytes v.pretty)) := by
        rw [Files.kind?_set entry_ne_nil, if_pos rfl]
      simp only [work, writeDocument, h.write, hwritten.rename hcontent]
      exact ⟨(hwritten.filter _).set _ _, by simp [Except.map]⟩
    | remove key =>
      rw [work, removeDocument, Files.remove, h.isOpen.blocked_eq_false]
      cases hkind : fs.kind? (dir ++ [file key]) with
      | none => exact ⟨h, by simp [Except.map]⟩
      | some kind =>
        cases kind with
        | directory => exact absurd hkind (h.entry _)
        | file content => exact ⟨h.filter _, by simp [Except.map]⟩

theorem calls {cs : List StoreCall} (h : Usable dir fs) :
    ∀ a ∈ ((directory dir).calls fs cs).2, a ≠ .error .file := by
  induction cs generalizing fs with
  | nil => simp [SettingsStore.calls]
  | cons c cs ih => exact List.forall_mem_cons.mpr ⟨(h.call c).2, ih (h.call c).1⟩

end Usable

/-! ### The refinement -/

/-- A directory that is there and holds, under every key that names a file, the document that memory
holds. -/
structure Mirrors (dir : Path) (fs : Files) (documents : Entries Json) : Prop where
  isOpen : HasDirectory fs dir
  load : ∀ key, isValid key = true → (directory dir).load fs key = .ok (documents.get? key)

theorem get?_call_of_ne (h : key ≠ c.key) :
    ((memory.call documents c).1).get? key = documents.get? key := by
  cases c with
  | load other => rfl
  | save other v => exact (Entries.get?_put key).trans (if_neg (Ne.symm h))
  | remove other => exact (Entries.get?_erase documents other key).trans (if_neg (Ne.symm h))

/-- **One call: a directory answers as memory does, and still holds the same.** -/
theorem Mirrors.call (h : Mirrors dir fs documents) (hparsed : c.Parsed)
    (hworks : ((directory dir).call fs c).2 ≠ .error .file) :
    Mirrors dir ((directory dir).call fs c).1 (memory.call documents c).1 ∧
      ((directory dir).call fs c).2 = c.answer (memory.call documents c).2 := by
  cases hvalid : isValid c.key with
  | false =>
    rw [call_of_not_valid hvalid, StoreCall.answer, hvalid]
    refine ⟨⟨h.isOpen, fun key hkey => ?_⟩, rfl⟩
    rw [get?_call_of_ne fun heq => by simp [← heq, hkey] at hvalid, h.load key hkey]
  | true =>
    -- Under the other keys nothing changes on either side; what is left is the key of the call.
    have hother (hsame : (directory dir).load ((directory dir).call fs c).1 c.key =
        .ok ((memory.call documents c).1.get? c.key)) (key : String) (hkey : isValid key = true) :
        (directory dir).load ((directory dir).call fs c).1 key =
          .ok ((memory.call documents c).1.get? key) := by
      by_cases heq : key = c.key
      · exact heq ▸ hsame
      · rw [load_call_of_ne heq, get?_call_of_ne heq, h.load key hkey]
    rw [StoreCall.answer, hvalid, if_pos rfl]
    cases c with
    | load key => exact ⟨h, h.load key hvalid⟩
    | save key v =>
      rcases hsave : (directory dir).save fs key v with ⟨fs', e | u⟩
      · have hfile := directory_save_error hvalid (congrArg Prod.snd hsave)
        exact absurd (by simp [SettingsStore.call, hsave, hfile, Except.map]) hworks
      · have hafter : ((directory dir).call fs (.save key v)).1 = fs' := by
          simp [SettingsStore.call, hsave]
        have hanswer : ((directory dir).call fs (.save key v)).2 = .ok none := by
          simp [SettingsStore.call, hsave, Except.map]
        refine ⟨⟨hafter ▸ (directory_save_ok h.isOpen hsave).2.1, hother ?_⟩, hanswer⟩
        rw [hafter]
        refine ((directory_load_save h.isOpen hparsed.sound hsave).1 hparsed.nesting_le).trans ?_
        exact congrArg _ ((Entries.get?_put key).trans (if_pos rfl)).symm
    | remove key =>
      rcases hremove : (directory dir).remove fs key with ⟨fs', e | u⟩
      · have hfile := directory_remove_error hvalid (congrArg Prod.snd hremove)
        exact absurd (by simp [SettingsStore.call, hremove, hfile, Except.map]) hworks
      · have hafter : ((directory dir).call fs (.remove key)).1 = fs' := by
          simp [SettingsStore.call, hremove]
        have hanswer : ((directory dir).call fs (.remove key)).2 = .ok none := by
          simp [SettingsStore.call, hremove, Except.map]
        refine ⟨⟨hafter ▸ (directory_remove_ok h.isOpen hremove).2.1, hother ?_⟩, hanswer⟩
        rw [hafter]
        refine (directory_load_remove h.isOpen hremove).trans ?_
        exact congrArg _ (Entries.get?_erase_self documents key).symm

/-- **Calls: a directory answers all of them as memory does, and holds the same behind the last.** -/
theorem Mirrors.calls {cs : List StoreCall} (h : Mirrors dir fs documents)
    (hparsed : ∀ c ∈ cs, c.Parsed)
    (hworks : ∀ a ∈ ((directory dir).calls fs cs).2, a ≠ .error .file) :
    Mirrors dir ((directory dir).calls fs cs).1 (memory.calls documents cs).1 ∧
      ((directory dir).calls fs cs).2 =
        List.zipWith StoreCall.answer cs (memory.calls documents cs).2 := by
  induction cs generalizing fs documents with
  | nil => exact ⟨h, rfl⟩
  | cons c cs ih =>
    obtain ⟨hc, hcs⟩ := List.forall_mem_cons.mp hparsed
    obtain ⟨hfirst, hrest⟩ := List.forall_mem_cons.mp hworks
    obtain ⟨hstep, hanswer⟩ := h.call hc hfirst
    obtain ⟨hafter, hanswers⟩ := ih hstep hcs hrest
    refine ⟨hafter, ?_⟩
    rw [SettingsStore.calls, SettingsStore.calls]
    dsimp only
    rw [hanswer, hanswers, List.zipWith_cons_cons]

theorem mirrors_nil (h : HasDirectory fs dir)
    (hnone : ∀ key, fs.kind? (dir ++ [file key]) = none) : Mirrors dir fs [] where
  isOpen := h
  load key hkey := by
    simp [directory, hkey, readDocument, Files.read, hnone, h.blocked_eq_false, Entries.get?]

/-- **A directory of documents refines documents in memory.** A run of calls is answered as in
memory, save that a key that names no file is refused and nothing is touched. Different keys share
no entry, so that a call changes no other key's document, nor anything else but the entries of its
key; it depends on nothing but these and the directories above, and they stand in the directory
itself. -/
theorem directory_refines_memory (dir : Path) :
    (∀ fs documents cs, Mirrors dir fs documents → (∀ c ∈ cs, StoreCall.Parsed c) →
      (∀ a ∈ ((directory dir).calls fs cs).2, a ≠ .error .file) →
        Mirrors dir ((directory dir).calls fs cs).1 (memory.calls documents cs).1 ∧
          ((directory dir).calls fs cs).2 =
            List.zipWith StoreCall.answer cs (memory.calls documents cs).2) ∧
      (∀ fs c, isValid c.key = false →
        (directory dir).call fs c = (fs, .error (.invalidKey c.key))) ∧
      (∀ key other, key ≠ other → ∀ p ∈ paths dir key, p ∉ paths dir other) ∧
      (∀ fs c key, key ≠ c.key →
        (directory dir).load ((directory dir).call fs c).1 key = (directory dir).load fs key) ∧
      (∀ fs c p, p ∉ paths dir c.key → ((directory dir).call fs c).1.kind? p = fs.kind? p) ∧
      (∀ fs fs' c, AgreeOn dir c.key fs fs' →
        AgreeOn dir c.key ((directory dir).call fs c).1 ((directory dir).call fs' c).1 ∧
          ((directory dir).call fs c).2 = ((directory dir).call fs' c).2) ∧
      ∀ key, isValid key = true → ∀ p ∈ paths dir key, ∃ name, p = dir ++ [name] ∧ EntryName name :=
  ⟨fun _ _ _ h hparsed hworks => h.calls hparsed hworks, fun _ _ h => call_of_not_valid h,
    fun _ _ h => paths_disjoint h, fun _ _ _ h => load_call_of_ne h, fun _ _ _ h => kind?_call h,
    fun _ _ _ h => call_congr h, fun _ h => exists_entryName h⟩

/-- A directory for settings, without a document. -/
def freshDirectory : Files := ⟨[(["settings"], .directory)]⟩

theorem usable_freshDirectory : Usable ["settings"] freshDirectory where
  isOpen := @hasDirectory_of_open ["settings"] .empty freshDirectory rfl
  entry name := by simp [freshDirectory, Files.kind?]

/-- Calls under keys that look like the files and drafts of one another, and under one that leads
out of the directory. -/
def dottedCalls : List StoreCall :=
  [ .save "a" (.bool true), .save "a.json" (.bool false), .save "a.json.tmp" .null, .load "a",
    .save "../a" .null, .load "../a", .remove "a.json", .load "a", .load "a.json",
    .load "a.json.tmp" ]

theorem parsed_dottedCalls : ∀ c ∈ dottedCalls, c.Parsed := by
  simp only [dottedCalls, List.forall_mem_cons]
  exact ⟨⟨"true".toList, rfl⟩, ⟨"false".toList, rfl⟩, ⟨"null".toList, rfl⟩, trivial,
    ⟨"null".toList, rfl⟩, trivial, trivial, trivial, trivial, trivial, by simp⟩

theorem directory_refines_memory_dotted :
    ((directory ["settings"]).calls freshDirectory dottedCalls).2 =
      [ .ok none, .ok none, .ok none, .ok (some (.bool true)), .error (.invalidKey "../a"),
        .error (.invalidKey "../a"), .ok none, .ok (some (.bool true)), .ok none,
        .ok (some .null) ] := by
  have hmirrors : Mirrors ["settings"] freshDirectory [] :=
    mirrors_nil usable_freshDirectory.isOpen fun key => by simp [freshDirectory, Files.kind?]
  exact ((directory_refines_memory ["settings"]).1 freshDirectory [] dottedCalls hmirrors
    parsed_dottedCalls usable_freshDirectory.calls).2

end SettingsStore

end FrameScope
