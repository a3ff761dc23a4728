import FrameScope.Insurance.Jurisdiction
import FrameScope.Proofs.Collection.Loggable
import FrameScope.Proofs.Files
import FrameScope.Proofs.Node.Kept
import FrameScope.Proofs.Node.Named

/-!
# Lines in a file and lines in memory

A file that holds lines by entity (`Snapshot.Holds`) is read as a snapshot with these lines
(`Snapshot.ofBytes_of_holds`), so a jurisdiction with that file answers as one that has the lines in
memory. The file is read anew for every request: whatever stood there before, an answer is that of
the content which is there at the request (`SnapshotRun.answers_run`), while the jurisdiction stays
what it was when it was opened.
-/

namespace FrameScope

open Node Read JsonText

/-! ### Lines and their document -/

theorem InsuranceLine.brings {K : Carriage} {level : Nat} {l : InsuranceLine}
    (h : l.token < Word.size) : K.Brings (level + 1) Coded.read (Coded.write l) l := by
  have hfills : K.Fills level fields ([ (.name "insurer", .text l.insurer),
      (.name "tokenId", .int l.token), (.name "remaining", Coded.write l.remaining),
      (.name "expiresAt", Coded.write l.expires) ] ++ []) default l :=
    .always rfl rfl (Carriage.brings_text l.insurer) <|
    .always rfl rfl (Carriage.brings_word h) <|
    .always rfl rfl (Carriage.brings_amount l.remaining) <|
    .always rfl rfl (Carriage.brings_amount l.expires) <| .nil _
  exact Carriage.brings_record (by decide) hfills

namespace Snapshot

/-- Lines by entity as they are: an entity comes once, and tokens have 64 bits. -/
structure Proper (held : LinesByEntity) : Prop where
  keys : held.keys.Nodup
  tokens : ∀ e ∈ held, ∀ l ∈ e.2, l.token < Word.size

/-- The document of lines by entity. -/
def linesNode (held : LinesByEntity) : Node :=
  .map (held.map fun e => (.name e.1, .seq (e.2.map Coded.write)))

theorem brings_linesNode {K : Carriage} (level : Nat) {held : LinesByEntity} (h : Proper held) :
    K.Brings (level + 3) (entries (list Coded.read)) (linesNode held) held := by
  have hlines : ∀ e ∈ held, K.Brings (level + 2) (list (Coded.read (α := InsuranceLine)))
      (.seq (e.2.map Coded.write)) (id e.2) := by
    intro e he
    have hlist : K.Brings (level + 2) (list Coded.read) (.seq (e.2.map Coded.write)) (e.2.map id) :=
      Carriage.brings_list fun l hl => InsuranceLine.brings (h.tokens e he l hl)
    rwa [List.map_id] at hlist
  have hentries := Carriage.brings_entries (w := fun ls => .seq (ls.map Coded.write)) (g := id)
    h.keys hlines
  rw [show (held.map fun e => (e.1, id e.2)) = held from List.map_id' held] at hentries
  exact hentries

/-! ### Files with lines -/

/-- The fields of a snapshot. -/
def fields : List (Field Snapshot) :=
  [ .may "name" (option text) fun x s => { s with name := x },
    .may "insurance" (option (entries (list Coded.read))) fun x s => { s with insurance := x } ]

theorem read_eq : read = record fields {} := rfl

theorem unaliased_fields : Unaliased fields := by
  simp [Unaliased, fields, Field.may]

theorem owns_insurance : Owns .text fields fields[1] insurance where
  field := rfl
  own := settles_of_set rfl fun _ _ _ => rfl
  other := by
    simp only [fields, List.forall_mem_cons]
    exact ⟨fun _ => leaves_of_set rfl fun _ _ => rfl, fun h => absurd rfl h, by simp⟩

/-- A file that holds lines by entity as its insurance: one object, with a name or without, and with
whatever else there is, however it is laid out. -/
def Holds (content : Cbor.Bytes) (held : LinesByEntity) : Prop :=
  ∃ (es : Entries Json) (before cs after : List Char),
    Text.ofBytes content = before ++ (cs ++ after) ∧ Blank before ∧ Blank after ∧
      (Json.obj es).Written cs ∧ es.keys.Nodup ∧
        es.get? "insurance" = some (linesNode held).toJson ∧
          ∀ v ∈ es.get? "name", v = .null ∨ ∃ s, v = .str s

theorem treeFields_eq_namedEntries (level : Nat) (es : Entries Json) :
    treeFields level es = namedEntries (treeOf level) es := by
  induction es with
  | nil => rfl
  | cons e es ih => rw [treeFields, ih]; rfl

theorem read_linesNode {held : LinesByEntity} (h : Proper held) :
    option (entries (list Coded.read)) .text (treeOf 126 (linesNode held).toJson) =
      .ok (some held) := by
  have hbrings : Carriage.text.Brings 126 (entries (list Coded.read)) (linesNode held) held :=
    brings_linesNode 123 h
  obtain ⟨hwritable, hfits⟩ := hbrings.passes
  have htree : treeOf 126 (linesNode held).toJson = (linesNode held).spelled := by
    rw [treeOf_of_le hfits.nesting, ofJson_toJson_of_writable hwritable]
  have hread : entries (list Coded.read) .text (linesNode held).spelled = .ok held :=
    hbrings.read (.inl ⟨rfl, rfl⟩)
  have hne : (linesNode held).spelled ≠ .null := by
    simp [linesNode, form_spelled.map]
  rw [htree, option_of_ne_null hne, hread]
  rfl

/-- **A file that holds lines by entity is read as a snapshot with these lines.** -/
theorem ofBytes_of_holds {content : Cbor.Bytes} {held : LinesByEntity} (hheld : Proper held)
    (h : Holds content held) : ∃ s, ofBytes content = .ok s ∧ s.insurance = some held := by
  obtain ⟨es, before, cs, after, hcontent, hbefore, hafter, hwritten, hkeys, hinsurance, hname⟩ := h
  have hadmits : ∀ e ∈ es, Admits fields .text e.1 (treeOf 126 e.2) := by
    intro e he
    have hfound : es.get? e.1 = some e.2 := (Entries.get?_eq_some_iff hkeys).mpr he
    by_cases hinsurance' : e.1 = "insurance"
    · rw [hinsurance', hinsurance] at hfound
      rw [hinsurance', ← Option.some.inj hfound, admits_of_find? (f := fields[1]) rfl]
      exact ⟨_, congrArg (Except.map _) (read_linesNode hheld)⟩
    · by_cases hname' : e.1 = "name"
      · rw [hname'] at hfound
        rw [hname', admits_of_find? (f := fields[0]) rfl]
        rcases hname e.2 hfound with hnull | ⟨s, hs⟩
        · exact ⟨_, by rw [hnull]; rfl⟩
        · exact ⟨_, by rw [hs]; rfl⟩
      · have hnone : fields.find? (·.answersTo e.1) = none := by
          simp [fields, Field.may, Field.answersTo, Ne.symm hinsurance', Ne.symm hname']
        rw [admits_of_no_field hnone]
        exact skip_treeOf 126 e.2
  obtain ⟨⟨seen, s⟩, hread⟩ :=
    (exists_fieldEntries_iff [] ({} : Snapshot) unaliased_fields hkeys
      (by simp)).mpr hadmits
  have hpart := part_of_fieldEntries owns_insurance unaliased_fields hkeys hread
  rw [show fields[1].name = "insurance" from rfl, hinsurance] at hpart
  obtain ⟨set, hset, hall⟩ := hpart
  obtain ⟨x, hx, rfl⟩ := except_map_eq_ok hset
  obtain rfl : some held = x := Except.ok.inj ((read_linesNode hheld).symm.trans hx)
  refine ⟨s, ?_, hall s⟩
  have hmissing : missing? fields seen = none := by simp [missing?, fields, Field.may]
  rw [ofBytes, hcontent, Document.ofChars_blank_written hbefore hwritten hafter, Document.decode,
    read_eq, treeOf, atLevel, if_neg (by decide), treeFields_eq_namedEntries, record, recordEntries]
  rw [show maxDepth - 1 = 126 from rfl, hread]
  simp [bind, Except.bind, hmissing]

theorem valid_linesNode {held : LinesByEntity} (h : Proper held) : (linesNode held).toJson.Valid :=
  (brings_linesNode (K := .text) 0 h).passes.2.valid

theorem holds_compact {es : Entries Json} {held : LinesByEntity} (hvalid : (Json.obj es).Valid)
    (hkeys : es.keys.Nodup) (hinsurance : es.get? "insurance" = some (linesNode held).toJson)
    (hname : ∀ v ∈ es.get? "name", v = .null ∨ ∃ s, v = .str s) :
    Holds (Text.toBytes (Json.obj es).compact) held := by
  refine ⟨es, [], (Json.obj es).compactChars, [], ?_, rfl, rfl, Json.written_compact hvalid, hkeys,
    hinsurance, hname⟩
  rw [Text.ofBytes_toBytes, Json.compact, String.toList_ofList]
  simp

end Snapshot

/-! ### A file that changes -/

/-- What comes to pass around a jurisdiction with a file. -/
inductive SnapshotEvent where
  /-- The file has other content from now on. -/
  | replace (content : Cbor.Bytes)
  /-- The lines of an entity are asked for. -/
  | request (entity : String)

/-- A jurisdiction, the files around it, and what its source answered so far; none where it has no
insurance. -/
structure SnapshotRun where
  files : Files
  jurisdiction : Jurisdiction
  answers : List (Option InsuranceAnswer)

namespace SnapshotRun

variable {path : Path} {shown : String} {content : Cbor.Bytes} {s : SnapshotRun}
  {es before after : List SnapshotEvent}

def step (path : Path) (s : SnapshotRun) : SnapshotEvent → SnapshotRun
  | .replace content => { s with files := s.files.set path (.file content) }
  | .request entity =>
    { s with answers := s.answers ++ [s.jurisdiction.source.bind (·.answer? s.files entity)] }

def run (path : Path) (s : SnapshotRun) (es : List SnapshotEvent) : SnapshotRun :=
  es.foldl (step path) s

/-- What the lines in memory would answer that some content has, or why it has none. -/
def answerOf (shown : String) (content : Cbor.Bytes) (entity : String) : Option InsuranceAnswer :=
  match Snapshot.ofBytes content with
  | .ok s => (InsuranceSource.fixed (s.insurance.getD [])).answer? .empty entity
  | .error _ => some (.error (.source [(SnapshotError.undecoded shown).message]))

/-- The answers of what is there at each request. -/
def answersOf (shown : String) : Cbor.Bytes → List SnapshotEvent → List (Option InsuranceAnswer)
  | _, [] => []
  | _, .replace content :: es => answersOf shown content es
  | content, .request entity :: es => answerOf shown content entity :: answersOf shown content es

theorem readSnapshot_of_file {fs : Files} (h : fs.kind? path = some (.file content)) :
    readSnapshot fs path shown =
      (Snapshot.ofBytes content).mapError fun _ => .undecoded shown := by
  rw [readSnapshot, Files.read, h]

theorem answer?_file {fs : Files} (h : fs.kind? path = some (.file content)) (entity : String) :
    (InsuranceSource.file path shown).answer? fs entity = answerOf shown content entity := by
  rw [InsuranceSource.answer?, readSnapshot_of_file h, answerOf]
  cases Snapshot.ofBytes content with
  | ok s => rfl
  | error e => rfl

/-- **Every answer is that of the content which is there at the request.** -/
theorem answers_run (hfile : s.files.kind? path = some (.file content))
    (hsource : ∀ source ∈ s.jurisdiction.source, source = .file path shown) :
    (run path s es).answers =
      s.answers ++ (answersOf shown content es).map fun a => s.jurisdiction.source.bind fun _ => a := by
  induction es generalizing s content with
  | nil => simp [run, answersOf]
  | cons e es ih =>
    rw [run, List.foldl_cons, ← run]
    cases e with
    | replace content' =>
      have hpath : path ≠ [] := by
        rintro rfl
        rw [Files.kind?_nil] at hfile
        cases hfile
      have hnew : (s.step path (.replace content')).files.kind? path = some (.file content') :=
        (Files.kind?_set hpath).trans (if_pos rfl)
      exact ih hnew hsource
    | request entity =>
      have hanswer : s.jurisdiction.source.bind (·.answer? s.files entity) =
          s.jurisdiction.source.bind fun _ => answerOf shown content entity := by
        cases hs : s.jurisdiction.source with
        | none => rfl
        | some source =>
          rw [hsource source hs]
          exact answer?_file hfile entity
      rw [ih (s := s.step path (.request entity)) hfile hsource, step, answersOf, List.map_cons]
      dsimp only
      rw [hanswer, List.append_assoc, List.singleton_append]

theorem jurisdiction_run : (run path s es).jurisdiction = s.jurisdiction := by
  induction es generalizing s with
  | nil => rfl
  | cons e es ih =>
    refine ih.trans ?_
    cases e with
    | replace content => rfl
    | request entity => rfl

theorem answersOf_append_replace (content' : Cbor.Bytes) :
    answersOf shown content (before ++ .replace content' :: after) =
      answersOf shown content before ++ answersOf shown content' after := by
  induction before generalizing content with
  | nil => rfl
  | cons e before ih =>
    cases e with
    | replace c => exact ih
    | request entity => exact congrArg (_ :: ·) ih

theorem source_of_open {fs : Files} {j : Jurisdiction} (hfile : fs.kind? path = some (.file content))
    (h : Jurisdiction.ofFile fs path shown = .ok j) :
    ∃ s, Snapshot.ofBytes content = .ok s ∧ j.source = s.insurance.map fun _ => .file path shown := by
  rw [Jurisdiction.ofFile, readSnapshot_of_file hfile] at h
  cases hs : Snapshot.ofBytes content with
  | error e => simp [hs, Except.mapError, bind, Except.bind] at h
  | ok s =>
    simp only [hs, Except.mapError, bind, Except.bind, Except.ok.injEq] at h
    exact ⟨s, rfl, h ▸ rfl⟩

theorem exists_open (shown : String) {fs : Files} {snapshot : Snapshot}
    (hfile : fs.kind? path = some (.file content)) (h : Snapshot.ofBytes content = .ok snapshot) :
    ∃ j, Jurisdiction.ofFile fs path shown = .ok j ∧
      j.source = snapshot.insurance.map fun _ => .file path shown := by
  rw [Jurisdiction.ofFile, readSnapshot_of_file hfile, h]
  exact ⟨_, rfl, rfl⟩

/-- **A jurisdiction with a file answers as one with the lines in memory.** When the file holds the
lines of `held`, it opens with insurance, and every entity gets what memory has for it, nothing where
it is unknown. When the content of the file is replaced between requests, every answer is that of the
content which is there at the request, or the failure to decode it, whatever was there before, while
the jurisdiction stays what it was when it was opened. -/
theorem file_refines_memory (path : Path) (shown : String) :
    (∀ fs content held, Snapshot.Proper held → Snapshot.Holds content held →
      fs.kind? path = some (.file content) →
        (∃ j, Jurisdiction.ofFile fs path shown = .ok j ∧ j.source = some (.file path shown)) ∧
          ∀ entity, (InsuranceSource.file path shown).answer? fs entity =
              (InsuranceSource.fixed held).answer? fs entity ∧
            (entity ∉ held.keys →
              (InsuranceSource.file path shown).answer? fs entity = some (.ok []))) ∧
      ∀ fs content j, fs.kind? path = some (.file content) →
        Jurisdiction.ofFile fs path shown = .ok j →
          (∃ s, Snapshot.ofBytes content = .ok s ∧
            j.source = s.insurance.map fun _ => .file path shown) ∧
            ∀ events, (run path ⟨fs, j, []⟩ events).jurisdiction = j ∧
              (run path ⟨fs, j, []⟩ events).answers =
                (answersOf shown content events).map (fun a => j.source.bind fun _ => a) ∧
              ∀ content' later,
                (run path ⟨fs, j, []⟩ (events ++ .replace content' :: later)).answers =
                  (run path ⟨fs, j, []⟩ events).answers ++
                    (answersOf shown content' later).map fun a => j.source.bind fun _ => a := by
  refine ⟨fun fs content held hheld hholds hfile => ?_, fun fs content j hfile hopen => ?_⟩
  · obtain ⟨s, hs, hinsurance⟩ := Snapshot.ofBytes_of_holds hheld hholds
    have hanswer (entity : String) : (InsuranceSource.file path shown).answer? fs entity =
        some (.ok (fixedLines held entity)) := by
      rw [answer?_file hfile, answerOf, hs]
      simp only [hinsurance, Option.getD_some]
      rfl
    refine ⟨?_, fun entity => ⟨hanswer entity, fun hunknown => ?_⟩⟩
    · obtain ⟨j, hj, hsource⟩ := exists_open shown hfile hs
      exact ⟨j, hj, by rw [hsource, hinsurance]; rfl⟩
    · rw [hanswer, fixedLines, Entries.get?_eq_none_iff.mpr hunknown]
      rfl
  · obtain ⟨s, hs, hsource⟩ := source_of_open hfile hopen
    have hfileSource : ∀ source ∈ j.source, source = .file path shown := by
      rw [hsource]
      simp
    have hanswers (events : List SnapshotEvent) : (run path ⟨fs, j, []⟩ events).answers =
        (answersOf shown content events).map fun a => j.source.bind fun _ => a :=
      answers_run (s := ⟨fs, j, []⟩) hfile hfileSource
    refine ⟨⟨s, hs, hsource⟩, fun events => ⟨jurisdiction_run, hanswers events, ?_⟩⟩
    intro content' later
    rw [hanswers, hanswers, answersOf_append_replace, List.map_append]

def oneLine : InsuranceLine :=
  ⟨"i1", 7, .ofDigits ['2', '5', '0'] (by decide), .ofDigits ['9', '9'] (by decide)⟩

/-- Lines of two entities, one of them under the key that numbers are told by. -/
def oneCovered : LinesByEntity := [("e1", [oneLine]), (numberKey, [])]

theorem proper_oneCovered : Snapshot.Proper oneCovered where
  keys := by decide
  tokens := by decide

/-- A file with these lines, and with fields besides them. -/
def snapshotFields : Entries Json :=
  [ ("note", .arr [.null]), ("insurance", (Snapshot.linesNode oneCovered).toJson), ("name", .null) ]

def snapshotContent : Cbor.Bytes := Text.toBytes (Json.obj snapshotFields).compact

theorem holds_snapshotContent : Snapshot.Holds snapshotContent oneCovered :=
  Snapshot.holds_compact
    ⟨⟨trivial, trivial⟩, Snapshot.valid_linesNode proper_oneCovered, trivial, trivial⟩ (by decide) rfl fun v hv => .inl (Option.some.inj hv).symm

/-- The file is cut short, and then it has no insurance any more. -/
def cutShort : List SnapshotEvent :=
  [ .request "e1", .request "e2", .replace (Text.toBytes "\x7b"), .request "e1",
    .replace (Text.toBytes "\x7b\x7d"), .request "e1" ]

theorem file_refines_memory_replaced :
    ∃ j, Jurisdiction.ofFile ⟨[(["a.json"], .file snapshotContent)]⟩ ["a.json"] "a.json" = .ok j ∧
      j.source.isSome = true ∧
        (run ["a.json"] ⟨⟨[(["a.json"], .file snapshotContent)]⟩, j, []⟩ cutShort).answers =
          [ some (.ok [oneLine]), some (.ok []),
            some (.error (.source ["decode jurisdiction file a.json"])), some (.ok []) ] := by
  obtain ⟨⟨j, hj, hsource⟩, hheld⟩ := (file_refines_memory ["a.json"] "a.json").1
    ⟨[(["a.json"], .file snapshotContent)]⟩ snapshotContent oneCovered proper_oneCovered
      holds_snapshotContent rfl
  obtain ⟨-, hrun⟩ := (file_refines_memory ["a.json"] "a.json").2
    ⟨[(["a.json"], .file snapshotContent)]⟩ snapshotContent j rfl hj
  -- The lines are not decoded once more: what the file answers is what memory has.
  have hanswer (entity : String) : answerOf "a.json" snapshotContent entity =
      some (.ok (fixedLines oneCovered entity)) :=
    (answer?_file rfl entity).symm.trans (hheld entity).1
  refine ⟨j, hj, by rw [hsource]; rfl, ?_⟩
  rw [(hrun cutShort).2.1, hsource]
  simp only [cutShort, answersOf, hanswer]
  decide +kernel

end SnapshotRun

end FrameScope
