import FrameScope.Proofs.Json.Pretty
import FrameScope.Proofs.Node.Loggable
import FrameScope.Proofs.Node.Settled

/-!
# Documents carried by a text

The tree of a written text is the document with every integer spelled (`Node.spelled`). What is held
back of it has integers again, where 64 bits hold them, and the one-entry map of its spelling for
every other number (`Node.kept`). Words and untyped values are read from both, so a text is a way of
documents (`Carriage.text`), as long as no more containers stand in one another than may be open
(`Node.Fits`): `decode_of_brings`.
-/

namespace FrameScope

/-! ### The forms of a written document -/

namespace Node

mutual

/-- A document with its numbers in another form. -/
def withNumbers (int : Int → Node) (num : Number → Node) : Node → Node
  | .int i => int i
  | .num n => num n
  | .seq vs => .seq (withNumbersItems int num vs)
  | .map es => .map (withNumbersEntries int num es)
  | node => node

def withNumbersItems (int : Int → Node) (num : Number → Node) : List Node → List Node
  | [] => []
  | v :: vs => withNumbers int num v :: withNumbersItems int num vs

def withNumbersEntries (int : Int → Node) (num : Number → Node) :
    List (Key × Node) → List (Key × Node)
  | [] => []
  | (k, v) :: es => (k, withNumbers int num v) :: withNumbersEntries int num es

end

variable {int : Int → Node} {num : Number → Node}

theorem withNumbersItems_eq_map (vs : List Node) :
    withNumbersItems int num vs = vs.map (withNumbers int num) := by
  induction vs with
  | nil => rfl
  | cons v vs ih => rw [withNumbersItems, ih, List.map_cons]

theorem withNumbersEntries_eq_map (es : List (Key × Node)) :
    withNumbersEntries int num es = es.map fun e => (e.1, withNumbers int num e.2) := by
  induction es with
  | nil => rfl
  | cons e es ih => rw [withNumbersEntries, ih, List.map_cons]

theorem form_withNumbers (hint : ∀ i, int i ≠ .null) (hnum : ∀ n, num n ≠ .null) :
    Form (withNumbers int num) where
  null := rfl
  bool _ := rfl
  text _ := rfl
  seq vs := by rw [withNumbers, withNumbersItems_eq_map]
  map es := by rw [withNumbers, withNumbersEntries_eq_map]
  eq_null {node} h := by
    cases node with
    | int i => exact absurd h (hint i)
    | num n => exact absurd h (hnum n)
    | null => rfl
    | _ => simp [withNumbers] at h

/-- A document as a text spells it. -/
def spelled : Node → Node := withNumbers (fun i => .num (Number.ofInt i)) .num

/-- What is held back of a number that a text spells. -/
def keptNumber (n : Number) : Node :=
  match n.int64? with
  | some i => if i = 0 ∧ n.negative then Read.opaqueNumber n else .int i
  | none => Read.opaqueNumber n

/-- What is held back of a document that a text spells. -/
def kept : Node → Node := withNumbers .int keptNumber

theorem form_spelled : Form spelled := form_withNumbers (fun _ => nofun) fun _ => nofun

theorem keptNumber_cases (n : Number) :
    keptNumber n = Read.opaqueNumber n ∨
      ∃ i, n.int64? = some i ∧ ¬ (i = 0 ∧ n.negative = true) ∧ keptNumber n = .int i := by
  unfold keptNumber
  split
  · rename_i i hi
    split
    · exact .inl rfl
    · rename_i hzero
      exact .inr ⟨i, hi, hzero, rfl⟩
  · exact .inl rfl

theorem form_kept : Form kept := by
  refine form_withNumbers (fun _ => nofun) fun n => ?_
  obtain h | ⟨i, -, -, h⟩ := keptNumber_cases n
  · rw [h]
    nofun
  · rw [h]
    nofun

end Node

/-! ### Reading the forms -/

namespace Read

open Node Json

variable {m : Medium}

theorem bufferNumber_eq_kept (hm : m ≠ .value) (n : Number) :
    bufferNumber m n = .ok (keptNumber n) := by
  unfold bufferNumber keptNumber
  split
  · exact absurd rfl hm
  · rcases n.int64? with _ | i
    · rfl
    · show (if _ then _ else _) = Except.ok (if _ then _ else _)
      rw [apply_ite Except.ok]

theorem json_keptNumber {n : Number} (hn : n.Valid) : json m (keptNumber n) = .ok (.num n) := by
  obtain h | ⟨i, hi, hzero, h⟩ := keptNumber_cases n
  · rw [h, json_opaqueNumber hn]
  · rw [h, json, Number.ofInt_of_toInt? hn (toInt?_of_int64? hi) hzero]

theorem int64?_ofInt {i : Int} (hpos : 0 ≤ i) (hsize : i < Word.size) :
    (Number.ofInt i).int64? = some i := by
  rw [Number.int64?, Number.toInt?_ofInt]
  exact if_pos (.inr ⟨hpos, hsize⟩)

theorem toNat?_ofInt (n : Nat) : (Number.ofInt n).toNat? = some n := by
  simp [Number.toNat?, Number.ofInt, Number.isInteger, Decimal.value_ofNat]

theorem word_spelled {n : Nat} (h : n < Word.size) : word m (Node.int n).spelled = .ok n := by
  show wordOfNumber m (Number.ofInt n) = .ok n
  rw [wordOfNumber, toNat?_ofInt]
  exact if_pos h

theorem holds_spelled : Holds .text spelled kept where
  arrives := form_spelled
  stays := form_kept
  int {i} hpos hsize := by
    show bufferNumber .text (Number.ofInt i) = .ok (.int i)
    have hnegative : ¬ (i = 0 ∧ (Number.ofInt i).negative = true) := by
      simp [Number.ofInt, hpos]
    rw [bufferNumber_eq_kept (by decide), keptNumber, int64?_ofInt hpos hsize]
    exact congrArg _ (if_neg hnegative)
  num n := by
    show bufferNumber .text n = .ok (keptNumber n)
    exact bufferNumber_eq_kept (by decide) n

theorem holds_kept : Holds .buffered kept kept where
  arrives := form_kept
  stays := form_kept
  int hpos hsize := buffer_int_of_int64? (int64?_ofInt hpos hsize)
  num n := by
    show buffer .buffered (keptNumber n) = .ok (keptNumber n)
    obtain h | ⟨i, hi, -, h⟩ := keptNumber_cases n
    · rw [h]
      simp [opaqueNumber, buffer, bufferEntries, Except.map]
    · rw [h]
      exact buffer_int_of_int64? hi

end Read

/-! ### Depth -/

namespace Node

open Json

/-- Written out, the document has at most so many containers in one another. -/
structure Fits (level : Nat) (node : Node) : Prop where
  valid : node.toJson.Valid
  nesting : node.toJson.nesting ≤ level

theorem Fits.mono {level level' : Nat} {node : Node} (hlevel : level ≤ level')
    (h : node.Fits level) : node.Fits level' := ⟨h.valid, h.nesting.trans hlevel⟩

theorem fits_seq {level : Nat} {vs : List Node} (hvs : ∀ v ∈ vs, v.Fits level) :
    (Node.seq vs).Fits (level + 1) := by
  have hitems : ValidItems (toJsonItems vs) ∧ Json.nestingItems (toJsonItems vs) ≤ level := by
    induction vs with
    | nil => exact ⟨trivial, Nat.zero_le _⟩
    | cons v vs ih =>
      obtain ⟨hv, hrest⟩ := List.forall_mem_cons.mp hvs
      obtain ⟨hvalid, hnesting⟩ := ih hrest
      exact ⟨⟨hv.valid, hvalid⟩, Nat.max_le.mpr ⟨hv.nesting, hnesting⟩⟩
  exact ⟨hitems.1, Nat.succ_le_succ hitems.2⟩

theorem fits_map {level : Nat} {es : List (Key × Node)} (hes : ∀ e ∈ es, e.2.Fits level) :
    (Node.map es).Fits (level + 1) := by
  have hfields : ValidFields (toJsonFields es) ∧ Json.nestingFields (toJsonFields es) ≤ level := by
    induction es with
    | nil => exact ⟨trivial, Nat.zero_le _⟩
    | cons e es ih =>
      obtain ⟨k, v⟩ := e
      obtain ⟨hv, hrest⟩ := List.forall_mem_cons.mp hes
      obtain ⟨hvalid, hnesting⟩ := ih hrest
      cases k with
      | name s => exact ⟨⟨hv.valid, hvalid⟩, Nat.max_le.mpr ⟨hv.nesting, hnesting⟩⟩
      | _ => exact ⟨hvalid, hnesting⟩
  exact ⟨hfields.1, Nat.succ_le_succ hfields.2⟩

mutual

theorem ofJson_toJson_of_writable : ∀ {node : Node}, node.Writable →
    ofJson node.toJson = node.spelled
  | .null, _ => rfl
  | .bool _, _ => rfl
  | .int _, _ => rfl
  | .num _, _ => rfl
  | .text _, _ => rfl
  | .seq _, hvs => congrArg Node.seq (ofJsonItems_toJsonItems_of_writable hvs)
  | .map _, hes => congrArg Node.map (ofJsonFields_toJsonFields_of_writable hes)

theorem ofJsonItems_toJsonItems_of_writable : ∀ {vs : List Node}, WritableItems vs →
    ofJsonItems (toJsonItems vs) =
      withNumbersItems (fun i => .num (Number.ofInt i)) .num vs
  | [], _ => rfl
  | _ :: _, hvs =>
    congrArg₂ List.cons (ofJson_toJson_of_writable hvs.1)
      (ofJsonItems_toJsonItems_of_writable hvs.2)

theorem ofJsonFields_toJsonFields_of_writable : ∀ {es : List (Key × Node)}, WritableEntries es →
    ofJsonFields (toJsonFields es) =
      withNumbersEntries (fun i => .num (Number.ofInt i)) .num es
  | [], _ => rfl
  | (_, _) :: _, ⟨⟨s, rfl⟩, hv, hes⟩ =>
    congrArg₂ (fun v rest => (Key.name s, v) :: rest) (ofJson_toJson_of_writable hv)
      (ofJsonFields_toJsonFields_of_writable hes)

end

mutual

theorem toJson_ofJson : ∀ v : Json, (ofJson v).toJson = v
  | .null => rfl
  | .bool _ => rfl
  | .num _ => rfl
  | .str _ => rfl
  | .arr vs => congrArg Json.arr (toJsonItems_ofJsonItems vs)
  | .obj fs => congrArg Json.obj (toJsonFields_ofJsonFields fs)

theorem toJsonItems_ofJsonItems : ∀ vs : List Json, toJsonItems (ofJsonItems vs) = vs
  | [] => rfl
  | v :: vs => congrArg₂ List.cons (toJson_ofJson v) (toJsonItems_ofJsonItems vs)

theorem toJsonFields_ofJsonFields : ∀ fs : List (String × Json),
    toJsonFields (ofJsonFields fs) = fs
  | [] => rfl
  | (k, v) :: fs =>
    congrArg₂ (fun v rest => (k, v) :: rest) (toJson_ofJson v) (toJsonFields_ofJsonFields fs)

end

theorem spelled_ofJson (v : Json) : (ofJson v).spelled = ofJson v := by
  rw [← ofJson_toJson_of_writable (writable_ofJson v), toJson_ofJson]

theorem fits_ofJson {level : Nat} {v : Json} (hv : v.Valid) (hnesting : v.nesting ≤ level) :
    (ofJson v).Fits level := by
  constructor
  · rwa [toJson_ofJson]
  · rwa [toJson_ofJson]

end Node

namespace Read

open Node Json JsonText

variable {m : Medium}

theorem buffer_ofJson (v : Json) : buffer .text (ofJson v) = .ok (ofJson v).kept := by
  have hspelled := buffer_form holds_spelled (writable_ofJson v)
  rwa [spelled_ofJson] at hspelled

mutual

theorem nesting_le_of_buffer : ∀ {v : Json} {level : Nat} {held : Node},
    buffer m (treeOf level v) = .ok held → v.nesting ≤ level
  | .null, _, _, _ => Nat.zero_le _
  | .bool _, _, _, _ => Nat.zero_le _
  | .num _, _, _, _ => Nat.zero_le _
  | .str _, _, _, _ => Nat.zero_le _
  | .arr _, 0, _, h => by simp [treeOf, atLevel, buffer] at h
  | .arr _, level + 1, _, h => by
    rw [treeOf, atLevel, if_neg (Nat.succ_ne_zero level), buffer] at h
    obtain ⟨_, hhs, -⟩ := except_map_eq_ok h
    exact Nat.succ_le_succ (nestingItems_le_of_buffer hhs)
  | .obj _, 0, _, h => by simp [treeOf, atLevel, buffer] at h
  | .obj _, level + 1, _, h => by
    rw [treeOf, atLevel, if_neg (Nat.succ_ne_zero level), buffer] at h
    obtain ⟨_, hhs, -⟩ := except_map_eq_ok h
    exact Nat.succ_le_succ (nestingFields_le_of_buffer hhs)

theorem nestingItems_le_of_buffer : ∀ {vs : List Json} {level : Nat} {hs : List Node},
    bufferItems m (treeItems level vs) = .ok hs → Json.nestingItems vs ≤ level
  | [], _, _, _ => Nat.zero_le _
  | v :: vs, _, _, h => by
    obtain ⟨_, _, hv, hvs, -⟩ := bufferItems_cons_eq_ok.mp h
    exact Nat.max_le.mpr ⟨nesting_le_of_buffer hv, nestingItems_le_of_buffer hvs⟩

theorem nestingFields_le_of_buffer : ∀ {fs : List (String × Json)} {level : Nat}
    {hs : List (Key × Node)}, bufferEntries m (treeFields level fs) = .ok hs →
      Json.nestingFields fs ≤ level
  | [], _, _, _ => Nat.zero_le _
  | (_, v) :: fs, _, _, h => by
    obtain ⟨_, _, hv, hfs, -⟩ := bufferEntries_cons_eq_ok.mp h
    exact Nat.max_le.mpr ⟨nesting_le_of_buffer hv, nestingFields_le_of_buffer hfs⟩

end

end Read

open Node

/-! ### Texts as a way of documents -/

/-- Through a text a document arrives spelled, or held back from that. -/
def Carriage.text : Carriage where
  Arrives m carry := (m = .text ∧ carry = spelled) ∨ (m = .buffered ∧ carry = Node.kept)
  kept := Node.kept
  Passes level node := node.Writable ∧ node.Fits level
  form := by
    rintro m carry (⟨-, rfl⟩ | ⟨-, rfl⟩)
    · exact form_spelled
    · exact form_kept
  word := by
    rintro m carry n (⟨-, rfl⟩ | ⟨-, rfl⟩) hn
    · exact Read.word_spelled hn
    · exact Read.word_int hn m
  num := by
    rintro m carry n (⟨rfl, rfl⟩ | ⟨rfl, rfl⟩) hn
    · rfl
    · exact Read.json_keptNumber hn
  buffer := by
    rintro m carry level node (⟨rfl, rfl⟩ | ⟨rfl, rfl⟩) hpasses
    · exact Read.buffer_form Read.holds_spelled hpasses.1
    · exact Read.buffer_form Read.holds_kept hpasses.1
  arrives_kept := .inr ⟨rfl, rfl⟩
  passes_text := ⟨trivial, trivial, Nat.zero_le _⟩
  passes_word hn := ⟨writable_int hn, Number.valid_ofInt _, Nat.zero_le _⟩
  passes_seq hvs := ⟨writableItems_iff.mpr fun v hv => (hvs v hv).1, fits_seq fun v hv => (hvs v hv).2⟩
  passes_map hes :=
    ⟨writableEntries_iff.mpr fun e he => ⟨(hes e he).1, (hes e he).2.1⟩,
      fits_map fun e he => (hes e he).2.2⟩
  passes_mono hlevel h := ⟨h.1, h.2.mono hlevel⟩

namespace Carriage

variable {α : Type}

theorem passes_ofJson {level : Nat} {v : Json} (hv : v.Valid) (hnesting : v.nesting ≤ level) :
    text.Passes level (ofJson v) := ⟨writable_ofJson v, fits_ofJson hv hnesting⟩

theorem ofChars_of_passes {node : Node} (h : text.Passes JsonText.maxDepth node) :
    Document.ofChars node.toJson.compactChars = ⟨node.spelled, false⟩ := by
  obtain ⟨hwritable, hfits⟩ := h
  rw [Document.ofChars_written (Json.written_compact hfits.valid),
    JsonText.treeOf_of_le hfits.nesting, ofJson_toJson_of_writable hwritable]

/-- **What is brought by a text is decoded from it.** -/
theorem decode_of_brings {d : Decoder α} {node : Node} {x : α}
    (h : text.Brings JsonText.maxDepth d node x) :
    (Document.ofChars node.toJson.compactChars).decode d = .ok x := by
  have hread : d .text node.spelled = .ok x := h.read (.inl ⟨rfl, rfl⟩)
  rw [ofChars_of_passes h.passes, Document.decode, hread]
  rfl

end Carriage

theorem Coded.toList_wire {α : Type} [Coded α] (x : α) :
    (Coded.wire x).toList = (Coded.write x).toJson.compactChars := String.toList_ofList

end FrameScope
