import FrameScope.Frame.Basic
import FrameScope.Proofs.Collection.Object
import FrameScope.Proofs.Node.Altered

/-!
# Frames with one more entry

An entry more in a frame's replicas or machines never keeps the frame from being read, whatever value
it has: the frame stays as it was but for that collection, which holds all names of the object and
shows some of them (`Frame.decode_of_added`).
-/

namespace FrameScope

open Node

namespace Keyed

variable {α : Type} [Coded α] {level : Nat} {es₁ es₂ : List (Key × Node)} {k : String} {w : Node}

theorem exists_read_added (htextual : (Node.map (es₁ ++ (.name k, w) :: es₂)).Textual level)
    (hkey : (Node.map (es₁ ++ (.name k, w) :: es₂)).hasKey Read.numberKey = false) {v : Json}
    (hw : Read.json .text w = .ok v) {c : Keyed α}
    (h : Keyed.read .text (.map (es₁ ++ es₂)) = .ok c) :
    ∃ c' : Keyed α, Keyed.read .text (.map (es₁ ++ (.name k, w) :: es₂)) = .ok c' := by
  have hsub : ∀ e ∈ es₁ ++ es₂, e ∈ es₁ ++ (.name k, w) :: es₂ := fun e he => by
    rw [List.mem_append] at he ⊢
    exact he.imp_right (List.mem_cons_of_mem _)
  have holdTextual : (Node.map (es₁ ++ es₂)).Textual level := by
    obtain ⟨hlevel, hall⟩ := textual_map_iff.mp htextual
    exact textual_map_iff.mpr ⟨hlevel, fun e he => hall e (hsub e he)⟩
  have holdKey : (Node.map (es₁ ++ es₂)).hasKey Read.numberKey = false :=
    hasKey_map_eq_false_iff.mpr fun e he => hasKey_map_eq_false_iff.mp hkey e (hsub e he)
  have hold := (exists_read_map_iff holdTextual holdKey).mp ⟨c, h⟩
  refine (exists_read_map_iff htextual hkey).mpr fun e he => ?_
  obtain hfront | hhere | hback : e ∈ es₁ ∨ e = (.name k, w) ∨ e ∈ es₂ := by simpa using he
  · exact hold e (List.mem_append_left _ hfront)
  · exact hhere ▸ ⟨⟨k, rfl⟩, v, hw⟩
  · exact hold e (List.mem_append_right _ hback)

end Keyed

namespace Frame

variable {cs cs' : List Char} {f : Frame} {es₁ es₂ : List (Key × Node)} {k : String} {w : Node}
  {v : Json}

/-- The field of a collection and the change of a frame that it stands for. -/
structure Holds (α : Type) [Coded α] (name : String) (set : Option (Keyed α) → Frame → Frame) :
    Prop where
  own : ∀ g ∈ fields, g.name = name → g.read = fun m node => (Read.option Keyed.read m node).map set
  others : ∀ g ∈ fields, g.name ≠ name → ∀ o, Read.Carries .text (fun s t => t = set o s) g
  last : ∀ o o' s, set o (set o' s) = set o s

theorem holds_replicas : Holds Replica "replicas" fun o s => { s with replicas := o } where
  own := by simp [fields, Field.may, Field.must, Field.orNamed]
  others := by
    simp only [fields, List.forall_mem_cons, List.not_mem_nil, false_implies, implies_true, and_true]
    refine ⟨?height, ?timestamp, ?replicas, ?machines, ?logs, ?input, ?outputs, ?gossip⟩
    case replicas => exact fun hname => absurd rfl hname
    all_goals exact fun _ o => Read.carries_of_commutes rfl fun x s => rfl
  last _ _ _ := rfl

theorem holds_machines : Holds Machine "jMachines" fun o s => { s with machines := o } where
  own := by simp [fields, Field.may, Field.must, Field.orNamed]
  others := by
    simp only [fields, List.forall_mem_cons, List.not_mem_nil, false_implies, implies_true, and_true]
    refine ⟨?height, ?timestamp, ?replicas, ?machines, ?logs, ?input, ?outputs, ?gossip⟩
    case machines => exact fun hname => absurd rfl hname
    all_goals exact fun _ o => Read.carries_of_commutes rfl fun x s => rfl
  last _ _ _ := rfl

theorem Holds.read {α : Type} [Coded α] {name : String} {set : Option (Keyed α) → Frame → Frame}
    (hholds : Holds α name set) {es : List (Key × Node)} {g : Field Frame} (hg : g ∈ fields)
    (hname : g.name = name) {upd : Frame → Frame} :
    g.read .text (.map es) = .ok upd ↔
      ∃ c : Keyed α, Keyed.read .text (.map es) = .ok c ∧ upd = set (some c) := by
  rw [hholds.own g hg hname]
  have hoption : (Read.option Keyed.read .text (.map es) : Except DecodeError (Option (Keyed α))) =
      (Keyed.read .text (.map es)).map some := Read.option_of_ne_null nofun
  simp only [hoption, except_map_eq_ok_iff]
  constructor
  · rintro ⟨_, ⟨c, hc, rfl⟩, rfl⟩
    exact ⟨c, hc, rfl⟩
  · rintro ⟨c, hc, rfl⟩
    exact ⟨some c, ⟨c, hc, rfl⟩, rfl⟩

/-- The second frame is the first with the collection that an object is read into. -/
def Regathered (α : Type) [Coded α] (es : List (Key × Node))
    (set : Option (Keyed α) → Frame → Frame) (s t : Frame) : Prop :=
  ∃ c : Keyed α, Keyed.read .text (.map es) = .ok c ∧ t = set (some c) s

theorem Holds.decode {α : Type} [Coded α] {name : String}
    {set : Option (Keyed α) → Frame → Frame} (hholds : Holds α name set)
    (hf : (Document.ofChars cs).decode Coded.read = .ok f)
    (hend : (Document.ofChars cs').trailing = false) (hw : Read.json .text w = .ok v)
    (hkey : (Document.ofChars cs').root.hasKey Read.numberKey = false)
    (hadded : Alters fields name (.map (es₁ ++ es₂)) (.map (es₁ ++ (.name k, w) :: es₂))
      (Document.ofChars cs).root (Document.ofChars cs').root) :
    ∃ c : Keyed α, (Document.ofChars cs').decode Coded.read = .ok (set (some c) f) ∧
      c.Lists (names (es₁ ++ (.name k, w) :: es₂)) := by
  have htextual := hadded.textual (Document.textual_root cs')
  have hkey' := hadded.hasKey hkey
  have hothers : ∀ g ∈ fields, g.name ≠ name →
      Read.Carries .text (Regathered α (es₁ ++ (.name k, w) :: es₂) set) g := by
    rintro g hg hname node upd hupd s t ⟨c, hc, hst⟩
    exact ⟨c, hc, hholds.others g hg hname (some c) node upd hupd s t hst⟩
  have hchanges : ∀ g ∈ fields, g.name = name →
      Read.Changes .text (Regathered α (es₁ ++ (.name k, w) :: es₂) set) (.map (es₁ ++ es₂))
        (.map (es₁ ++ (.name k, w) :: es₂)) g := by
    intro g hg hname upd hupd
    obtain ⟨c, hc, rfl⟩ := (hholds.read hg hname).mp hupd
    obtain ⟨c', hc'⟩ := Keyed.exists_read_added htextual hkey' hw hc
    refine ⟨set (some c'), (hholds.read hg hname).mpr ⟨c', hc', rfl⟩, fun s => ⟨c', hc', ?_⟩⟩
    exact (hholds.last _ _ s).symm
  obtain ⟨t, ht, c, hc, rfl⟩ := Read.record_of_alters (by decide) hothers hchanges hadded
    (Document.read_of_decode hf)
  exact ⟨c, Document.decode_eq_ok_iff.mpr ⟨ht, hend⟩, Keyed.lists_of_read htextual hc⟩

/-- **One entry more never keeps a frame from being read.** When an object of replicas or machines
gets an entry with any name and any untyped value, anywhere among its entries, the frame is read as
before but for that collection, which holds all names of the object in the order in which they first
appear. -/
theorem decode_of_added (hf : (Document.ofChars cs).decode Coded.read = .ok f)
    (hend : (Document.ofChars cs').trailing = false) (hw : Read.json .text w = .ok v)
    (hkey : (Document.ofChars cs').root.hasKey Read.numberKey = false) :
    (Alters fields "replicas" (.map (es₁ ++ es₂)) (.map (es₁ ++ (.name k, w) :: es₂))
        (Document.ofChars cs).root (Document.ofChars cs').root →
      ∃ c, (Document.ofChars cs').decode Coded.read = .ok { f with replicas := some c } ∧
        c.Lists (names (es₁ ++ (.name k, w) :: es₂))) ∧
      (Alters fields "jMachines" (.map (es₁ ++ es₂)) (.map (es₁ ++ (.name k, w) :: es₂))
          (Document.ofChars cs).root (Document.ofChars cs').root →
        ∃ c, (Document.ofChars cs').decode Coded.read = .ok { f with machines := some c } ∧
          c.Lists (names (es₁ ++ (.name k, w) :: es₂))) :=
  ⟨holds_replicas.decode hf hend hw hkey, holds_machines.decode hf hend hw hkey⟩

/-- A frame with two replicas, one of them no record. -/
def replicaText : List Char :=
  "\x7b\"height\":7,\"replicas\":\x7b\"b\":\x7b\x7d,\"a\":5\x7d\x7d".toList

/-- The same frame, the first name given again. -/
def replicaTextAdded : List Char :=
  "\x7b\"height\":7,\"replicas\":\x7b\"b\":\x7b\x7d,\"b\":[1e+400],\"a\":5\x7d\x7d".toList

/-- A frame by the order of its fields, with machines like these replicas. -/
def machineText : List Char := "[7,0,null,\x7b\"b\":\x7b\x7d,\"a\":5\x7d]".toList

/-- The same frame, the first name given again. -/
def machineTextAdded : List Char :=
  "[7,0,null,\x7b\"b\":\x7b\x7d,\"b\":[1e+400],\"a\":5\x7d]".toList

/-- The entry before the new one. -/
def entriesBefore : List (Key × Node) := [(.name "b", .map [])]

/-- The entry behind it. -/
def entriesBehind : List (Key × Node) := [(.name "a", .num ⟨false, ['5'], [], none⟩)]

/-- A number that no 64 bits hold. -/
def hugeNumber : Number := ⟨false, ['1'], [], some (false, ['4', '0', '0'])⟩

/-- These replicas or machines, with entries between the two. -/
def entriesJson (added : List (String × Json)) : Json :=
  .obj (("b", .obj []) :: (added ++ [("a", .ofNat 5)]))

theorem valid_entriesJson : (entriesJson []).Valid ∧
    (entriesJson [("b", .arr [.num hugeNumber])]).Valid := by
  have hfive : (Json.ofNat 5).Valid := Number.valid_ofInt 5
  have hhuge : hugeNumber.Valid := Number.valid_of_ofText?
    (show Number.ofText? "1e400".toList = some hugeNumber by decide +kernel)
  simp [entriesJson, Json.Valid, Json.ValidFields, Json.ValidItems, hfive, hhuge]

theorem root_of_compact {doc : Json} (hdoc : doc.Valid) (hcs : doc.compactChars = cs) :
    (Document.ofChars cs).root = JsonText.treeOf JsonText.maxDepth doc := by
  rw [← hcs, Document.ofChars_compact hdoc]

theorem alters_replicaText : Alters fields "replicas" (.map (entriesBefore ++ entriesBehind))
    (.map (entriesBefore ++ (.name "b", .seq [.num hugeNumber]) :: entriesBehind))
    (Document.ofChars replicaText).root (Document.ofChars replicaTextAdded).root := by
  have hvalid {v : Json} (hv : v.Valid) : (Json.obj [("height", .ofNat 7), ("replicas", v)]).Valid :=
    ⟨Number.valid_ofInt 7, hv, trivial⟩
  have hroot : (Document.ofChars replicaText).root =
      .map ([(.name "height", .num ⟨false, ['7'], [], none⟩)] ++
        [(.name "replicas", .map (entriesBefore ++ entriesBehind))]) :=
    root_of_compact (hvalid valid_entriesJson.1) (by decide +kernel)
  have hroot' : (Document.ofChars replicaTextAdded).root =
      .map ([(.name "height", .num ⟨false, ['7'], [], none⟩)] ++ [(.name "replicas",
        .map (entriesBefore ++ (.name "b", .seq [.num hugeNumber]) :: entriesBehind))]) :=
    root_of_compact (hvalid valid_entriesJson.2) (by decide +kernel)
  rw [hroot, hroot']
  exact .named rfl rfl

theorem alters_machineText : Alters fields "jMachines" (.map (entriesBefore ++ entriesBehind))
    (.map (entriesBefore ++ (.name "b", .seq [.num hugeNumber]) :: entriesBehind))
    (Document.ofChars machineText).root (Document.ofChars machineTextAdded).root := by
  have hvalid {v : Json} (hv : v.Valid) : (Json.arr [.ofNat 7, .ofNat 0, .null, v]).Valid :=
    ⟨Number.valid_ofInt 7, Number.valid_ofInt 0, trivial, hv, trivial⟩
  have hroot : (Document.ofChars machineText).root =
      .seq ([.num ⟨false, ['7'], [], none⟩, .num ⟨false, ['0'], [], none⟩, .null] ++
        [.map (entriesBefore ++ entriesBehind)]) :=
    root_of_compact (hvalid valid_entriesJson.1) (by decide +kernel)
  have hroot' : (Document.ofChars machineTextAdded).root =
      .seq ([.num ⟨false, ['7'], [], none⟩, .num ⟨false, ['0'], [], none⟩, .null] ++
        [.map (entriesBefore ++ (.name "b", .seq [.num hugeNumber]) :: entriesBehind)]) :=
    root_of_compact (hvalid valid_entriesJson.2) (by decide +kernel)
  rw [hroot, hroot']
  exact .placed rfl rfl

theorem decode_of_added_repeatedName :
    (∃ (f : Frame) (c : Keyed Replica), (Document.ofChars replicaText).decode Coded.read = .ok f ∧
      (Document.ofChars replicaTextAdded).decode Coded.read = .ok { f with replicas := some c } ∧
        c.Lists ["b", "a"]) ∧
    ∃ (f : Frame) (c : Keyed Machine), (Document.ofChars machineText).decode Coded.read = .ok f ∧
      (Document.ofChars machineTextAdded).decode Coded.read = .ok { f with machines := some c } ∧
        c.Lists ["b", "a"] := by
  refine ⟨?replicas, ?machines⟩
  case replicas =>
    have hf := eq_ok_of_isSome (r := (Document.ofChars replicaText).decode (Coded.read (α := Frame)))
      (by decide +kernel) default
    obtain ⟨c, hc, hlists⟩ := (decode_of_added hf (by decide +kernel) (v := .arr [.num hugeNumber])
      rfl (by decide +kernel)).1 alters_replicaText
    exact ⟨_, c, hf, hc, hlists⟩
  case machines =>
    have hf := eq_ok_of_isSome (r := (Document.ofChars machineText).decode (Coded.read (α := Frame)))
      (by decide +kernel) default
    obtain ⟨c, hc, hlists⟩ := (decode_of_added hf (by decide +kernel) (v := .arr [.num hugeNumber])
      rfl (by decide +kernel)).2 alters_machineText
    exact ⟨_, c, hf, hc, hlists⟩

end Frame

end FrameScope
