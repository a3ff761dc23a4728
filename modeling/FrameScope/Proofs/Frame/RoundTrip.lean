import FrameScope.Proofs.Collection.RoundTrip
import FrameScope.Proofs.Frame.Loggable

/-!
# Frames written and read again

What a text yields of a frame's parts returns from the text they are written as, from the inside out
(`Account.restores`, …, `Frame.restores`), and so does the frame (`Frame.decode_wire`). A record
opens no more than a few containers of its own, so but for those its text is no deeper than the one
it was read from.
-/

namespace FrameScope

open Node Carriage

open Keyed (restores_keyed roundTrips_empty)

/-! ### Parts -/

theorem Account.restores : Restores Account 3 := by
  intro m n node a hnode h
  obtain ⟨level, hlevel⟩ : ∃ level, max n 3 = level + 2 := ⟨max n 3 - 2, by omega⟩
  have ha : a.Parts (RoundTrips (level + 1)) (RoundTrips level) := by
    refine parts_of_read (fun _ hv => hv.parts) ?deltas (roundTrips_empty level) ?items hnode.parts h
    case deltas => exact (restores_keyed restores_json).reads (by omega)
    case items => exact restores_json.reads (by omega)
  rw [hlevel]
  exact brings ha.height ha.deltas ha.mempool

theorem Replica.restores : Restores Replica 6 := by
  intro m n node r hnode h
  obtain ⟨level, hlevel⟩ : ∃ level, max n 6 = level + 2 := ⟨max n 6 - 2, by omega⟩
  have hr : r.Parts (RoundTrips (level + 1)) (RoundTrips (level + 1)) (RoundTrips level) := by
    refine parts_of_read (fun _ hv => hv.parts) ?reserves (roundTrips_empty level) ?accounts
      (roundTrips_empty level) ?items hnode.parts h
    case reserves => exact (restores_keyed restores_amount).reads (by omega)
    case accounts => exact (restores_keyed Account.restores).reads (by omega)
    case items => exact restores_json.reads (by omega)
  rw [hlevel]
  exact brings hr.height hr.reserves hr.accounts hr.mempool hr.insuranceLines hr.debts

theorem Machine.restores : Restores Machine 2 := by
  intro m n node x hnode h
  obtain ⟨level, hlevel⟩ : ∃ level, max n 2 = level + 2 := ⟨max n 2 - 2, by omega⟩
  have hx : x.Parts (RoundTrips level) :=
    parts_of_read (fun _ hv => hv.parts) (restores_json.reads (by omega)) hnode.parts h
  rw [hlevel]
  exact brings hx.chain hx.block hx.entities

theorem LogEntry.restores : Restores LogEntry 1 := by
  intro m n node e hnode h
  obtain ⟨level, hlevel⟩ : ∃ level, max n 1 = level + 1 := ⟨max n 1 - 1, by omega⟩
  have hdata : ∀ v ∈ e.data, RoundTrips level v ∧ v ≠ .null := by
    refine data_of_read (fun held v hheld hv => ⟨?value, ?there⟩) hnode.parts h
    case value => exact restores_json.reads (by omega) held v hheld.1 hv
    case there => exact fun hnull => hheld.2 (hheld.1.eq_null_of_json (hnull ▸ hv))
  rw [hlevel]
  exact brings hdata

theorem StepInput.restores : Restores StepInput 2 := by
  intro m n node i hnode h
  obtain ⟨level, hlevel⟩ : ∃ level, max n 2 = level + 2 := ⟨max n 2 - 2, by omega⟩
  have hi : i.Parts (RoundTrips level) :=
    parts_of_read (fun _ hv => hv.parts) (restores_json.reads (by omega)) hnode.parts h
  rw [hlevel]
  exact brings hi.transactions hi.entityInputs

/-! ### Frames -/

namespace Frame

/-- The deepest containers of a frame's own are nine: the frame, its replicas, a pair of them, the
replica, its accounts, a pair of them, the account, its deltas and a pair of them. -/
theorem restores : Restores Frame 9 := by
  intro m n node f hnode h
  obtain ⟨level, hlevel⟩ : ∃ level, max n 9 = level + 5 := ⟨max n 9 - 5, by omega⟩
  have hf : f.Parts (RoundTrips (level + 4)) (RoundTrips (level + 4)) (RoundTrips (level + 3))
      (RoundTrips (level + 4)) (RoundTrips (level + 3)) := by
    refine parts_of_read (fun _ hv => hv.parts) ?replicas ?machines ?logs ?input ?outputs
      hnode.parts h
    case replicas => exact (restores_keyed Replica.restores).reads (by omega)
    case machines => exact (restores_keyed Machine.restores).reads (by omega)
    case logs => exact LogEntry.restores.reads (by omega)
    case input => exact StepInput.restores.reads (by omega)
    case outputs => exact restores_json.reads (by omega)
  have hbrings := brings hf.height hf.timestamp (g := fun c => c) (h := fun c => c) hf.replicas
    hf.machines hf.logs hf.input hf.outputs
  rw [Option.map_id', Option.map_id'] at hbrings
  rw [hlevel]
  exact hbrings

/-- **A frame that a text yields is yielded by the text it is written as**, when no name is repeated
in the text and none is the number key. -/
theorem decode_wire {cs : List Char} {f : Frame}
    (hdistinct : (Document.ofChars cs).root.distinctNames = true)
    (hnumberless : (Document.ofChars cs).root.hasKey Read.numberKey = false)
    (h : (Document.ofChars cs).decode Coded.read = .ok f) :
    (Document.ofChars (Coded.wire f).toList).decode Coded.read = .ok f := by
  have htrip : RoundTrips (max JsonText.maxDepth 9) f :=
    restores _ _ _ _ (Origin.root hdistinct hnumberless) (Document.read_of_decode h)
  have hdepth : max JsonText.maxDepth 9 = JsonText.maxDepth := by decide
  rw [hdepth] at htrip
  rw [Coded.toList_wire]
  exact decode_of_brings htrip

/-- Replicas of which one does not decode, machines as pairs under their other name, a log entry as
a list, and untyped numbers in spellings of their own. -/
def mixedText : List Char :=
  ("\x7b\"height\":7,\"replicas\":\x7b\"a:s\":[\"a\",\"s\",1,\x7b\"1\":1e400\x7d],\"b\":true\x7d," ++
    "\"xlnomies\":[[\"m\",\x7b\x7d],[\"m\",[\"n\",null,2]]]," ++
    "\"logs\":[[\"info\",\"ui\",\"x\",null,[1.50]]],\"runtimeOutputs\":[-0,1E2]\x7d").toList

theorem decode_wire_mixedText :
    (Document.ofChars mixedText).root.distinctNames = true ∧
      (Document.ofChars mixedText).root.hasKey Read.numberKey = false ∧
        ∃ f : Frame, (Document.ofChars mixedText).decode Coded.read = .ok f ∧
          f.outputs.map Json.compact = ["-0", "1e+2"] ∧
            (Document.ofChars (Coded.wire f).toList).decode Coded.read = .ok f := by
  have hall : (Document.ofChars mixedText).root.distinctNames = true ∧
      (Document.ofChars mixedText).root.hasKey Read.numberKey = false ∧
        ((Document.ofChars mixedText).decode (Coded.read (α := Frame))).toOption.map
          (fun f => f.outputs.map Json.compact) = some ["-0", "1e+2"] := by
    decide +kernel
  obtain ⟨hdistinct, hnumberless, houtputs⟩ := hall
  obtain ⟨f, hf, hspelled⟩ := Option.map_eq_some_iff.mp houtputs
  have hread := toOption_eq_some_iff.mp hf
  exact ⟨hdistinct, hnumberless, f, hread, hspelled, decode_wire hdistinct hnumberless hread⟩

end Frame

end FrameScope
