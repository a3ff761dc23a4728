import FrameScope.Frame.Basic
import FrameScope.Proofs.Collection.Insert
import FrameScope.Proofs.Collection.Untyped
import FrameScope.Proofs.Node.Altered
import FrameScope.Proofs.Node.Reread

/-!
# Building frames in any encoding

A fresh replica returns from its encoding whatever its names are (`Replica.ofJson?_json_fresh`), a
machine when its entities stay as they are (`Machine.ofJson?_json_iff`). So the pairs that a frame
shows are built up the same way whatever its collections' encodings are, exactly when these accept the
key (`Frame.built_alike_iff`): pairs that have the key already do not.
-/

namespace FrameScope

open Node

/-! ### Values and their encodings -/

theorem Replica.ofJson?_json_fresh (entity signer : String) :
    Coded.ofJson? (Coded.json ({ entity := entity, signer := signer } : Replica)) =
      .ok ({ entity := entity, signer := signer } : Replica) := by
  have hheight : Read.word .value (Node.int (0 : Nat)).spelled = .ok 0 := Read.word_spelled (by decide)
  refine Read.recordEntries_of_slots (by decide) ?_
  exact .plain rfl rfl rfl (.plain rfl rfl rfl (.plain rfl rfl hheight (.plain rfl rfl rfl
    (.plain rfl rfl rfl (.skipped rfl (.skipped rfl (.skipped rfl (.nil _))))))))

namespace Machine

variable {x : Machine}

theorem ofJson_json (x : Machine) : ofJson (Coded.json x) =
    .map ((.name "name", .text x.name) :: ((x.chain.map fun n : Nat =>
      (Key.name "chainId", Node.num (Number.ofInt n))).toList ++
        (.name "blockNumber", .num (Number.ofInt x.block)) ::
          if x.entities = [] then [] else [(.name "entities", .seq (ofJsonItems x.entities))])) := by
  obtain ⟨name, chain, block, entities⟩ := x
  have hentities : toJsonItems (entities.map Coded.write) = entities := by
    have hitems := toJsonItems_ofJsonItems entities
    rwa [ofJsonItems_eq_map] at hitems
  have hwrite : Coded.write (⟨name, chain, block, entities⟩ : Machine) =
    write ⟨name, chain, block, entities⟩ := rfl
  rw [Coded.json, hwrite, write]
  cases entities with
  | nil => cases chain <;> rfl
  | cons v vs =>
    have hseq : ofJson (toJson (.seq ((v :: vs).map Coded.write))) = .seq (ofJsonItems (v :: vs)) := by
      rw [toJson, hentities, ofJson]
    rw [if_neg (List.cons_ne_nil v vs), ← hseq]
    cases chain <;> rfl

theorem ofJson?_json_eq_ok {es : List Json} (hchain : ∀ n ∈ x.chain, n < Word.size)
    (hblock : x.block < Word.size)
    (hes : Read.jsonItems .value (ofJsonItems x.entities) = .ok es) :
    Coded.ofJson? (Coded.json x) = .ok { x with entities := es } := by
  have hitems : Read.items Read.json .value (ofJsonItems x.entities) = .ok es :=
    Read.items_eq_ok_iff.mpr (Read.jsonItems_eq_ok_iff.mp hes)
  rw [Coded.ofJson?, ofJson_json]
  obtain ⟨name, chain, block, entities⟩ := x
  have hword : Read.word .value (.num (Number.ofInt block)) = .ok block := Read.word_spelled hblock
  have hlast : Read.Slots .value
      [.may "entities" (Read.list Read.json) fun x (m : Machine) => { m with entities := x }]
      (if entities = [] then [] else [(.name "entities", .seq (ofJsonItems entities))])
      ⟨name, chain, block, []⟩ ⟨name, chain, block, es⟩ := by
    split
    · rename_i hnil
      rw [hnil] at hitems
      obtain rfl := Except.ok.inj hitems
      exact .skipped rfl (.nil _)
    · exact .plain rfl rfl hitems (.nil _)
  refine Read.recordEntries_of_slots (by decide) (.plain rfl rfl rfl ?_)
  cases chain with
  | none => exact .skipped rfl (.plain rfl rfl hword hlast)
  | some n =>
    have hn : Read.word .value (.num (Number.ofInt n)) = .ok n := Read.word_spelled (hchain n rfl)
    have hsome : Read.option Read.word .value (.num (Number.ofInt n)) = .ok (some n) := by
      show (Read.word .value (.num (Number.ofInt n))).map some = .ok (some n)
      rw [hn]
      rfl
    exact .plain rfl rfl hsome (.plain rfl rfl hword hlast)

theorem exists_items_of_ofJson?_json {y : Machine} (h : Coded.ofJson? (Coded.json x) = .ok y) :
    ∃ es, Read.jsonItems .value (ofJsonItems x.entities) = .ok es := by
  by_cases hnil : x.entities = []
  · rw [hnil]
    exact ⟨[], rfl⟩
  · rw [Coded.ofJson?, ofJson_json, if_neg hnil] at h
    obtain ⟨set, hset⟩ := Read.exists_read_of_recordEntries h
      (e := (.name "entities", .seq (ofJsonItems x.entities))) (by simp) rfl
    obtain ⟨es, hes, -⟩ := except_map_eq_ok hset
    exact ⟨es, Read.jsonItems_eq_ok_iff.mpr (Read.items_eq_ok_iff.mp hes)⟩

/-- **A machine returns from its encoding exactly when its entities stay as they are.** -/
theorem ofJson?_json_iff (hchain : ∀ n ∈ x.chain, n < Word.size) (hblock : x.block < Word.size) :
    Coded.ofJson? (Coded.json x) = .ok x ↔ Json.StaysItems x.entities := by
  rw [← Read.jsonItems_ofJsonItems_value_iff]
  constructor
  · intro h
    obtain ⟨es, hes⟩ := exists_items_of_ofJson?_json h
    have hback := (ofJson?_json_eq_ok hchain hblock hes).symm.trans h
    have hsame : es = x.entities := congrArg entities (Except.ok.inj hback)
    rw [hes, hsame]
  · exact ofJson?_json_eq_ok hchain hblock

end Machine

/-! ### Frames -/

namespace Frame

open Keyed (placed)

variable {f g : Frame} {k : String}

theorem machinePairs_withMachine_iff {x : Machine} (hchain : ∀ n ∈ x.chain, n < Word.size)
    (hblock : x.block < Word.size) (hf : (f.machines.getD .empty).Distinct) :
    (f.withMachine k x).machinePairs = placed f.machinePairs k x ↔
      (f.machines.getD .empty).Accepts (Json.StaysItems x.entities) k :=
  Keyed.normalize_insert_iff hf (Machine.ofJson?_json_iff hchain hblock)

theorem replicaPairs_withReplica_iff {entity signer : String}
    (hf : (f.replicas.getD .empty).Distinct) :
    (f.withReplica k { entity := entity, signer := signer }).replicaPairs =
        placed f.replicaPairs k { entity := entity, signer := signer } ↔
      (f.replicas.getD .empty).Accepts True k :=
  Keyed.normalize_insert_iff hf (iff_of_true (Replica.ofJson?_json_fresh entity signer) trivial)

/-- **Two frames that show the same pairs are built up alike exactly when the collections of both
accept the key.** Then a value stands in the place of its key, or last under a new one, and all other
pairs stay. -/
theorem built_alike_iff :
    (∀ x : Machine, (∀ n ∈ x.chain, n < Word.size) → x.block < Word.size →
        (f.machines.getD .empty).Distinct → (g.machines.getD .empty).Distinct →
          f.machinePairs = g.machinePairs →
      (((f.withMachine k x).machinePairs = placed f.machinePairs k x ∧
          (g.withMachine k x).machinePairs = placed f.machinePairs k x) ↔
        (f.machines.getD .empty).Accepts (Json.StaysItems x.entities) k ∧
          (g.machines.getD .empty).Accepts (Json.StaysItems x.entities) k)) ∧
    ∀ entity signer : String,
        (f.replicas.getD .empty).Distinct → (g.replicas.getD .empty).Distinct →
          f.replicaPairs = g.replicaPairs →
      (((f.withReplica k { entity := entity, signer := signer }).replicaPairs =
            placed f.replicaPairs k { entity := entity, signer := signer } ∧
          (g.withReplica k { entity := entity, signer := signer }).replicaPairs =
            placed f.replicaPairs k { entity := entity, signer := signer }) ↔
        (f.replicas.getD .empty).Accepts True k ∧ (g.replicas.getD .empty).Accepts True k) := by
  constructor
  · intro x hchain hblock hf hg hsame
    rw [machinePairs_withMachine_iff hchain hblock hf, hsame,
      machinePairs_withMachine_iff hchain hblock hg]
  · intro entity signer hf hg hsame
    rw [replicaPairs_withReplica_iff hf, hsame, replicaPairs_withReplica_iff hg]

/-- Machines and replicas as maps. -/
def mapped : Frame where
  height := 1
  replicas := some (.map [("a:1", {})])
  machines := some (.map [("a", {}), ("b", {})])

/-- The same pairs in other encodings; one machine is none. -/
def mixed : Frame where
  height := 1
  replicas := some (.pairs [("a:1", {})])
  machines := some (.object [("a", .obj []), ("c", .bool true), ("b", .obj [])])

theorem built_alike_iff_mapped_mixed :
    ((mapped.withMachine "a" { block := 5, entities := [.null] }).machinePairs =
        [("a", { block := 5, entities := [.null] }), ("b", {})] ∧
      (mixed.withMachine "a" { block := 5, entities := [.null] }).machinePairs =
        [("a", { block := 5, entities := [.null] }), ("b", {})]) ∧
    (mapped.withReplica "b:1" { entity := "b", signer := "1" }).replicaPairs =
        [("a:1", {}), ("b:1", { entity := "b", signer := "1" })] ∧
      (mixed.withReplica "b:1" { entity := "b", signer := "1" }).replicaPairs =
        [("a:1", {}), ("b:1", { entity := "b", signer := "1" })] := by
  refine ⟨?machines, ?replicas⟩
  case machines =>
    have hmapped : (mapped.machines.getD .empty).Distinct := ⟨by decide, nofun⟩
    have hmixed : (mixed.machines.getD .empty).Distinct := by
      refine ⟨by decide +kernel, ?_⟩
      rintro _ ⟨⟩
      decide
    have hsame : mapped.machinePairs = mixed.machinePairs := rfl
    exact (built_alike_iff.1 { block := 5, entities := [.null] } nofun (by decide) hmapped hmixed
      hsame).mpr ⟨trivial, ⟨trivial, trivial⟩, .inl (by decide +kernel)⟩
  case replicas =>
    have hmapped : (mapped.replicas.getD .empty).Distinct := ⟨by decide, nofun⟩
    have hmixed : (mixed.replicas.getD .empty).Distinct := ⟨by decide, nofun⟩
    have hnew : "b:1" ∉ Entries.keys mixed.replicaPairs := by decide
    exact (built_alike_iff.2 "b" "1" hmapped hmixed rfl).mpr ⟨trivial, hnew⟩

/-- Frames that show the same pairs are not always built up alike: pairs hold a key twice when it is
put again. -/
theorem not_built_alike_pairs :
    ¬ ∀ (f g : Frame) (k : String) (x : Machine), f.machinePairs = g.machinePairs →
      (Entries.keys f.machinePairs).Nodup →
        (f.withMachine k x).machinePairs = placed f.machinePairs k x ∧
          (g.withMachine k x).machinePairs = placed f.machinePairs k x := by
  intro hclaim
  obtain ⟨-, hpairs⟩ := hclaim { height := 1, machines := some (.map [("a", {})]) }
    { height := 1, machines := some (.pairs [("a", {})]) } "a" { block := 5 } rfl (by decide)
  exact absurd (congrArg List.length hpairs) (by decide)

end Frame

end FrameScope
