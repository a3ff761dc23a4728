import FrameScope.Collection.ReplicaKey
import Mathlib.Data.List.Basic
import Mathlib.Data.List.FinRange
import Mathlib.Data.List.Induction
import Mathlib.Data.List.TakeWhile

/-!
# Replicas grouped by their entity

A key is divided at its first colon, so its entity has none (`ReplicaKey.divides`). The entities of a
list of pairs are those of its keys, in the order they first appear (`firstSeen_entityIds`), and the
pairs of one entity stand at the places whose keys have it (`groupAt`). Both walk the list on their
own, and yet every pair is in the group of exactly one of the entities (`entities_partition`).
-/

namespace FrameScope

/-! ### Keys -/

namespace ReplicaKey

/-- A key is its entity and its signer around a colon, or its entity alone; no entity has a colon. -/
structure Divides (key : String) (parts : ReplicaKey) : Prop where
  entity : separator ∉ parts.entity.toList
  joined : (∃ signer, parts.signer = some signer ∧ key = parts.entity ++ ":" ++ signer) ∨
    parts.signer = none ∧ parts.entity = key

theorem divides (key : String) : Divides key (ofText key) := by
  have hbefore : separator ∉ key.toList.takeWhile (· ≠ separator) := fun h => by
    simpa using List.mem_takeWhile_imp h
  have hkey := List.takeWhile_append_dropWhile (p := (· ≠ separator)) (l := key.toList)
  rw [ofText]
  split
  next hnone =>
    rw [hnone, List.append_nil] at hkey
    rw [hkey] at hbefore
    exact ⟨hbefore, .inr ⟨rfl, rfl⟩⟩
  next c signer hsome =>
    have hcolon : c = separator := by
      have hne : key.toList.dropWhile (· ≠ separator) ≠ [] := hsome ▸ List.cons_ne_nil c signer
      have hhead := List.head_dropWhile_not (· ≠ separator) hne
      simpa only [hsome, List.head_cons, decide_eq_false_iff_not, not_not] using hhead
    refine ⟨by rwa [String.toList_ofList], .inl ⟨_, rfl, ?_⟩⟩
    rw [hsome, hcolon] at hkey
    apply String.toList_injective
    simpa [separator] using hkey.symm

end ReplicaKey

theorem entityOf_eq (key : String) : entityOf key = (ReplicaKey.ofText key).entity := rfl

/-! ### Entities in order of appearance -/

/-- Strings are those of a list, in the order they first appear there. -/
structure FirstSeen (ids all : List String) : Prop where
  mem_iff : ∀ id, id ∈ ids ↔ id ∈ all
  ordered : ids.Pairwise fun x y => all.idxOf x < all.idxOf y

theorem FirstSeen.nodup {ids all : List String} (h : FirstSeen ids all) : ids.Nodup :=
  h.ordered.imp fun hlt heq => absurd (heq ▸ hlt) (Nat.lt_irrefl _)

theorem FirstSeen.concat {ids all : List String} (h : FirstSeen ids all) (id : String) :
    FirstSeen (if id ∈ ids then ids else ids ++ [id]) (all ++ [id]) := by
  have hplace : ∀ x ∈ ids, (all ++ [id]).idxOf x = all.idxOf x := fun x hx =>
    List.idxOf_append_of_mem ((h.mem_iff x).mp hx)
  have hordered : ids.Pairwise fun x y => (all ++ [id]).idxOf x < (all ++ [id]).idxOf y :=
    h.ordered.imp_of_mem fun hx hy hlt => by rwa [hplace _ hx, hplace _ hy]
  split
  next hmem =>
    refine ⟨fun x => ?_, hordered⟩
    have hseen := (h.mem_iff id).mp hmem
    rw [List.mem_append, List.mem_singleton, h.mem_iff, or_iff_left_of_imp fun heq => heq ▸ hseen]
  next hnew =>
    have hlast : (all ++ [id]).idxOf id = all.length := by
      rw [List.idxOf_append_of_notMem (mt (h.mem_iff id).mpr hnew), List.idxOf_cons_self]
      rfl
    refine ⟨fun x => ?_, List.pairwise_append.mpr ⟨hordered, List.pairwise_singleton _ _, ?_⟩⟩
    · rw [List.mem_append, List.mem_append, h.mem_iff]
    · intro x hx y hy
      rw [List.mem_singleton.mp hy, hplace x hx, hlast]
      exact List.idxOf_lt_length_of_mem ((h.mem_iff x).mp hx)

variable {α : Type u}

theorem entityIds_concat (pairs : List (String × α)) (p : String × α) : entityIds (pairs ++ [p]) =
    if (ReplicaKey.ofText p.1).entity ∈ entityIds pairs then entityIds pairs
    else entityIds pairs ++ [(ReplicaKey.ofText p.1).entity] := by
  rw [entityIds, List.foldl_append, List.foldl_cons, List.foldl_nil, ← entityIds, entityOf_eq]

/-- **The entities are listed in the order they first appear.** -/
theorem firstSeen_entityIds (pairs : List (String × α)) :
    FirstSeen (entityIds pairs) (pairs.map fun p => (ReplicaKey.ofText p.1).entity) := by
  induction pairs using List.reverseRecOn with
  | nil => exact ⟨fun _ => Iff.rfl, List.Pairwise.nil⟩
  | append_singleton pairs p ih =>
    rw [entityIds_concat, List.map_append, List.map_singleton]
    exact ih.concat (ReplicaKey.ofText p.1).entity

/-! ### The pairs of an entity -/

/-- The places of a list of pairs whose keys have an entity. -/
def placesOf (pairs : List (String × α)) (entity : String) : List (Fin pairs.length) :=
  (List.finRange pairs.length).filter fun i => (ReplicaKey.ofText (pairs.get i).1).entity = entity

/-- The pairs of an entity are those at certain places, taken in order: all where a key has it. -/
structure GroupAt (pairs : List (String × α)) (entity : String) (places : List (Fin pairs.length)) :
    Prop where
  increasing : places.Pairwise (· < ·)
  mem_iff : ∀ i, i ∈ places ↔ (ReplicaKey.ofText (pairs.get i).1).entity = entity
  taken : replicasOf pairs entity = places.map pairs.get

theorem groupAt (pairs : List (String × α)) (entity : String) :
    GroupAt pairs entity (placesOf pairs entity) := by
  refine ⟨(List.pairwise_lt_finRange _).filter _, fun i => ?_, ?_⟩
  · rw [placesOf, List.mem_filter, decide_eq_true_iff]
    exact and_iff_right (List.mem_finRange i)
  · have hfilter := List.filter_map
      (p := fun p : String × α => decide ((ReplicaKey.ofText p.1).entity = entity))
      (f := pairs.get) (l := List.finRange pairs.length)
    rw [List.map_get_finRange] at hfilter
    exact hfilter

theorem replicasOf_ne_nil_iff {pairs : List (String × α)} {entity : String} :
    replicasOf pairs entity ≠ [] ↔ entity ∈ entityIds pairs := by
  rw [(firstSeen_entityIds pairs).mem_iff, replicasOf, ne_eq, List.filter_eq_nil_iff, List.mem_map]
  simp [← entityOf_eq]

/-- **Grouping pairs by their entity is a partition of them**: the entities are listed once each, in
the order they first appear, and every place is in the group of exactly one of them. A group has the
pairs of its entity in order, and some for the listed entities only. -/
theorem entities_partition (pairs : List (String × α)) (key : String) :
    (entityIds pairs).Nodup ∧
      FirstSeen (entityIds pairs) (pairs.map fun p => (ReplicaKey.ofText p.1).entity) ∧
      (∀ entity, GroupAt pairs entity (placesOf pairs entity)) ∧
      (∀ entity, replicasOf pairs entity ≠ [] ↔ entity ∈ entityIds pairs) ∧
      (∀ i : Fin pairs.length, ∃! entity, entity ∈ entityIds pairs ∧ i ∈ placesOf pairs entity) ∧
      ReplicaKey.Divides key (ReplicaKey.ofText key) := by
  refine ⟨(firstSeen_entityIds pairs).nodup, firstSeen_entityIds pairs, groupAt pairs,
    fun _ => replicasOf_ne_nil_iff, fun i => ?_, ReplicaKey.divides key⟩
  refine ⟨(ReplicaKey.ofText (pairs.get i).1).entity, ⟨?_, ?_⟩, fun entity h => ?_⟩
  · rw [(firstSeen_entityIds pairs).mem_iff, List.mem_map]
    exact ⟨pairs.get i, List.get_mem pairs i, rfl⟩
  · exact ((groupAt pairs _).mem_iff i).mpr rfl
  · exact (((groupAt pairs entity).mem_iff i).mp h.2).symm

/-- Three replicas of "E2" around one of "E1", and keys with no colon and with nothing before it. -/
def mixedPairs : List (String × Nat) :=
  [("E2:a", 1), ("E1:a", 2), ("E2:b:c", 3), ("legacy", 4), (":a", 5), ("E2", 6)]

/-- The first colon counts, and a key without one is in the group of the entity that it is. -/
theorem entities_partition_mixedPairs :
    entityIds mixedPairs = ["E2", "E1", "legacy", ""] ∧
      replicasOf mixedPairs "E2" = [("E2:a", 1), ("E2:b:c", 3), ("E2", 6)] ∧
      replicasOf mixedPairs "legacy" = [("legacy", 4)] ∧ replicasOf mixedPairs "a" = [] ∧
      (∃! entity, entity ∈ entityIds mixedPairs ∧ ⟨5, by decide⟩ ∈ placesOf mixedPairs entity) ∧
      ReplicaKey.Divides "E2:b:c" ⟨"E2", some "b:c"⟩ := by
  obtain ⟨-, -, hgroup, hsome, hone, hdivides⟩ := entities_partition mixedPairs "E2:b:c"
  have hids : entityIds mixedPairs = ["E2", "E1", "legacy", ""] := by decide +kernel
  have hnone : "a" ∉ entityIds mixedPairs := by simp [hids]
  refine ⟨hids, ?_, ?_, ?_, hone _, hdivides⟩
  · exact (hgroup "E2").taken.trans (by decide +kernel)
  · exact (hgroup "legacy").taken.trans (by decide +kernel)
  · exact not_not.mp (mt (hsome "a").mp hnone)

end FrameScope
