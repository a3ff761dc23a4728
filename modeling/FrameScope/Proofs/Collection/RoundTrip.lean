import FrameScope.Proofs.Collection.Loggable
import FrameScope.Proofs.Node.Origin

/-!
# Keyed collections written and read again

`Restores α floor`: whatever is read as an `α` below a clean text returns from the text it is written
as, which opens no more containers than there were, or `floor` of them. Untyped values and amounts
do, and a collection does when its values do (`restores_keyed`): it is read again in the encoding it
had. An object kept as it is holds back the same document the second time, so its values do not
decode then either.
-/

namespace FrameScope

open Node Carriage

/-- A value that a text brings back, where so many containers may be opened. -/
abbrev RoundTrips {α : Type} [Coded α] (level : Nat) (x : α) : Prop :=
  text.Brings level Coded.read (Coded.write x) x

/-- What is read below a clean text returns from the text it is written as. -/
def Restores (α : Type) [Coded α] (floor : Nat) : Prop :=
  ∀ m level, Read.Reads m (Origin m level) (Coded.read (α := α)) (RoundTrips (max level floor))

theorem Restores.reads {α : Type} [Coded α] {m : Medium} {n level floor : Nat}
    (h : Restores α floor) (hlevel : max n floor ≤ level) :
    Read.Reads m (Origin m n) (Coded.read (α := α)) (RoundTrips level) := by
  intro node x hnode hx
  exact (h m n node x hnode hx).mono hlevel

theorem restores_json : Restores Json 0 := by
  intro m level node v hnode hv
  have hwithin := (hnode.json hv).1
  exact brings_json hwithin.sound (hwithin.passes (Nat.le_max_left ..))

theorem restores_amount : Restores Amount 0 := by
  intro m level node x _ _
  exact brings_amount x

namespace Keyed

variable {α : Type} [Coded α] {floor level : Nat} {held : Node}

theorem roundTrips_map (hvalue : Restores α floor) (hheld : Origin .buffered level held)
    {es : Entries α} (hes : Read.entries Coded.read .buffered held = .ok es) :
    RoundTrips (max level (floor + 2)) (.map es : Keyed α) := by
  obtain ⟨hkeys, hvalues⟩ := Read.entries_invariant (hvalue .buffered (level - 1)) hheld.parts hes
  have hmap := brings_map (g := fun x => x) hkeys fun e he => hvalues e he
  rw [List.map_id'] at hmap
  exact hmap.mono (by omega)

theorem roundTrips_pairs (hvalue : Restores α floor) (hheld : Origin .buffered level held)
    {ps : List (String × α)}
    (hps : Read.list (Read.pair Coded.read) .buffered held = .ok ps) :
    RoundTrips (max level (floor + 2)) (.pairs ps : Keyed α) := by
  have hvalues : ∀ p ∈ ps, RoundTrips (max (level - 1 - 1) floor) p.2 := by
    refine Read.list_invariant (fun v p hv hp => ?_) hheld.parts hps
    exact Read.pair_invariant (hvalue .buffered (level - 1 - 1)) hv.parts hp
  have hpairs := brings_pairs (g := fun x => x) fun p hp => hvalues p hp
  rw [List.map_id'] at hpairs
  exact hpairs.mono (by omega)

/-- An object kept as it is stays one: its values do not decode again. -/
theorem roundTrips_object (hheld : Origin .buffered level held) {e : DecodeError}
    (hes : Read.entries (Coded.read (α := α)) .buffered held = .error e) {fs : Entries Json}
    (hfs : Read.entries Read.json .buffered held = .ok fs) :
    RoundTrips (max level (floor + 2)) (.object fs : Keyed α) := by
  obtain ⟨hkeys, hvalues, heq⟩ := hheld.entries hfs
  have hcarried : Carried text (max level (floor + 2) - 1) fs :=
    ⟨hkeys, fun f hf => ⟨(hvalues f hf).sound, (hvalues f hf).passes (by omega)⟩⟩
  have hnot : ∀ es, Read.entries (Coded.read (α := α)) .buffered
      (text.kept (write (.object fs : Keyed α))) ≠ .ok es := by
    intro es h
    rw [heq] at hes
    exact absurd (hes.symm.trans h) nofun
  exact (brings_object hcarried hnot).mono (by omega)

/-- **A collection returns in the encoding it had.** -/
theorem restores_keyed (hvalue : Restores α floor) : Restores (Keyed α) (floor + 2) := by
  intro m level node c hnode h
  obtain ⟨held, hheld, hc⟩ := exists_firstFit_of_read h
  have hheld := hnode.buffer hheld
  cases hc with
  | map hes => exact roundTrips_map hvalue hheld hes
  | pairs hps => exact roundTrips_pairs hvalue hheld hps
  | object hes hfs => exact roundTrips_object hheld hes hfs

theorem roundTrips_empty (level : Nat) : RoundTrips (level + 1) (empty : Keyed α) :=
  brings_map (g := fun x => x) List.nodup_nil nofun

end Keyed

end FrameScope
