import FrameScope.Proofs.Collection.Object

/-!
# One more pair, in any encoding

An insertion is to put the value where its key is shown, or last when it is not shown yet
(`Keyed.placed`). A map does so always, pairs when the key is new, and an untyped object when the
value returns from its encoding and its key is shown already or stands behind all that is shown
(`Keyed.Accepts`); never otherwise (`Keyed.normalize_insert_iff`).
-/

namespace FrameScope

namespace Entries

variable {α : Type} {es fs : Entries α} {k : String} {w x : α}

theorem put_append_cons (hk : k ∉ es.keys) :
    put (es ++ (k, w) :: fs) k x = es ++ (k, x) :: fs := by
  induction es with
  | nil => rw [List.nil_append, put, if_pos rfl, List.nil_append]
  | cons e es ih =>
    rw [keys_cons, List.mem_cons, not_or] at hk
    rw [List.cons_append, put, if_neg (Ne.symm hk.1), ih hk.2, List.cons_append]

theorem exists_eq_append_cons (hkeys : es.keys.Nodup) (hk : k ∈ es.keys) :
    ∃ before w behind, es = before ++ (k, w) :: behind ∧ k ∉ keys before ∧ k ∉ keys behind := by
  obtain ⟨w, hw⟩ := mem_keys_iff.mp hk
  obtain ⟨before, behind, rfl⟩ := List.append_of_mem hw
  rw [keys_append, keys_cons, List.nodup_append] at hkeys
  refine ⟨before, w, behind, rfl, fun hmem => ?_, (List.nodup_cons.mp hkeys.2.1).1⟩
  exact hkeys.2.2 k hmem k List.mem_cons_self rfl

end Entries

namespace Keyed

variable {α : Type} {ps : List (String × α)} {k : String} {x : α}

/-- Pairs with a value in the place of its key, or at the end when the key is not there. -/
def placed (ps : List (String × α)) (k : String) (x : α) : List (String × α) :=
  if k ∈ Entries.keys ps then ps.map fun p => if p.1 = k then (k, x) else p else ps ++ [(k, x)]

theorem map_replace_of_not_mem (hk : k ∉ Entries.keys ps) :
    (ps.map fun p => if p.1 = k then (k, x) else p) = ps := by
  have hid : ∀ p ∈ ps, (if p.1 = k then (k, x) else p) = p := by
    intro p hp
    rw [if_neg]
    rintro rfl
    exact hk (List.mem_map_of_mem hp)
  rw [List.map_congr_left hid, List.map_id']

theorem placed_eq_put (hkeys : (Entries.keys ps).Nodup) : placed ps k x = Entries.put ps k x := by
  by_cases hk : k ∈ Entries.keys ps
  · obtain ⟨before, w, behind, rfl, hbefore, hbehind⟩ := Entries.exists_eq_append_cons hkeys hk
    rw [placed, if_pos hk, Entries.put_append_cons hbefore, List.map_append, List.map_cons,
      map_replace_of_not_mem hbefore, map_replace_of_not_mem hbehind, if_pos rfl]
  · rw [placed, if_neg hk, Entries.put_of_not_mem hk]

variable [Coded α]

/-- The fields of an object behind that of a key. -/
def behind (fs : Entries Json) (k : String) : Entries Json := (fs.dropWhile fun f => f.1 ≠ k).tail

/-- Whether a collection puts a value in its place among the pairs it shows, given whether the value
returns from its encoding. -/
def Accepts (returns : Prop) (k : String) : Keyed α → Prop
  | .map _ => True
  | .pairs ps => k ∉ Entries.keys ps
  | .object fs =>
    returns ∧ (k ∈ Entries.keys (decodable fs : List (String × α)) ∨
      (decodable (behind fs k) : List (String × α)) = [])

/-- A collection that shows no key twice, and whose object has no key twice. -/
structure Distinct (c : Keyed α) : Prop where
  pairs : (Entries.keys c.normalize).Nodup
  fields : ∀ fs, c = .object fs → fs.keys.Nodup

/-! ### Objects -/

theorem decodable_append (fs gs : Entries Json) :
    (decodable (fs ++ gs) : List (String × α)) = decodable fs ++ decodable gs :=
  List.filterMap_append

theorem decodable_cons_eq_iff {v : Json} {fs : Entries Json} :
    decodable ((k, v) :: fs) = (k, x) :: decodable fs ↔ Coded.ofJson? v = .ok x := by
  rw [decodable_cons]
  split
  · rename_i y hy
    rw [hy]
    simp
  · rename_i hv
    rw [hv]
    refine iff_of_false (fun h => ?_) nofun
    have hlength := congrArg List.length h
    rw [List.length_cons] at hlength
    omega

theorem keys_decodable_subset {fs : Entries Json} {k : String}
    (hk : k ∈ Entries.keys (decodable fs : List (String × α))) : k ∈ fs.keys :=
  (keys_decodable_sublist fs).subset hk

theorem behind_of_not_mem {fs : Entries Json} (hk : k ∉ fs.keys) : behind fs k = [] := by
  have hall : ∀ f ∈ fs, decide (f.1 ≠ k) = true := fun f hf =>
    decide_eq_true fun heq => hk (heq ▸ List.mem_map_of_mem hf)
  rw [behind, List.dropWhile_eq_nil_iff.mpr hall, List.tail_nil]

theorem behind_append_cons {fs gs : Entries Json} {v : Json} (hk : k ∉ fs.keys) :
    behind (fs ++ (k, v) :: gs) k = gs := by
  have hall : ∀ f ∈ fs, decide (f.1 ≠ k) = true := fun f hf =>
    decide_eq_true fun heq => hk (heq ▸ List.mem_map_of_mem hf)
  rw [behind, List.dropWhile_append_of_pos hall, List.dropWhile_cons_of_neg (by simp), List.tail_cons]

theorem decodable_put_new_iff {fs : Entries Json} {v : Json} (hk : k ∉ fs.keys) :
    decodable (Entries.put fs k v) = Entries.put (decodable fs) k x ↔ Coded.ofJson? v = .ok x := by
  rw [Entries.put_of_not_mem hk, Entries.put_of_not_mem (mt keys_decodable_subset hk),
    decodable_append, List.append_cancel_left_eq]
  exact decodable_cons_eq_iff

theorem decodable_put_shown_iff {before after : Entries Json} {v w : Json} {y : α}
    (hbefore : k ∉ before.keys) (hy : Coded.ofJson? w = .ok y) :
    decodable (Entries.put (before ++ (k, w) :: after) k v) =
        Entries.put (decodable (before ++ (k, w) :: after)) k x ↔ Coded.ofJson? v = .ok x := by
  rw [Entries.put_append_cons hbefore, decodable_append, decodable_append, decodable_cons (k, w), hy]
  dsimp only
  rw [Entries.put_append_cons (mt keys_decodable_subset hbefore), List.append_cancel_left_eq]
  exact decodable_cons_eq_iff

/-- A field that was not shown is shown where it stands, so at the end only when nothing behind it
is shown. -/
theorem decodable_put_hidden_iff {before after : Entries Json} {v w : Json} {e : DecodeError}
    (hbefore : k ∉ before.keys) (hafter : k ∉ after.keys)
    (he : (Coded.ofJson? w : Except DecodeError α) = .error e) :
    decodable (Entries.put (before ++ (k, w) :: after) k v) =
        Entries.put (decodable (before ++ (k, w) :: after)) k x ↔
      Coded.ofJson? v = .ok x ∧ (decodable after : List (String × α)) = [] := by
  have hshown : (decodable (before ++ (k, w) :: after) : List (String × α)) =
      decodable before ++ decodable after := by
    rw [decodable_append, decodable_cons, he]
  have hnew : k ∉ Entries.keys (decodable before ++ decodable after : List (String × α)) := by
    rw [Entries.keys_append, List.mem_append, not_or]
    exact ⟨mt keys_decodable_subset hbefore, mt keys_decodable_subset hafter⟩
  rw [hshown, Entries.put_of_not_mem hnew, Entries.put_append_cons hbefore, decodable_append,
    List.append_assoc, List.append_cancel_left_eq]
  constructor
  · intro h
    have hnil : (decodable after : List (String × α)) = [] := by
      by_contra hne
      obtain ⟨p, ps, hps⟩ := List.exists_cons_of_ne_nil hne
      have hp : p.1 ∈ after.keys := keys_decodable_subset (by rw [hps]; exact List.mem_cons_self)
      rw [decodable_cons] at h
      split at h
      · rw [hps, List.cons_append, List.cons.injEq] at h
        obtain ⟨rfl, -⟩ := h
        exact hafter hp
      · have hlength := congrArg List.length h
        rw [List.length_append, List.length_singleton] at hlength
        omega
    have hhead : decodable ((k, v) :: after) = (k, x) :: decodable after := by
      rw [h, hnil, List.nil_append]
    exact ⟨decodable_cons_eq_iff.mp hhead, hnil⟩
  · rintro ⟨hv, hnil⟩
    rw [decodable_cons_eq_iff.mpr hv, hnil, List.nil_append]

/-- Untyped fields show a value in its place exactly when it returns from its encoding, and its key is
shown already or stands behind all that is shown. -/
theorem decodable_put_iff {fs : Entries Json} {v : Json} (hkeys : fs.keys.Nodup) :
    decodable (Entries.put fs k v) = Entries.put (decodable fs) k x ↔
      Coded.ofJson? v = .ok x ∧ (k ∈ Entries.keys (decodable fs : List (String × α)) ∨
        (decodable (behind fs k) : List (String × α)) = []) := by
  by_cases hk : k ∈ fs.keys
  · obtain ⟨before, w, after, rfl, hbefore, hafter⟩ := Entries.exists_eq_append_cons hkeys hk
    rw [behind_append_cons hbefore]
    cases hw : (Coded.ofJson? w : Except DecodeError α) with
    | ok y =>
      have hshown : k ∈ Entries.keys (decodable (before ++ (k, w) :: after) : List (String × α)) := by
        rw [decodable_append, decodable_cons, hw, Entries.keys_append, Entries.keys_cons]
        simp
      simp only [decodable_put_shown_iff hbefore hw, hshown, true_or, and_true]
    | error e =>
      have hhidden : k ∉ Entries.keys (decodable (before ++ (k, w) :: after) : List (String × α)) := by
        rw [decodable_append, decodable_cons, hw, Entries.keys_append, List.mem_append, not_or]
        exact ⟨mt keys_decodable_subset hbefore, mt keys_decodable_subset hafter⟩
      simp only [decodable_put_hidden_iff hbefore hafter hw, hhidden, false_or]
  · have hnone : (decodable (behind fs k) : List (String × α)) = [] := by
      rw [behind_of_not_mem hk]
      rfl
    simp only [decodable_put_new_iff hk, hnone, or_true, and_true]

/-! ### Insertions -/

/-- **An insertion puts the value in its place among the pairs that are shown exactly when the
collection accepts it.** -/
theorem normalize_insert_iff {c : Keyed α} (hc : c.Distinct) {returns : Prop}
    (hreturns : Coded.ofJson? (Coded.json x) = .ok x ↔ returns) :
    (c.insert k x).normalize = placed c.normalize k x ↔ c.Accepts returns k := by
  rw [placed_eq_put hc.pairs]
  cases c with
  | map es => exact iff_of_true rfl trivial
  | pairs ps =>
    show ps ++ [(k, x)] = Entries.put ps k x ↔ k ∉ Entries.keys ps
    refine ⟨fun h hk => ?_, fun hk => (Entries.put_of_not_mem hk).symm⟩
    have hkeys := congrArg (List.length ∘ Entries.keys) h
    simp [Entries.keys_put, hk] at hkeys
  | object fs =>
    rw [Accepts, ← hreturns]
    exact decodable_put_iff (hc.fields fs rfl)

end Keyed

end FrameScope
