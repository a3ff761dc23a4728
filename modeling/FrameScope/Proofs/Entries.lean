import FrameScope.Entries
import Mathlib.Data.List.Nodup

/-!
# Entries of a map

What putting a value under a key does to the keys and to the entries: `keys_put`, `nodup_keys_put`,
`mem_of_mem_put`, `get?_put`. A new key goes last (`put_of_not_mem`). `Related` compares two maps key
by key.
-/

namespace FrameScope.Entries

variable {α : Type u} {es : Entries α} {k : String} {x : α}

@[simp] theorem keys_nil : keys ([] : Entries α) = [] := rfl

@[simp] theorem keys_cons (e : String × α) (es : Entries α) : keys (e :: es) = e.1 :: keys es := rfl

@[simp] theorem keys_append (es fs : Entries α) : keys (es ++ fs) = keys es ++ keys fs := by
  simp [keys]

theorem put_of_not_mem (h : k ∉ es.keys) : es.put k x = es ++ [(k, x)] := by
  induction es with
  | nil => rfl
  | cons e es ih =>
    simp only [keys_cons, List.mem_cons, not_or] at h
    rw [put, if_neg (Ne.symm h.1), ih h.2, List.cons_append]

theorem keys_put : (es.put k x).keys = if k ∈ es.keys then es.keys else es.keys ++ [k] := by
  induction es with
  | nil => simp [put]
  | cons e es ih =>
    by_cases he : e.1 = k
    · simp [put, he]
    · have hk : k ≠ e.1 := Ne.symm he
      by_cases hmem : k ∈ keys es <;> simp [put, he, hk, ih, hmem]

theorem mem_keys_put_iff {j : String} : j ∈ (es.put k x).keys ↔ j = k ∨ j ∈ es.keys := by
  rw [keys_put]
  split
  · rename_i hk
    exact ⟨.inr, fun h => h.elim (fun heq => heq ▸ hk) id⟩
  · simp [or_comm]

theorem nodup_keys_put (h : es.keys.Nodup) : (es.put k x).keys.Nodup := by
  rw [keys_put]
  split
  · exact h
  · rename_i hk
    exact List.nodup_append.mpr ⟨h, by simp, fun a ha b hb hab => hk (by simp_all)⟩

theorem mem_of_mem_put {e : String × α} (h : e ∈ es.put k x) : e = (k, x) ∨ e ∈ es := by
  induction es with
  | nil => exact .inl (by simpa [put] using h)
  | cons f es ih =>
    rw [put] at h
    split at h
    · rcases List.mem_cons.mp h with h | h
      · exact .inl h
      · exact .inr (List.mem_cons_of_mem f h)
    · rcases List.mem_cons.mp h with h | h
      · exact .inr (by simp [h])
      · exact (ih h).imp_right (List.mem_cons_of_mem f)

theorem mem_put_self (es : Entries α) (k : String) (x : α) : (k, x) ∈ es.put k x := by
  induction es with
  | nil => simp [put]
  | cons e es ih =>
    rw [put]
    split
    · simp
    · exact List.mem_cons_of_mem e ih

/-! ### The value under a key -/

theorem get?_put (j : String) : (es.put k x).get? j = if k = j then some x else es.get? j := by
  induction es with
  | nil => simp [put, get?]
  | cons e es ih =>
    rw [put]
    split
    · rename_i he
      rw [get?, get?]
      by_cases hk : k = j <;> simp [he, hk]
    · rename_i he
      rw [get?, get?, ih]
      by_cases hj : e.1 = j
      · rw [if_pos hj, if_pos hj, if_neg fun hk => he (hj.trans hk.symm)]
      · rw [if_neg hj, if_neg hj]

theorem put_eq_self (h : es.get? k = some x) : es.put k x = es := by
  induction es with
  | nil => simp [get?] at h
  | cons e es ih =>
    rw [get?] at h
    rw [put]
    split
    · rename_i he
      rw [if_pos he] at h
      rw [← he, ← Option.some.inj h]
    · rename_i he
      rw [if_neg he] at h
      rw [ih h]

theorem get?_append (es fs : Entries α) (k : String) :
    get? (es ++ fs) k = (es.get? k).or (fs.get? k) := by
  induction es with
  | nil => rfl
  | cons e es ih =>
    rw [List.cons_append, get?, get?]
    split
    · rfl
    · exact ih

theorem get?_eq_none_iff : es.get? k = none ↔ k ∉ es.keys := by
  induction es with
  | nil => simp [get?]
  | cons e es ih =>
    rw [get?, keys_cons, List.mem_cons, not_or]
    split
    · rename_i he
      simp [he]
    · rename_i he
      simp [ih, Ne.symm he]

theorem mem_of_get? (h : es.get? k = some x) : (k, x) ∈ es := by
  induction es with
  | nil => simp [get?] at h
  | cons e es ih =>
    rw [get?] at h
    split at h
    · rename_i he
      rw [← he, ← Option.some.inj h]
      exact List.mem_cons_self
    · exact List.mem_cons_of_mem _ (ih h)

theorem get?_eq_some_iff (h : es.keys.Nodup) : es.get? k = some x ↔ (k, x) ∈ es := by
  induction es with
  | nil => simp [get?]
  | cons e es ih =>
    obtain ⟨hhead, htail⟩ := List.nodup_cons.mp h
    rw [get?, List.mem_cons]
    split
    · rename_i he
      have hnot : (k, x) ∉ es := fun hmem => hhead (he ▸ List.mem_map_of_mem (f := Prod.fst) hmem)
      simp [Prod.ext_iff, he, hnot, eq_comm]
    · rename_i he
      simp [ih htail, Prod.ext_iff, Ne.symm he]

theorem get?_of_perm {fs : Entries α} (hkeys : es.keys.Nodup) (h : fs.Perm es) (k : String) :
    fs.get? k = es.get? k := by
  have hkeys' : fs.keys.Nodup := (h.map Prod.fst).nodup_iff.mpr hkeys
  ext x
  rw [get?_eq_some_iff hkeys', get?_eq_some_iff hkeys, h.mem_iff]

theorem get?_filter (p : String → Bool) (es : Entries α) (k : String) :
    get? (es.filter fun e => p e.1) k = if p k then es.get? k else none := by
  induction es with
  | nil => simp [get?]
  | cons e es ih =>
    rw [List.filter_cons, get?]
    by_cases hk : e.1 = k
    · by_cases hp : p k
      · rw [if_pos (hk ▸ hp), get?, if_pos hk, if_pos hp, if_pos hk]
      · rw [if_neg (hk ▸ hp), ih, if_neg hp, if_neg hp]
    · rw [if_neg hk, ← ih]
      split
      · rw [get?, if_neg hk]
      · rfl

theorem get?_erase (es : Entries α) (k j : String) :
    (es.erase k).get? j = if k = j then none else es.get? j := by
  rw [erase, get?_filter fun i => decide (i ≠ k)]
  by_cases hk : k = j
  · simp [hk]
  · simp [hk, Ne.symm hk]

theorem get?_erase_self (es : Entries α) (k : String) : (es.erase k).get? k = none := by
  rw [get?_erase, if_pos rfl]

theorem mem_keys_iff : k ∈ es.keys ↔ ∃ x, (k, x) ∈ es := by simp [keys]

theorem nodup_keys_filter (p : String × α → Bool) (h : es.keys.Nodup) :
    Entries.keys (es.filter p) |>.Nodup :=
  h.sublist (List.filter_sublist.map _)

theorem ofPairs_eq_self (h : es.keys.Nodup) : ofPairs es = es := by
  have hfold (fs : Entries α) (hfs : (fs.keys ++ es.keys).Nodup) :
      es.foldl (fun es p => es.put p.1 p.2) fs = fs ++ es := by
    clear h
    induction es generalizing fs with
    | nil => simp
    | cons e es ih =>
      have hk : e.1 ∉ fs.keys := fun hmem =>
        (List.nodup_append.mp hfs).2.2 e.1 hmem e.1 (by simp) rfl
      rw [List.foldl_cons, put_of_not_mem hk, ih _ (by simpa using hfs)]
      simp
  exact hfold [] (by simpa using h)

theorem nodup_keys_ofPairs (ps : List (String × α)) : (ofPairs ps).keys.Nodup := by
  have hfold (es : Entries α) (hes : es.keys.Nodup) :
      Entries.keys (ps.foldl (fun es p => es.put p.1 p.2) es) |>.Nodup := by
    induction ps generalizing es with
    | nil => exact hes
    | cons p ps ih => exact ih _ (nodup_keys_put hes)
  exact hfold [] List.nodup_nil

/-! ### Values one by one -/

variable {β : Type u} {γ : Type u} {R : α → β → Prop} {S : β → γ → Prop}

/-- The same keys in the same order, and related values under them. -/
def Related (R : α → β → Prop) (es : Entries α) (fs : Entries β) : Prop :=
  List.Forall₂ (fun e f => e.1 = f.1 ∧ R e.2 f.2) es fs

theorem related_map {f : String × α → String × β} {g : String × α → String × γ}
    {T : β → γ → Prop} (h : ∀ e ∈ es, (f e).1 = (g e).1 ∧ T (f e).2 (g e).2) :
    Related T (es.map f) (es.map g) := by
  induction es with
  | nil => exact .nil
  | cons e es ih =>
    exact .cons (h e (by simp)) (ih fun e he => h e (List.mem_cons_of_mem _ he))

theorem Related.keys_eq {fs : Entries β} (h : es.Related R fs) : es.keys = fs.keys := by
  induction h with
  | nil => rfl
  | cons hhead _ ih => rw [keys_cons, keys_cons, hhead.1, ih]

theorem Related.get? {fs : Entries β} (h : es.Related R fs) (k : String) :
    Option.Rel R (es.get? k) (fs.get? k) := by
  induction h with
  | nil => exact .none
  | @cons e f es fs hhead _ ih =>
    rw [Entries.get?, Entries.get?, hhead.1]
    split
    · exact .some hhead.2
    · exact ih

theorem Related.exists_mem {fs : Entries β} (h : es.Related R fs) {f : String × β} (hf : f ∈ fs) :
    ∃ x, (f.1, x) ∈ es ∧ R x f.2 := by
  induction h with
  | nil => simp at hf
  | @cons e g es fs hhead _ ih =>
    rcases List.mem_cons.mp hf with rfl | hf
    · exact ⟨e.2, by simp [← hhead.1], hhead.2⟩
    · obtain ⟨x, hx, hR⟩ := ih hf
      exact ⟨x, List.mem_cons_of_mem _ hx, hR⟩

theorem exists_related_iff : (∃ fs, es.Related R fs) ↔ ∀ e ∈ es, ∃ y, R e.2 y := by
  constructor
  · rintro ⟨fs, h⟩
    induction h with
    | nil => simp
    | cons hhead _ ih => exact List.forall_mem_cons.mpr ⟨⟨_, hhead.2⟩, ih⟩
  · intro h
    induction es with
    | nil => exact ⟨[], .nil⟩
    | cons e es ih =>
      obtain ⟨⟨y, hy⟩, hrest⟩ := List.forall_mem_cons.mp h
      obtain ⟨fs, hfs⟩ := ih hrest
      exact ⟨(e.1, y) :: fs, .cons ⟨rfl, hy⟩ hfs⟩

theorem related_comp_iff {gs : Entries γ} :
    es.Related (fun x z => ∃ y, R x y ∧ S y z) gs ↔
      ∃ fs : Entries β, es.Related R fs ∧ fs.Related S gs := by
  constructor
  · intro h
    induction h with
    | nil => exact ⟨[], .nil, .nil⟩
    | @cons e g es gs hhead _ ih =>
      obtain ⟨hkey, y, hR, hS⟩ := hhead
      obtain ⟨fs, hes, hgs⟩ := ih
      exact ⟨(e.1, y) :: fs, .cons ⟨rfl, hR⟩ hes, .cons ⟨hkey, hS⟩ hgs⟩
  · rintro ⟨fs, hes, hgs⟩
    induction hes generalizing gs with
    | nil => cases hgs; exact .nil
    | cons hhead _ ih =>
      cases hgs with
      | cons hhead' hgs =>
        exact .cons ⟨hhead.1.trans hhead'.1, _, hhead.2, hhead'.2⟩ (ih hgs)

end FrameScope.Entries
