import FrameScope.Node.Record
import FrameScope.Proofs.Json.Sound

/-!
# What is read of the parts of a document

What every value read from a part has (`Reads`), every item of a list, every value of a map and the
value of a pair have (`list_invariant`, `entries_invariant`, `pair_invariant`). What holds of the
record one starts from, and what every field keeps, holds of the record that is read
(`record_invariant`).

`Slots` tells how entries stand for fields in declaration order, each given once or left out, and
what they make of a record. Entries that do are read as that record (`recordEntries_of_slots`),
provided no field answers to the name of a later one (`Unambiguous`).
-/

namespace FrameScope

/-- What is said of every part of a container. -/
def Node.Parts (D : Node → Prop) : Node → Prop
  | .seq vs => ∀ v ∈ vs, D v
  | .map es => ∀ e ∈ es, D e.2
  | _ => True

theorem Node.Literal.parts {node : Node} (h : node.Literal) : node.Parts Node.Literal := by
  cases node with
  | seq vs => exact literal_seq.mp h
  | map es => exact fun e he => (literal_map.mp h e he).2
  | _ => trivial

namespace Read

open Node

variable {σ α : Type} {m : Medium} {fields : List (Field σ)} {d : Decoder α} {D : Node → Prop}

/-- What the decoder reads of documents with `D` has `Q`. -/
def Reads (m : Medium) (D : Node → Prop) (d : Decoder α) (Q : α → Prop) : Prop :=
  ∀ node x, D node → d m node = .ok x → Q x

theorem Reads.mono {C : Node → Prop} {Q : α → Prop} (h : Reads m D d Q)
    (hdocs : ∀ node, C node → D node) : Reads m C d Q := by
  intro node x hnode hx
  exact h node x (hdocs node hnode) hx

/-! ### Options, lists, maps and pairs -/

theorem option_of_ne_null {node : Node} (h : node ≠ .null) :
    option d m node = (d m node).map some := by
  unfold option
  split
  · exact absurd rfl h
  · rfl

theorem some_of_option {node : Node} {x : α} (h : option d m node = .ok (some x)) :
    node ≠ .null ∧ d m node = .ok x := by
  by_cases hnull : node = .null
  · subst hnull
    simp [option] at h
  · rw [option_of_ne_null hnull] at h
    obtain ⟨y, hy, heq⟩ := except_map_eq_ok h
    exact ⟨hnull, by rw [hy, Option.some.inj heq]⟩

theorem items_invariant {Q : α → Prop} (hread : Reads m D d Q) {vs : List Node}
    (hvs : ∀ v ∈ vs, D v) {xs : List α} (h : items d m vs = .ok xs) : ∀ x ∈ xs, Q x := by
  induction vs generalizing xs with
  | nil =>
    simp only [items, Except.ok.injEq] at h
    simp [← h]
  | cons v vs ih =>
    rw [items] at h
    obtain ⟨x, hx, h⟩ := except_bind_eq_ok h
    obtain ⟨rest, hrest, h⟩ := except_bind_eq_ok h
    simp only [Except.ok.injEq] at h
    subst h
    intro y hy
    rcases List.mem_cons.mp hy with rfl | hy
    · exact hread v _ (hvs v (by simp)) hx
    · exact ih (fun v hv => hvs v (List.mem_cons_of_mem _ hv)) hrest y hy

theorem list_invariant {Q : α → Prop} (hread : Reads m D d Q) {node : Node}
    (hnode : node.Parts D) {xs : List α} (h : list d m node = .ok xs) : ∀ x ∈ xs, Q x := by
  cases node with
  | seq vs => exact items_invariant hread hnode (by simpa [list] using h)
  | _ => simp [list] at h

theorem entriesFrom_invariant {P : String → α → Prop} {nodes : List (Key × Node)}
    (hread : ∀ e ∈ nodes, ∀ s x, keyText e.1 = .ok s → d m e.2 = .ok x → P s x)
    {before es : Entries α} (h : entriesFrom d m before nodes = .ok es) (hkeys : before.keys.Nodup)
    (hbefore : ∀ e ∈ before, P e.1 e.2) : es.keys.Nodup ∧ ∀ e ∈ es, P e.1 e.2 := by
  induction nodes generalizing before with
  | nil =>
    simp only [entriesFrom, Except.ok.injEq] at h
    exact h ▸ ⟨hkeys, hbefore⟩
  | cons e nodes ih =>
    rw [entriesFrom] at h
    obtain ⟨s, hs, h⟩ := except_bind_eq_ok h
    obtain ⟨x, hx, h⟩ := except_bind_eq_ok h
    refine ih (fun e he => hread e (List.mem_cons_of_mem _ he)) h (Entries.nodup_keys_put hkeys) ?_
    intro e' he'
    rcases Entries.mem_of_mem_put he' with rfl | he'
    · exact hread e (by simp) s x hs hx
    · exact hbefore e' he'

theorem entries_invariant {Q : α → Prop} (hread : Reads m D d Q) {node : Node}
    (hnode : node.Parts D) {es : Entries α} (h : entries d m node = .ok es) :
    es.keys.Nodup ∧ ∀ e ∈ es, Q e.2 := by
  cases node with
  | map nodes =>
    exact entriesFrom_invariant (fun e he _ x _ hx => hread e.2 x (hnode e he) hx)
      (by simpa [entries] using h) (by simp) (by simp)
  | _ => simp [entries] at h

theorem pair_invariant {Q : α → Prop} (hread : Reads m D d Q) {node : Node}
    (hnode : node.Parts D) {p : String × α} (h : pair d m node = .ok p) : Q p.2 := by
  unfold pair at h
  split at h
  · rename_i k v rest
    obtain ⟨s, -, h⟩ := except_bind_eq_ok h
    obtain ⟨x, hx, h⟩ := except_bind_eq_ok h
    split at h
    · simp only [Except.ok.injEq] at h
      exact h ▸ hread v x (hnode v (by simp)) hx
    · simp at h
  · obtain ⟨s, -, h⟩ := except_bind_eq_ok h
    simp at h
  · simp at h
  · simp at h

/-! ### What every field keeps -/

/-- A field whose reader keeps `P` on documents that satisfy `D`. -/
def Keeps (m : Medium) (D : Node → Prop) (P : σ → Prop) (f : Field σ) : Prop :=
  ∀ node set, D node → f.read m node = .ok set → ∀ s, P s → P (set s)

/-- A field keeps `P` when what its decoder yields is `Q` and its setter takes `Q` to `P`. -/
theorem keeps_of_set {P : σ → Prop} {f : Field σ} {set : α → σ → σ}
    (hf : f.read = fun m node => (d m node).map set) {Q : α → Prop} (hread : Reads m D d Q)
    (hset : ∀ x s, Q x → P s → P (set x s)) : Keeps m D P f := by
  intro node upd hnode hupd s hs
  rw [hf] at hupd
  obtain ⟨x, hx, rfl⟩ := except_map_eq_ok hupd
  exact hset x s (hread node x hnode hx) hs

theorem keeps_free {P : σ → Prop} {f : Field σ} {set : α → σ → σ}
    (hf : f.read = fun m node => (d m node).map set) (hset : ∀ x s, P s → P (set x s)) :
    Keeps m D P f :=
  keeps_of_set (Q := fun _ => True) hf (fun _ _ _ _ => trivial) fun x s _ hs => hset x s hs

theorem keeps_of_option {P : σ → Prop} {f : Field σ} {set : Option α → σ → σ}
    (hf : f.read = fun m node => (option d m node).map set) {Q : α → Prop}
    (hread : Reads m (fun node => D node ∧ node ≠ .null) d Q)
    (hset : ∀ o s, (∀ x ∈ o, Q x) → P s → P (set o s)) : Keeps m D P f := by
  refine keeps_of_set (Q := fun o => ∀ x ∈ o, Q x) hf ?_ hset
  rintro node o hnode ho x rfl
  obtain ⟨hne, hx⟩ := some_of_option ho
  exact hread node x ⟨hnode, hne⟩ hx

theorem keeps_of_list {E : Node → Prop} {P : σ → Prop} {f : Field σ} {set : List α → σ → σ}
    (hf : f.read = fun m node => (list d m node).map set) {Q : α → Prop}
    (hparts : ∀ node, D node → node.Parts E) (hread : Reads m E d Q)
    (hset : ∀ xs s, (∀ x ∈ xs, Q x) → P s → P (set xs s)) : Keeps m D P f :=
  keeps_of_set (Q := fun xs => ∀ x ∈ xs, Q x) hf
    (fun node _ hnode hxs => list_invariant hread (hparts node hnode) hxs) hset

theorem mem_of_fieldOf? {k : Key} {f : Field σ} (h : fieldOf? fields k = .ok (some f)) :
    f ∈ fields := by
  cases k with
  | name s => exact List.mem_of_find?_eq_some (by simpa [fieldOf?] using h)
  | index i => exact List.mem_of_getElem? (by simpa [fieldOf?] using h)
  | bytes b =>
    simp only [fieldOf?, Except.ok.injEq, Option.bind_eq_some_iff] at h
    obtain ⟨s, -, hfind⟩ := h
    exact List.mem_of_find?_eq_some hfind
  | other => simp [fieldOf?] at h
  | unreadable => simp [fieldOf?] at h

theorem fieldEntries_invariant {P : σ → Prop}
    (hfields : ∀ f ∈ fields, Keeps m D P f) {es : List (Key × Node)} (hes : ∀ e ∈ es, D e.2)
    {seen seen' : List String} {s t : σ} (h : fieldEntries fields m seen s es = .ok (seen', t))
    (hs : P s) : P t := by
  induction es generalizing seen s with
  | nil =>
    simp only [fieldEntries, Except.ok.injEq, Prod.mk.injEq] at h
    exact h.2 ▸ hs
  | cons e es ih =>
    have hrest : ∀ e ∈ es, D e.2 := fun e he => hes e (List.mem_cons_of_mem _ he)
    rw [fieldEntries] at h
    obtain ⟨field?, hfield, h⟩ := except_bind_eq_ok h
    cases field? with
    | none =>
      obtain ⟨-, -, h⟩ := except_bind_eq_ok h
      exact ih hrest h hs
    | some f =>
      simp only at h
      split at h
      · simp at h
      · obtain ⟨set, hset, h⟩ := except_bind_eq_ok h
        have hkeep := hfields f (mem_of_fieldOf? hfield) e.2 set (hes e (by simp)) hset
        exact ih hrest h (hkeep s hs)

theorem fieldItems_invariant {P : σ → Prop}
    (hfields : ∀ f ∈ fields, Keeps m D P f) {vs : List Node} (hvs : ∀ v ∈ vs, D v) {s t : σ}
    (h : fieldItems m fields s vs = .ok t) (hs : P s) : P t := by
  induction fields generalizing vs s with
  | nil =>
    cases vs with
    | nil =>
      simp only [fieldItems, Except.ok.injEq] at h
      exact h ▸ hs
    | cons v vs => simp [fieldItems] at h
  | cons f fields ih =>
    have hrest : ∀ f ∈ fields, Keeps m D P f := fun f hf => hfields f (List.mem_cons_of_mem _ hf)
    cases vs with
    | nil =>
      rw [fieldItems] at h
      split at h
      · simp at h
      · exact ih hrest (by simp) h hs
    | cons v vs =>
      rw [fieldItems] at h
      obtain ⟨set, hset, h⟩ := except_bind_eq_ok h
      have hkeep := hfields f (by simp) v set (hvs v (by simp)) hset
      exact ih hrest (fun v hv => hvs v (List.mem_cons_of_mem _ hv)) h (hkeep s hs)

/-- **What the starting record satisfies and every field keeps, the record that is read
satisfies.** -/
theorem record_invariant {P : σ → Prop} {init t : σ} (hinit : P init)
    (hfields : ∀ f ∈ fields, Keeps m D P f) {node : Node} (hnode : node.Parts D)
    (h : record fields init m node = .ok t) : P t := by
  cases node with
  | map es =>
    rw [record, recordEntries] at h
    obtain ⟨⟨seen, s⟩, hes, h⟩ := except_bind_eq_ok h
    simp only at h
    split at h
    · simp at h
    · simp only [Except.ok.injEq] at h
      exact h ▸ fieldEntries_invariant hfields hnode hes hinit
  | seq vs =>
    rw [record] at h
    exact fieldItems_invariant hfields hnode h hinit
  | _ => simp [record] at h

/-! ### Fields in declaration order -/

/-- Entries in the order of the fields they stand for, and the records before and behind them. -/
inductive Slots (m : Medium) : List (Field σ) → List (Key × Node) → σ → σ → Prop
  | nil (s : σ) : Slots m [] [] s s
  | given {f : Field σ} {fs : List (Field σ)} {v : Node} {es : List (Key × Node)} {set : σ → σ}
      {s t : σ} : f.read m v = .ok set → Slots m fs es (set s) t →
        Slots m (f :: fs) ((.name f.name, v) :: es) s t
  | skipped {f : Field σ} {fs : List (Field σ)} {es : List (Key × Node)} {s t : σ} :
      f.required = false → Slots m fs es s t → Slots m (f :: fs) es s t

theorem Slots.plain {f : Field σ} {fs : List (Field σ)} {name : String} {set : α → σ → σ} {v : Node}
    {y : α} {es : List (Key × Node)} {s t : σ} (hf : f.read = fun m node => (d m node).map set)
    (hname : f.name = name) (hread : d m v = .ok y) (h : Slots m fs es (set y s) t) :
    Slots m (f :: fs) ((.name name, v) :: es) s t := by
  subst hname
  refine .given ?_ h
  rw [hf]
  simp only [hread]
  rfl

/-- No field answers to the name of a later one. -/
def Unambiguous (fields : List (Field σ)) : Prop :=
  fields.Pairwise fun f g => f.answersTo g.name = false

instance (fields : List (Field σ)) : Decidable (Unambiguous fields) :=
  inferInstanceAs (Decidable (fields.Pairwise _))

theorem answersTo_name (f : Field σ) : f.answersTo f.name = true := by simp [Field.answersTo]

theorem find?_of_unambiguous {before after : List (Field σ)} {f : Field σ}
    (h : Unambiguous (before ++ f :: after)) :
    (before ++ f :: after).find? (·.answersTo f.name) = some f := by
  have hbefore : ∀ g ∈ before, g.answersTo f.name = false :=
    fun g hg => (List.pairwise_append.mp h).2.2 g hg f (by simp)
  rw [List.find?_append, List.find?_eq_none.mpr (by simpa using hbefore), Option.none_or,
    List.find?_cons, answersTo_name f]

theorem name_ne_of_unambiguous {before after : List (Field σ)} {f g : Field σ}
    (h : Unambiguous (before ++ f :: after)) (hg : g ∈ before) : g.name ≠ f.name := by
  intro hname
  have hanswers := (List.pairwise_append.mp h).2.2 g hg f (by simp)
  rw [← hname, answersTo_name] at hanswers
  exact Bool.noConfusion hanswers

/-- The entries of the fields `after` are read behind those of the fields `before`. -/
theorem fieldEntries_of_slots {after : List (Field σ)} {es : List (Key × Node)} {s t : σ}
    (h : Slots m after es s t) : ∀ (before : List (Field σ)) (seen : List String),
    Unambiguous (before ++ after) → (∀ name ∈ seen, ∃ f ∈ before, f.name = name) →
    (∀ f ∈ before, f.required = true → f.name ∈ seen) →
      ∃ seen', fieldEntries (before ++ after) m seen s es = .ok (seen', t) ∧
        ∀ f ∈ before ++ after, f.required = true → f.name ∈ seen' := by
  induction h with
  | nil s =>
    intro before seen _ _ hreq
    exact ⟨seen, rfl, by simpa using hreq⟩
  | @given f fs v es set s t hread hrest ih =>
    intro before seen hun hseen hreq
    have hfresh : f.name ∉ seen := by
      intro hmem
      obtain ⟨g, hg, hname⟩ := hseen _ hmem
      exact name_ne_of_unambiguous hun hg hname
    have hmove : before ++ f :: fs = (before ++ [f]) ++ fs := by simp
    obtain ⟨seen', hentries, hall⟩ := ih (before ++ [f]) (f.name :: seen)
      (hmove ▸ hun)
      (by
        intro name hname
        rcases List.mem_cons.mp hname with rfl | hname
        · exact ⟨f, by simp, rfl⟩
        · obtain ⟨g, hg, rfl⟩ := hseen name hname
          exact ⟨g, by simp [hg], rfl⟩)
      (by
        intro g hg hgreq
        rcases List.mem_append.mp hg with hg | hg
        · exact List.mem_cons_of_mem _ (hreq g hg hgreq)
        · simp [List.mem_singleton.mp hg])
    refine ⟨seen', ?_, hmove ▸ hall⟩
    rw [fieldEntries, fieldOf?, find?_of_unambiguous hun]
    simp only [bind, Except.bind, if_neg hfresh, hread]
    rw [hmove]
    exact hentries
  | @skipped f fs es s t hopt hrest ih =>
    intro before seen hun hseen hreq
    have hmove : before ++ f :: fs = (before ++ [f]) ++ fs := by simp
    obtain ⟨seen', hentries, hall⟩ := ih (before ++ [f]) seen (hmove ▸ hun)
      (fun name hname => by
        obtain ⟨g, hg, hgname⟩ := hseen name hname
        exact ⟨g, by simp [hg], hgname⟩)
      (by
        intro g hg hgreq
        rcases List.mem_append.mp hg with hg | hg
        · exact hreq g hg hgreq
        · rw [List.mem_singleton.mp hg, hopt] at hgreq
          exact Bool.noConfusion hgreq)
    exact ⟨seen', hmove ▸ hentries, hmove ▸ hall⟩

/-- **Entries in declaration order are read as the record they make.** -/
theorem recordEntries_of_slots {es : List (Key × Node)} {init t : σ} (hun : Unambiguous fields)
    (h : Slots m fields es init t) : recordEntries fields init m es = .ok t := by
  obtain ⟨seen, hentries, hall⟩ := fieldEntries_of_slots h [] [] hun (by simp) (by simp)
  have hmissing : missing? fields seen = none := by
    rw [missing?, Option.map_eq_none_iff, List.find?_eq_none]
    intro f hf
    by_cases hreq : f.required = true
    · simp [hall f hf hreq]
    · simp [hreq]
  rw [List.nil_append] at hentries
  simp only [recordEntries, hentries, bind, Except.bind, hmissing]

end Read

end FrameScope
