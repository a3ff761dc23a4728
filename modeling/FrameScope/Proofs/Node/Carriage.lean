import FrameScope.Log.Entry
import FrameScope.Proofs.Node.Held
import FrameScope.Proofs.Node.Logged
import FrameScope.Proofs.Node.Record

/-!
# Documents carried from a writer to a reader

A document that is written arrives at a reader in some form, through a log or through a text
(`Carriage`). `Carriage.Brings` says of a document that it passes and what a decoder reads of it on
arrival, whatever the form. Scalars, lists and records are brought part by part: `Carriage.Fills`
goes through the fields of a record in the order they are written, and `brings_record` is the record
they fill.
-/

namespace FrameScope

open Node

/-- A way of documents from where they are written to where they are read. -/
structure Carriage where
  /-- The forms in which documents arrive. -/
  Arrives : Medium → (Node → Node) → Prop
  /-- What is held back of a document, however it arrives. -/
  kept : Node → Node
  /-- The documents that pass where so many containers may still be opened. -/
  Passes : Nat → Node → Prop
  form : ∀ {m carry}, Arrives m carry → Form carry
  word : ∀ {m carry n}, Arrives m carry → n < Word.size → Read.word m (carry (.int n)) = .ok n
  num : ∀ {m carry} {n : Number}, Arrives m carry → n.Valid →
    Read.json m (carry (.num n)) = .ok (.num n)
  buffer : ∀ {m carry level node}, Arrives m carry → Passes level node →
    Read.buffer m (carry node) = .ok (kept node)
  arrives_kept : Arrives .buffered kept
  passes_text : ∀ {level s}, Passes level (.text s)
  passes_word : ∀ {level n}, n < Word.size → Passes level (.int n)
  passes_seq : ∀ {level vs}, (∀ v ∈ vs, Passes level v) → Passes (level + 1) (.seq vs)
  passes_map : ∀ {level es}, (∀ e ∈ es, (∃ s, e.1 = .name s) ∧ Passes level e.2) →
    Passes (level + 1) (.map es)
  passes_mono : ∀ {level level' node}, level ≤ level' → Passes level node → Passes level' node

namespace Carriage

variable {α σ : Type} {K : Carriage} {level : Nat} {d : Decoder α}

/-- A document that passes, and what is read of it on arrival. -/
structure Brings (K : Carriage) (level : Nat) (d : Decoder α) (node : Node) (x : α) : Prop where
  passes : K.Passes level node
  read : ∀ {m carry}, K.Arrives m carry → d m (carry node) = .ok x

theorem Brings.mono {level' : Nat} {node : Node} {x : α} (hlevel : level ≤ level')
    (h : K.Brings level d node x) : K.Brings level' d node x :=
  ⟨K.passes_mono hlevel h.passes, h.read⟩

/-! ### Scalars, untyped values and lists -/

theorem brings_text (s : String) : K.Brings level Read.text (.text s) s where
  passes := K.passes_text
  read harrives := by
    rw [(K.form harrives).text]
    rfl

theorem brings_word {n : Nat} (h : n < Word.size) : K.Brings level Read.word (.int n) n where
  passes := K.passes_word h
  read harrives := K.word harrives h

theorem brings_json {v : Json} (hv : v.Sound) (hpasses : K.Passes level (ofJson v)) :
    K.Brings level Read.json (ofJson v) v where
  passes := hpasses
  read harrives := Read.json_form (K.form harrives) (K.num harrives) hv

theorem items_brings {β : Type} {m : Medium} {carry : Node → Node} (harrives : K.Arrives m carry)
    {w : β → Node} {g : β → α} {xs : List β} (hxs : ∀ x ∈ xs, K.Brings level d (w x) (g x)) :
    Read.items d m (xs.map fun x => carry (w x)) = .ok (xs.map g) := by
  induction xs with
  | nil => rfl
  | cons x xs ih =>
    obtain ⟨hx, hrest⟩ := List.forall_mem_cons.mp hxs
    simp only [List.map_cons, Read.items, hx.read harrives, ih hrest, bind, Except.bind]

theorem brings_list {β : Type} {w : β → Node} {g : β → α} {xs : List β}
    (hxs : ∀ x ∈ xs, K.Brings level d (w x) (g x)) :
    K.Brings (level + 1) (Read.list d) (.seq (xs.map w)) (xs.map g) where
  passes := K.passes_seq fun v hv => by
    obtain ⟨x, hx, rfl⟩ := List.mem_map.mp hv
    exact (hxs x hx).passes
  read harrives := by
    rw [(K.form harrives).seq, Read.list, List.map_map]
    exact items_brings harrives hxs

theorem brings_pair {k : String} {v : Node} {x : α} (h : K.Brings level d v x) :
    K.Brings (level + 1) (Read.pair d) (.seq [.text k, v]) (k, x) where
  passes := K.passes_seq (by simp [K.passes_text, h.passes])
  read harrives := by
    have hform := K.form harrives
    rw [hform.seq, List.map_cons, List.map_cons, List.map_nil, hform.text, Read.pair]
    simp only [Read.text, h.read harrives, bind, Except.bind, List.isEmpty_nil, if_true]

theorem brings_entries {β : Type} {w : β → Node} {g : β → α} {es : Entries β} (hkeys : es.keys.Nodup)
    (hes : ∀ e ∈ es, K.Brings level d (w e.2) (g e.2)) :
    K.Brings (level + 1) (Read.entries d) (.map (es.map fun e => (.name e.1, w e.2)))
      (es.map fun e => (e.1, g e.2)) where
  passes := K.passes_map fun entry hentry => by
    obtain ⟨e, he, rfl⟩ := List.mem_map.mp hentry
    exact ⟨⟨_, rfl⟩, (hes e he).passes⟩
  read harrives := by
    rw [(K.form harrives).map, List.map_map]
    exact Read.entries_of_named (fun e he => (hes e he).read harrives) hkeys

/-! ### Records -/

variable {f : Field σ} {fs : List (Field σ)} {s t : σ} {es : List (Key × Node)}

/-- Entries in the order of the fields they are brought for, and the records before and behind
them. -/
inductive Fills (K : Carriage) (level : Nat) : List (Field σ) → List (Key × Node) → σ → σ → Prop
  | nil (s : σ) : Fills K level [] [] s s
  | given {β : Type} {d : Decoder β} {set : β → σ → σ} {f : Field σ} {fs : List (Field σ)}
      {v : Node} {y : β} {es : List (Key × Node)} {s t : σ}
      (hf : f.read = fun m node => (d m node).map set) (hv : K.Brings level d v y)
      (hrest : Fills K level fs es (set y s) t) :
      Fills K level (f :: fs) ((.name f.name, v) :: es) s t
  | skipped {f : Field σ} {fs : List (Field σ)} {es : List (Key × Node)} {s t : σ}
      (hreq : f.required = false) (hrest : Fills K level fs es s t) : Fills K level (f :: fs) es s t

theorem Fills.always {β : Type} {d : Decoder β} {set : β → σ → σ} {name : String} {v : Node} {y : β}
    (hf : f.read = fun m node => (d m node).map set) (hname : f.name = name)
    (hv : K.Brings level d v y) (hrest : K.Fills level fs es (set y s) t) :
    K.Fills level (f :: fs) ((.name name, v) :: es) s t := by
  subst hname
  exact .given hf hv hrest

theorem Fills.passes (h : K.Fills level fs es s t) :
    ∀ e ∈ es, (∃ name, e.1 = .name name) ∧ K.Passes level e.2 := by
  induction h with
  | nil s => simp
  | given hf hv _ ih => exact List.forall_mem_cons.mpr ⟨⟨⟨_, rfl⟩, hv.passes⟩, ih⟩
  | skipped _ _ ih => exact ih

theorem Fills.names (h : K.Fills level fs es s t) : ∀ e ∈ es, ∃ f ∈ fs, e.1 = .name f.name := by
  induction h with
  | nil s => simp
  | given _ _ _ ih =>
    refine List.forall_mem_cons.mpr ⟨⟨_, List.mem_cons_self, rfl⟩, fun e he => ?_⟩
    obtain ⟨f, hf, hname⟩ := ih e he
    exact ⟨f, List.mem_cons_of_mem _ hf, hname⟩
  | skipped _ _ ih =>
    intro e he
    obtain ⟨f, hf, hname⟩ := ih e he
    exact ⟨f, List.mem_cons_of_mem _ hf, hname⟩

theorem Fills.slots {m : Medium} {carry : Node → Node} (harrives : K.Arrives m carry)
    (h : K.Fills level fs es s t) :
    Read.Slots m fs (es.map fun e => (e.1, carry e.2)) s t := by
  induction h with
  | nil s => exact .nil s
  | given hf hv _ ih =>
    refine .given ?_ ih
    rw [hf]
    simp only [hv.read harrives]
    rfl
  | skipped hreq _ ih => exact .skipped hreq ih

/-- **A record is brought when its fields are.** -/
theorem brings_record {fields : List (Field σ)} {init : σ} (hun : Read.Unambiguous fields)
    (h : K.Fills level fields (es ++ []) init t) :
    K.Brings (level + 1) (Read.record fields init) (.map es) t := by
  rw [List.append_nil] at h
  refine ⟨K.passes_map h.passes, fun harrives => ?_⟩
  rw [(K.form harrives).map, Read.record]
  exact Read.recordEntries_of_slots hun (h.slots harrives)

/-! ### Parts that may be left out -/

variable [Coded α]

theorem brings_option {x y : α} (h : K.Brings level Coded.read (Coded.write x) y)
    (hne : Coded.write x ≠ .null) :
    K.Brings level (Read.option Coded.read) (Coded.write x) (some y) where
  passes := h.passes
  read harrives := by
    have hform := K.form harrives
    rw [Read.option_of_ne_null fun hnull => hne (hform.eq_null hnull), h.read harrives]
    rfl

theorem Fills.optional {set : Option α → σ → σ} {name : String} {o o' : Option α} {g : α → α}
    (hf : f.read = fun m node => (Read.option Coded.read m node).map set) (hname : f.name = name)
    (hreq : f.required = false) (hnone : set none s = s)
    (ho : ∀ x ∈ o, K.Brings level Coded.read (Coded.write x) (g x) ∧ Coded.write x ≠ .null)
    (hmap : o.map g = o') (hrest : K.Fills level fs es (set o' s) t) :
    K.Fills level (f :: fs) (optionalEntry name o ++ es) s t := by
  subst hmap
  cases o with
  | none => exact .skipped hreq (by rwa [Option.map_none, hnone] at hrest)
  | some x =>
    obtain ⟨hx, hne⟩ := ho x rfl
    exact .always hf hname (brings_option hx hne) hrest

theorem Fills.nonempty {set : List α → σ → σ} {name : String} {xs : List α}
    (hf : f.read = fun m node => (Read.list Coded.read m node).map set) (hname : f.name = name)
    (hreq : f.required = false) (hnil : set [] s = s)
    (hxs : ∀ x ∈ xs, K.Brings level Coded.read (Coded.write x) x)
    (hrest : K.Fills (level + 1) fs es (set xs s) t) :
    K.Fills (level + 1) (f :: fs) (nonemptyEntry name xs ++ es) s t := by
  cases xs with
  | nil => exact .skipped hreq (by rwa [hnil] at hrest)
  | cons x xs =>
    have hlist := brings_list hxs
    rw [List.map_id'] at hlist
    exact .always hf hname hlist hrest

end Carriage

end FrameScope
