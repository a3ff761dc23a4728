import FrameScope.Proofs.Json.Literal
import FrameScope.Proofs.Node.Held
import FrameScope.Proofs.Node.Record

/-!
# Another value for one field

When another value stands in the place of a field's (`Node.Alters`), the record that is read changes
by what that field makes of it and by nothing else (`Read.record_of_alters`), in records of named
fields and in those of fields in declaration order.
-/

namespace FrameScope

open Node

variable {σ : Type}

/-- A record in which the field of a name has the value `v`, and the same record with `w` there. -/
inductive Node.Alters (fields : List (Field σ)) (name : String) (v w : Node) : Node → Node → Prop
  | named {k : Key} {f : Field σ} {front back : List (Key × Node)}
      (hfield : Read.fieldOf? fields k = .ok (some f)) (hname : f.name = name) :
      Alters fields name v w (.map (front ++ (k, v) :: back)) (.map (front ++ (k, w) :: back))
  | placed {f : Field σ} {front back : List Node} (hfield : fields[front.length]? = some f)
      (hname : f.name = name) :
      Alters fields name v w (.seq (front ++ v :: back)) (.seq (front ++ w :: back))

namespace Node

variable {fields : List (Field σ)} {name : String} {v w node node' : Node} {level : Nat}

theorem textual_map_iff {es : List (Key × Node)} :
    (Node.map es).Textual level ↔
      0 < level ∧ ∀ e ∈ es, e.1.Literal e.2 ∧ e.2.Textual (level - 1) := by
  rw [Textual]
  refine and_congr_right fun _ => ?_
  induction es with
  | nil => simp [TextualEntries]
  | cons e es ih => rw [TextualEntries, ih, List.forall_mem_cons, and_assoc]

theorem textual_seq_iff {vs : List Node} :
    (Node.seq vs).Textual level ↔ 0 < level ∧ ∀ v ∈ vs, v.Textual (level - 1) := by
  rw [Textual]
  refine and_congr_right fun _ => ?_
  induction vs with
  | nil => simp [TextualItems]
  | cons v vs ih => rw [TextualItems, ih, List.forall_mem_cons]

theorem hasKey_map_eq_false_iff {s : String} {es : List (Key × Node)} :
    (Node.map es).hasKey s = false ↔ ∀ e ∈ es, e.1 ≠ .name s ∧ e.2.hasKey s = false := by
  rw [hasKey]
  induction es with
  | nil => simp [hasKeyEntries]
  | cons e es ih => simp [hasKeyEntries, ih, and_assoc]

theorem hasKey_seq_eq_false_iff {s : String} {vs : List Node} :
    (Node.seq vs).hasKey s = false ↔ ∀ v ∈ vs, v.hasKey s = false := by
  rw [hasKey]
  induction vs with
  | nil => simp [hasKeyItems]
  | cons v vs ih => simp [hasKeyItems, ih]

theorem Alters.textual (h : Alters fields name v w node node') (hnode : node'.Textual level) :
    w.Textual (level - 1) := by
  cases h with
  | @named k _ front back _ _ => exact ((textual_map_iff.mp hnode).2 (k, w) (by simp)).2
  | placed _ _ => exact (textual_seq_iff.mp hnode).2 w (by simp)

theorem Alters.hasKey {s : String} (h : Alters fields name v w node node')
    (hnode : node'.hasKey s = false) : w.hasKey s = false := by
  cases h with
  | @named k _ front back _ _ => exact (hasKey_map_eq_false_iff.mp hnode (k, w) (by simp)).2
  | placed _ _ => exact hasKey_seq_eq_false_iff.mp hnode w (by simp)

end Node

namespace Read

variable {α : Type} {m : Medium} {fields : List (Field σ)} {R : σ → σ → Prop} {d : Decoder α}

/-- Whatever the field reads keeps two records related. -/
def Carries (m : Medium) (R : σ → σ → Prop) (f : Field σ) : Prop :=
  ∀ node set, f.read m node = .ok set → ∀ s t, R s t → R (set s) (set t)

theorem carries_of_commutes {f : Field σ} {set : α → σ → σ} {upd : σ → σ}
    (hf : f.read = fun m node => (d m node).map set)
    (hcomm : ∀ x s, set x (upd s) = upd (set x s)) : Carries m (fun s t => t = upd s) f := by
  rintro node _ hset s t rfl
  rw [hf] at hset
  obtain ⟨x, -, rfl⟩ := except_map_eq_ok hset
  exact hcomm x s

/-! ### Named fields -/

theorem fieldEntries_append (es₁ es₂ : List (Key × Node)) (seen : List String) (s : σ) :
    fieldEntries fields m seen s (es₁ ++ es₂) =
      (fieldEntries fields m seen s es₁).bind fun r => fieldEntries fields m r.1 r.2 es₂ := by
  induction es₁ generalizing seen s with
  | nil => rfl
  | cons e es₁ ih =>
    rw [List.cons_append, fieldEntries, fieldEntries]
    simp only [bind, Except.bind]
    rcases fieldOf? fields e.1 with _ | _ | f
    · rfl
    · cases e.2.skip with
      | error _ => rfl
      | ok _ => exact ih seen s
    · dsimp only
      split
      · rfl
      · cases f.read m e.2 with
        | error _ => rfl
        | ok set => exact ih (f.name :: seen) (set s)

theorem exists_read_of_recordEntries {es : List (Key × Node)} {init s : σ}
    (h : recordEntries fields init m es = .ok s) {e : Key × Node} (he : e ∈ es) {f : Field σ}
    (hf : fieldOf? fields e.1 = .ok (some f)) : ∃ set, f.read m e.2 = .ok set := by
  obtain ⟨front, back, rfl⟩ := List.append_of_mem he
  obtain ⟨_, hentries, -⟩ := except_bind_eq_ok h
  rw [fieldEntries_append] at hentries
  obtain ⟨_, -, hentries⟩ := except_bind_eq_ok hentries
  simp only [fieldEntries, hf, bind, Except.bind] at hentries
  split at hentries
  · simp at hentries
  · obtain ⟨set, hset, -⟩ := except_bind_eq_ok hentries
    exact ⟨set, hset⟩

/-- A field that was given is not given again, so the entries behind it keep records related that
only this field tells apart. -/
theorem fieldEntries_carries {name : String}
    (hfields : ∀ f ∈ fields, f.name ≠ name → Carries m R f) {es : List (Key × Node)}
    {seen seen' : List String} {s t s' : σ} (hseen : name ∈ seen)
    (h : fieldEntries fields m seen s es = .ok (seen', s')) (hst : R s t) :
    ∃ t', fieldEntries fields m seen t es = .ok (seen', t') ∧ R s' t' := by
  induction es generalizing seen s t with
  | nil =>
    simp only [fieldEntries, Except.ok.injEq, Prod.mk.injEq] at h
    obtain ⟨rfl, rfl⟩ := h
    exact ⟨t, rfl, hst⟩
  | cons e es ih =>
    rw [fieldEntries] at h
    obtain ⟨field?, hfield, h⟩ := except_bind_eq_ok h
    simp only [fieldEntries, hfield, bind, Except.bind]
    cases field? with
    | none =>
      obtain ⟨_, hskip, hrest⟩ := except_bind_eq_ok h
      simp only [hskip]
      exact ih hseen hrest hst
    | some f =>
      dsimp only at h ⊢
      split at h
      · simp at h
      · rename_i hfresh
        obtain ⟨set, hset, hrest⟩ := except_bind_eq_ok h
        have hname : f.name ≠ name := fun heq => hfresh (heq ▸ hseen)
        have hcarries := hfields f (mem_of_fieldOf? hfield) hname
        simp only [if_neg hfresh, hset]
        exact ih (List.mem_cons_of_mem _ hseen) hrest (hcarries e.2 set hset s t hst)

/-- The field reads its own values into related changes of a record. -/
def Changes (m : Medium) (R : σ → σ → Prop) (v w : Node) (f : Field σ) : Prop :=
  ∀ set, f.read m v = .ok set → ∃ set', f.read m w = .ok set' ∧ ∀ s, R (set s) (set' s)

theorem recordEntries_of_altered {k : Key} {f : Field σ} {front back : List (Key × Node)}
    {v w : Node} {init s : σ} (hfield : fieldOf? fields k = .ok (some f))
    (hfields : ∀ g ∈ fields, g.name ≠ f.name → Carries m R g) (hchanges : Changes m R v w f)
    (h : recordEntries fields init m (front ++ (k, v) :: back) = .ok s) :
    ∃ t, recordEntries fields init m (front ++ (k, w) :: back) = .ok t ∧ R s t := by
  obtain ⟨⟨seen', s'⟩, hentries, hdone⟩ := except_bind_eq_ok h
  rw [fieldEntries_append] at hentries
  obtain ⟨⟨seen, s₀⟩, hfront, hentries⟩ := except_bind_eq_ok hentries
  simp only [fieldEntries, hfield, bind, Except.bind] at hentries
  split at hentries
  · simp at hentries
  · rename_i hfresh
    obtain ⟨set, hset, hback⟩ := except_bind_eq_ok hentries
    obtain ⟨set', hset', hR⟩ := hchanges set hset
    obtain ⟨t', ht', hst⟩ := fieldEntries_carries hfields List.mem_cons_self hback (hR s₀)
    have haltered : fieldEntries fields m [] init (front ++ (k, w) :: back) = .ok (seen', t') := by
      rw [fieldEntries_append, hfront]
      simp only [Except.bind, fieldEntries, hfield, bind, if_neg hfresh, hset']
      exact ht'
    dsimp only at hdone
    split at hdone
    · simp at hdone
    · rename_i hmissing
      obtain rfl := Except.ok.inj hdone
      refine ⟨t', ?_, hst⟩
      simp only [recordEntries, haltered, bind, Except.bind, hmissing]

/-! ### Fields in declaration order -/

theorem fieldItems_carries (hfields : ∀ f ∈ fields, Carries m R f) {vs : List Node} {s t s' : σ}
    (h : fieldItems m fields s vs = .ok s') (hst : R s t) :
    ∃ t', fieldItems m fields t vs = .ok t' ∧ R s' t' := by
  induction fields generalizing vs s t with
  | nil =>
    cases vs with
    | nil =>
      rw [fieldItems] at h
      exact ⟨t, rfl, Except.ok.inj h ▸ hst⟩
    | cons v vs => simp [fieldItems] at h
  | cons f fields ih =>
    obtain ⟨hf, hrest⟩ := List.forall_mem_cons.mp hfields
    cases vs with
    | nil =>
      rw [fieldItems] at h ⊢
      split at h
      · simp at h
      · rename_i hreq
        rw [if_neg hreq]
        exact ih hrest h hst
    | cons v vs =>
      rw [fieldItems] at h
      obtain ⟨set, hset, h⟩ := except_bind_eq_ok h
      simp only [fieldItems, hset, bind, Except.bind]
      exact ih hrest h (hf v set hset s t hst)

theorem fieldItems_of_altered {f : Field σ} {front back : List Node} {v w : Node} {init s : σ}
    (hfield : fields[front.length]? = some f) (hnames : (fields.map Field.name).Nodup)
    (hfields : ∀ g ∈ fields, g.name ≠ f.name → Carries m R g) (hchanges : Changes m R v w f)
    (h : fieldItems m fields init (front ++ v :: back) = .ok s) :
    ∃ t, fieldItems m fields init (front ++ w :: back) = .ok t ∧ R s t := by
  induction front generalizing fields init with
  | nil =>
    cases fields with
    | nil => simp at hfield
    | cons g fields =>
      obtain rfl : g = f := Option.some.inj hfield
      rw [List.nil_append, fieldItems] at h
      obtain ⟨set, hset, h⟩ := except_bind_eq_ok h
      obtain ⟨set', hset', hR⟩ := hchanges set hset
      have hafter : ∀ g' ∈ fields, Carries m R g' := fun g' hg' =>
        hfields g' (List.mem_cons_of_mem _ hg') fun heq =>
          (List.nodup_cons.mp hnames).1 (heq ▸ List.mem_map_of_mem hg')
      simp only [List.nil_append, fieldItems, hset', bind, Except.bind]
      exact fieldItems_carries hafter h (hR init)
  | cons u front ih =>
    cases fields with
    | nil => simp at hfield
    | cons g fields =>
      rw [List.cons_append, fieldItems] at h
      obtain ⟨set, hset, h⟩ := except_bind_eq_ok h
      simp only [List.cons_append, fieldItems, hset, bind, Except.bind]
      exact ih (by simpa using hfield) (List.nodup_cons.mp hnames).2
        (fun g' hg' => hfields g' (List.mem_cons_of_mem _ hg')) h

/-! ### Records -/

/-- **A record with another value for one field is read into what that field makes of it.** -/
theorem record_of_alters {name : String} {v w node node' : Node} {init s : σ}
    (hnames : (fields.map Field.name).Nodup)
    (hfields : ∀ g ∈ fields, g.name ≠ name → Carries m R g)
    (hchanges : ∀ f ∈ fields, f.name = name → Changes m R v w f)
    (halters : Alters fields name v w node node') (h : record fields init m node = .ok s) :
    ∃ t, record fields init m node' = .ok t ∧ R s t := by
  cases halters with
  | named hfield hname =>
    subst hname
    exact recordEntries_of_altered hfield hfields (hchanges _ (mem_of_fieldOf? hfield) rfl) h
  | placed hfield hname =>
    subst hname
    exact fieldItems_of_altered hfield hnames hfields
      (hchanges _ (List.mem_of_getElem? hfield) rfl) h

end Read

end FrameScope
