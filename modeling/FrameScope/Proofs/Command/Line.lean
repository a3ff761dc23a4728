import FrameScope.Command.Line
import FrameScope.Proofs.Outcome
import Mathlib.Data.List.Basic
import Mathlib.Tactic.Common

/-!
# Options on a line

Reading a word changes the scan by options that are known at some place, and every option that is
given is on record in the arguments (`Fair.run`), unless a `--` made the words behind it plain.

`Spelled` says how options are written as words. At a last command the words are taken as the
options they spell (`foldlM_spelled`), and a line that may end there may end behind more options,
for the environment has to stand in for fewer (`finish_of_given`).
-/

namespace FrameScope

/-! ### Options -/

/-- The options of a log filter that come once are on record in the arguments. -/
structure Arguments.Records (a : Arguments) (given : List String) : Prop where
  search : "search" ∈ given → a.search ≠ none
  entity : "entity" ∈ given → a.entity ≠ none
  everything : "all" ∈ given → a.everything = true

namespace Switch

/-- The options of all places. -/
def all : List Switch :=
  [version, index, entity, decimals, level, category, search, everything, source, jurisdiction]
    ++ common

theorem switches_subset_all (p : Place) : p.switches ⊆ all := by
  have hcommon : common ⊆ all := List.subset_append_right _ _
  cases p <;> simp only [Place.switches, List.cons_append, List.nil_append, List.cons_subset,
    hcommon, and_true] <;> simp [all]

variable {o : Switch} {given : List String} {a b : Arguments}

/-- What an option does to the arguments, and that it is on record then. -/
inductive Does (o : Switch) : Prop
  | stops (h : o.effect = .version ∨ o.effect = .help)
  | sets {set : Arguments → Arguments} (h : o.effect = .flag set)
      (records : ∀ {given a}, a.Records given → (set a).Records (o.name :: given))
  | reads {α : Type} {read : String → Option α} {set : α → Arguments → Arguments}
      (h : o.effect = .value fun text a => (read text).map fun x => set x a)
      (records : ∀ {given a} x, a.Records given → (set x a).Records (o.name :: given))

theorem records_other (h : a.Records given) {name : String}
    (hname : name ∉ ["search", "entity", "all"])
    (hsame : (b.search, b.entity, b.everything) = (a.search, a.entity, a.everything)) :
    b.Records (name :: given) := by
  obtain ⟨hsearch, hentity, heverything⟩ := h
  simp only [Prod.mk.injEq] at hsame
  obtain ⟨hsearch', hentity', heverything'⟩ := hsame
  simp only [List.mem_cons, List.not_mem_nil, or_false, not_or, @eq_comm _ name] at hname
  constructor
  · simpa [hsearch', hname] using hsearch
  · simpa [hentity', hname] using hentity
  · simpa [heverything', hname] using heverything

theorem does_of_mem (ho : o ∈ all) : Does o := by
  have hreading {α : Type} {o : Switch} {read : String → Option α} {set : α → Arguments → Arguments}
      (h : o.effect = .value fun text a => (read text).map fun x => set x a)
      (hname : o.name ∉ ["search", "entity", "all"])
      (hset : ∀ x a, ((set x a).search, (set x a).entity, (set x a).everything) =
        (a.search, a.entity, a.everything)) : Does o :=
    .reads h fun x ha => records_other ha hname (hset x _)
  have hflag {o : Switch} {set : Arguments → Arguments} (h : o.effect = .flag set)
      (hname : o.name ∉ ["search", "entity", "all"])
      (hset : ∀ a, ((set a).search, (set a).entity, (set a).everything) =
        (a.search, a.entity, a.everything)) : Does o :=
    .sets h fun ha => records_other ha hname (hset _)
  revert o
  simp only [all, common, List.cons_append, List.nil_append, List.forall_mem_cons]
  refine ⟨?version, ?_, ?entity, ?_, ?_, ?_, ?search, ?everything, ?_, ?_, ?_, ?_, ?_, ?_, ?_, ?_,
    ?_, ?_, ?help, by simp⟩
  case version => exact .stops (.inl rfl)
  case help => exact .stops (.inr rfl)
  case entity =>
    refine .reads rfl fun x ha => ⟨?_, by simp, ?_⟩
    · simpa [entity, reading] using ha.search
    · simpa [entity, reading] using ha.everything
  case search =>
    refine .reads rfl fun x ha => ⟨by simp, ?_, ?_⟩
    · simpa [search, reading] using ha.entity
    · simpa [search, reading] using ha.everything
  case everything =>
    refine .sets rfl fun ha => ⟨?_, ?_, by simp⟩
    · simpa [everything] using ha.search
    · simpa [everything] using ha.entity
  all_goals first
    | exact hreading rfl (by decide) fun _ _ => rfl
    | exact hflag rfl (by decide) fun _ => rfl

end Switch

namespace Scan

variable {s t : Scan} {o : Switch} {text : String}

/-! ### One word -/

theorem note_eq_ok_iff :
    s.note o = .ok t ↔
      (o.name ∈ s.given → o.repeats = true) ∧
        t = { s with given := o.name :: s.given, pending := none } := by
  unfold note
  split
  · rename_i hrepeated
    refine iff_of_false nofun ?_
    rintro ⟨hmay, -⟩
    exact hrepeated.2 (hmay hrepeated.1)
  · rename_i hfree
    have hmay : o.name ∈ s.given → o.repeats = true := by simpa using hfree
    rw [and_iff_right hmay, Except.ok.injEq, eq_comm]

theorem value_eq_ok_iff :
    s.value o text = .ok t ↔
      ∃ set args, o.effect = .value set ∧ (o.name ∈ s.given → o.repeats = true) ∧
        set text s.args = some args ∧
          t = { s with given := o.name :: s.given, pending := none, args := args } := by
  unfold value
  constructor
  · intro h
    split at h
    · rename_i set heffect
      obtain ⟨mid, hmid, h⟩ := except_bind_eq_ok h
      obtain ⟨hmay, rfl⟩ := note_eq_ok_iff.mp hmid
      split at h
      · rename_i args hargs
        exact ⟨set, args, heffect, hmay, hargs, (Except.ok.inj h).symm⟩
      · contradiction
    · contradiction
  · rintro ⟨set, args, heffect, hmay, hset, rfl⟩
    simp only [heffect, note_eq_ok_iff.mpr ⟨hmay, rfl⟩, hset, bind, Except.bind]

theorem option_eq_ok_iff :
    s.option o = .ok t ↔
      (∃ set, o.effect = .flag set ∧ (o.name ∈ s.given → o.repeats = true) ∧
        t = { s with given := o.name :: s.given, pending := none, args := set s.args }) ∨
      ∃ set, o.effect = .value set ∧ t = { s with pending := some o } := by
  unfold option
  constructor
  · intro h
    split at h
    · rename_i set heffect
      obtain ⟨mid, hmid, rfl⟩ := except_map_eq_ok h
      obtain ⟨hmay, rfl⟩ := note_eq_ok_iff.mp hmid
      exact .inl ⟨set, heffect, hmay, rfl⟩
    · rename_i set heffect
      exact .inr ⟨set, heffect, (Except.ok.inj h).symm⟩
    · contradiction
    · contradiction
  · rintro (⟨set, heffect, hmay, rfl⟩ | ⟨set, heffect, rfl⟩)
    · simp only [heffect, note_eq_ok_iff.mpr ⟨hmay, rfl⟩, Except.map]
    · simp only [heffect]

/-- A scan on which no `--` has come up, with the options that are given on record. -/
structure Fair (s : Scan) : Prop where
  literal : s.literal = false
  waits : ∀ o ∈ s.pending, o ∈ Switch.all
  records : s.args.Records s.given

theorem Fair.value (hs : s.Fair) (ho : o ∈ Switch.all) (h : s.value o text = .ok t) : t.Fair := by
  obtain ⟨set, args, heffect, -, hset, rfl⟩ := value_eq_ok_iff.mp h
  refine ⟨hs.literal, by simp, ?_⟩
  cases Switch.does_of_mem ho with
  | stops hstops => rcases hstops with hstops | hstops <;> simp [hstops] at heffect
  | sets hsets => simp [hsets] at heffect
  | reads hreads records =>
    rw [hreads] at heffect
    cases heffect
    obtain ⟨x, -, rfl⟩ := Option.map_eq_some_iff.mp hset
    exact records x hs.records

theorem Fair.option (hs : s.Fair) (ho : o ∈ Switch.all) (h : s.option o = .ok t) : t.Fair := by
  rcases option_eq_ok_iff.mp h with ⟨set, heffect, -, rfl⟩ | ⟨set, heffect, rfl⟩
  · refine ⟨hs.literal, by simp, ?_⟩
    cases Switch.does_of_mem ho with
    | stops hstops => rcases hstops with hstops | hstops <;> simp [hstops] at heffect
    | sets hsets records =>
      rw [hsets] at heffect
      cases heffect
      exact records hs.records
    | reads hreads => simp [hreads] at heffect
  · exact ⟨hs.literal, by simpa using ho, hs.records⟩

theorem mem_all_of_find? {p : Switch → Bool} (h : s.place.switches.find? p = some o) :
    o ∈ Switch.all := Switch.switches_subset_all _ (List.mem_of_find?_eq_some h)

theorem Fair.long {word : List Char} (hs : s.Fair) (h : s.long word = .ok t) : t.Fair := by
  unfold Scan.long at h
  dsimp only at h
  split at h
  · simp at h
  · rename_i o hfound _
    exact hs.option (mem_all_of_find? hfound) h
  · rename_i o _ text hfound _
    exact hs.value (mem_all_of_find? hfound) h

theorem Fair.letters {cs : List Char} (hs : s.Fair) (h : s.letters cs = .ok t) : t.Fair := by
  induction cs generalizing s with
  | nil =>
    rw [Scan.letters] at h
    exact Except.ok.inj h ▸ hs
  | cons c cs ih =>
    rw [Scan.letters] at h
    split at h
    · simp at h
    · rename_i o hfound
      have ho := mem_all_of_find? hfound
      split at h
      · exact hs.value ho h
      · exact hs.value ho h
      · obtain ⟨mid, hmid, hrest⟩ := except_bind_eq_ok h
        exact ih (hs.option ho hmid) hrest

theorem Fair.enter (hs : s.Fair) (p : Place) : (s.enter p).Fair :=
  ⟨hs.literal, hs.waits, nofun, nofun, nofun⟩

theorem Fair.plain {word : String} (hs : s.Fair) (h : s.plain word = .ok t) : t.Fair := by
  unfold Scan.plain at h
  split at h
  · have hrecords := hs.records
    exact Except.ok.inj h ▸
      ⟨hs.literal, hs.waits, hrecords.search, hrecords.entity, hrecords.everything⟩
  · simp at h

theorem Fair.step {word : String} (hs : s.Fair) (hword : word ≠ "--") (h : s.step word = .ok t) :
    t.Fair := by
  unfold Scan.step at h
  split at h
  · rename_i o hpending
    split at h
    · exact hs.value (hs.waits o hpending) h
    · simp at h
  · rw [hs.literal] at h
    split at h
    · unfold topic at h
      split at h
      · exact Except.ok.inj h ▸ ⟨hs.literal, hs.waits, hs.records⟩
      · simp at h
    · simp only [Bool.false_eq_true, if_false] at h
      split at h
      · exact Except.ok.inj h ▸ hs.enter _
      · rename_i hdashes
        exact absurd (String.toList_inj.mp hdashes) hword
      · exact hs.long h
      · exact hs.letters h
      · split at h
        · exact Except.ok.inj h ▸ ⟨rfl, hs.waits, hs.records⟩
        · exact hs.plain h

/-- **Without `--` on a line, the options on it are on record.** -/
theorem Fair.run {words : List String} (hs : s.Fair) (hwords : "--" ∉ words)
    (h : words.foldlM Scan.step s = .ok t) : t.Fair := by
  induction words generalizing s with
  | nil => exact Except.ok.inj h ▸ hs
  | cons word words ih =>
    rw [List.foldlM_cons] at h
    obtain ⟨mid, hmid, hrest⟩ := except_bind_eq_ok h
    rw [List.mem_cons, not_or] at hwords
    exact ih (hs.step (Ne.symm hwords.1) hmid) hwords.2 hrest

/-! ### The end of a line -/

variable {env : Entries String}

theorem finish_eq_ok_iff :
    s.finish env = .ok t ↔
      s.pending = none ∧ s.helping = false ∧
        (∃ a, (s.absent ++ s.missing).foldlM (ofEnvironment env) {} = .ok a) ∧ t = s := by
  unfold finish
  cases s.pending with
  | some o => simp [bind, Except.bind]
  | none =>
    cases s.helping with
    | true => simp [bind, Except.bind]
    | false =>
      cases (s.absent ++ s.missing).foldlM (ofEnvironment env) {} with
      | error e => simp [bind, Except.bind]
      | ok a => simp [bind, Except.bind, eq_comm]

/-- Whether the environment has a value for an option does not depend on the arguments. -/
theorem exists_ofEnvironment (ho : o ∈ Switch.all) {a b : Arguments}
    (h : ofEnvironment env a o = .ok b) (c : Arguments) : ∃ d, ofEnvironment env c o = .ok d := by
  unfold ofEnvironment at h ⊢
  cases Switch.does_of_mem ho with
  | stops hstops => rcases hstops with hstops | hstops <;> simp [hstops]
  | sets hsets => simp [hsets]
  | @reads α read set hreads =>
    rw [hreads] at h ⊢
    cases hvalue : standIn? env o with
    | none => exact ⟨c, rfl⟩
    | some text =>
      cases hread : read text with
      | none => simp [hvalue, hread] at h
      | some x => exact ⟨set x c, by simp [hread]⟩

theorem exists_foldlM_ofEnvironment {os ps : List Switch} (hsub : ps.Sublist os)
    (hos : ∀ o ∈ os, o ∈ Switch.all) {a b : Arguments}
    (h : os.foldlM (ofEnvironment env) a = .ok b) (c : Arguments) :
    ∃ d, ps.foldlM (ofEnvironment env) c = .ok d := by
  induction hsub generalizing a c with
  | slnil => exact ⟨c, rfl⟩
  | cons o hsub ih =>
    rw [List.foldlM_cons] at h
    obtain ⟨mid, -, hrest⟩ := except_bind_eq_ok h
    exact ih (fun p hp => hos p (List.mem_cons_of_mem o hp)) hrest c
  | cons_cons o hsub ih =>
    rw [List.foldlM_cons] at h
    obtain ⟨mid, hmid, hrest⟩ := except_bind_eq_ok h
    obtain ⟨mid', hmid'⟩ := exists_ofEnvironment (hos o List.mem_cons_self) hmid c
    obtain ⟨d, hd⟩ := ih (fun p hp => hos p (List.mem_cons_of_mem o hp)) hrest mid'
    refine ⟨d, ?_⟩
    rw [List.foldlM_cons, hmid']
    exact hd

theorem finish_of_given (h : s.finish env = .ok s) {given : List String} {args : Arguments}
    (hgiven : s.given ⊆ given) :
    ({ s with given := given, args := args } : Scan).finish env =
      .ok { s with given := given, args := args } := by
  obtain ⟨hpending, hhelping, ⟨a, ha⟩, -⟩ := finish_eq_ok_iff.mp h
  refine finish_eq_ok_iff.mpr ⟨hpending, hhelping, ?_, rfl⟩
  rw [List.foldlM_append] at ha ⊢
  obtain ⟨mid, hmid, hmissing⟩ := except_bind_eq_ok ha
  have hsub : (missing { s with given := given, args := args }).Sublist s.missing :=
    List.monotone_filter_right _ fun o ho => by
      simp only [decide_eq_true_eq] at ho ⊢
      exact fun hmem => ho (hgiven hmem)
  have hall : ∀ o ∈ s.missing, o ∈ Switch.all := fun o ho =>
    Switch.switches_subset_all _ (List.mem_of_mem_filter ho)
  obtain ⟨d, hd⟩ := exists_foldlM_ofEnvironment hsub hall hmissing mid
  refine ⟨d, ?_⟩
  rw [hmid]
  exact hd

/-! ### Options behind a command -/

/-- Options, perhaps with values, as words. -/
inductive Spelled : List (Switch × Option String) → List String → Prop
  | nil : Spelled [] []
  | alone {o : Switch} {set : Arguments → Arguments} {options : List (Switch × Option String)}
      {words : List String} : o.effect = .flag set → Spelled options words →
        Spelled ((o, none) :: options) (("--" ++ o.name) :: words)
  /-- A value behind `=` may be any text. -/
  | attached {o : Switch} {text : String} {options : List (Switch × Option String)}
      {words : List String} : Spelled options words →
        Spelled ((o, some text) :: options) (("--" ++ o.name ++ "=" ++ text) :: words)
  /-- A value that is a word of its own does not look like an option. -/
  | apart {o : Switch} {set : String → Arguments → Option Arguments} {text : String}
      {options : List (Switch × Option String)} {words : List String} : o.effect = .value set →
        isValue o text = true → Spelled options words →
          Spelled ((o, some text) :: options) (("--" ++ o.name) :: text :: words)

/-- Options as they are taken one after the other: what is given and the arguments, before and
after. -/
inductive Takes :
    List String → Arguments → List (Switch × Option String) → List String → Arguments → Prop
  | nil (given : List String) (args : Arguments) : Takes given args [] given args
  | flag {o : Switch} {set : Arguments → Arguments} {options : List (Switch × Option String)}
      {given given' : List String} {a a' : Arguments} : o.effect = .flag set →
        (o.name ∈ given → o.repeats = true) → Takes (o.name :: given) (set a) options given' a' →
          Takes given a ((o, none) :: options) given' a'
  | value {o : Switch} {set : String → Arguments → Option Arguments} {text : String}
      {options : List (Switch × Option String)} {given given' : List String} {a b a' : Arguments} :
        o.effect = .value set → (o.name ∈ given → o.repeats = true) → set text a = some b →
          Takes (o.name :: given) b options given' a' →
            Takes given a ((o, some text) :: options) given' a'

namespace Takes

variable {options more : List (Switch × Option String)} {given given' given'' : List String}
  {a b c : Arguments}

theorem append (h : Takes given a options given' b) (hmore : Takes given' b more given'' c) :
    Takes given a (options ++ more) given'' c := by
  induction h with
  | nil => exact hmore
  | flag heffect hmay _ ih => exact .flag heffect hmay (ih hmore)
  | value heffect hmay hset _ ih => exact .value heffect hmay hset (ih hmore)

theorem subset (h : Takes given a options given' b) : given ⊆ given' := by
  induction h with
  | nil => exact List.Subset.refl _
  | flag _ _ _ ih => exact fun n hn => ih (List.mem_cons_of_mem _ hn)
  | value _ _ _ _ ih => exact fun n hn => ih (List.mem_cons_of_mem _ hn)

theorem repeated {α : Type} {o : Switch} {set : String → Arguments → Option Arguments}
    {name : α → String} {put : List α → Arguments} (heffect : o.effect = .value set)
    (hrepeats : o.repeats = true) (hset : ∀ x ys, set (name x) (put ys) = some (put (ys ++ [x])))
    (given : List String) (xs ys : List α) :
    Takes given (put ys) (xs.map fun x => (o, some (name x)))
      (List.replicate xs.length o.name ++ given) (put (ys ++ xs)) := by
  induction xs generalizing given ys with
  | nil =>
    rw [List.append_nil]
    exact .nil _ _
  | cons x xs ih =>
    have hrest := ih (o.name :: given) (ys ++ [x])
    rw [List.append_assoc, List.singleton_append] at hrest
    have hgiven : List.replicate (xs.length + 1) o.name ++ given =
        List.replicate xs.length o.name ++ o.name :: given := by
      rw [List.replicate_succ', List.append_assoc, List.singleton_append]
    exact .value heffect (fun _ => hrepeats) (hset x ys) (hgiven ▸ hrest)

theorem optional {o : Switch} {set : String → Arguments → Option Arguments}
    {put : Option String → Arguments} (heffect : o.effect = .value set)
    (hset : ∀ text, set text (put none) = some (put (some text))) (hgiven : o.name ∉ given)
    (text? : Option String) :
    ∃ given', Takes given (put none) (text?.toList.map fun text => (o, some text)) given'
      (put text?) := by
  cases text? with
  | none => exact ⟨given, .nil _ _⟩
  | some text => exact ⟨_, .value heffect (fun h => absurd h hgiven) (hset text) (.nil _ _)⟩

end Takes

/-- A scan at a last command, between words. -/
structure Ready (s : Scan) : Prop where
  commands : s.place.commands = []
  pending : s.pending = none
  literal : s.literal = false
  helping : s.helping = false

/-- An option that is known at a place by its name. -/
structure Knows (p : Place) (o : Switch) : Prop where
  found : p.switches.find? (·.name = o.name) = some o
  name : o.name.toList ≠ []
  plain : '=' ∉ o.name.toList

theorem step_dashes (hs : s.Ready) {word : String} {cs : List Char} (hcs : cs ≠ [])
    (hword : word.toList = '-' :: '-' :: cs) : s.step word = s.long cs := by
  have hnone : Entries.get? s.place.commands word = none := by rw [hs.commands]; rfl
  obtain ⟨c, cs, rfl⟩ := List.exists_cons_of_ne_nil hcs
  simp only [step, hs.pending, hs.helping, hs.literal, hnone, hword, Bool.false_eq_true, if_false]

theorem long_name (ho : Knows s.place o) (rest : List Char) (hrest : ∀ c ∈ rest.head?, c = '=') :
    s.long (o.name.toList ++ rest) = match rest with
      | [] => s.option o
      | _ :: text => s.value o (String.ofList text) := by
  have hname : ∀ c ∈ o.name.toList, decide (c ≠ '=') = true := fun c hc => by
    simp only [decide_eq_true_eq]
    rintro rfl
    exact ho.plain hc
  have hbefore : rest.takeWhile (· ≠ '=') = [] := by
    cases rest with
    | nil => rfl
    | cons c rest => simp [hrest c rfl]
  have hbehind : rest.dropWhile (· ≠ '=') = rest := by
    cases rest with
    | nil => rfl
    | cons c rest => simp [hrest c rfl]
  rw [long, List.takeWhile_append_of_pos hname, List.dropWhile_append_of_pos hname, hbefore,
    hbehind, List.append_nil, String.ofList_toList, ho.found]
  cases rest <;> rfl

theorem step_alone (hs : s.Ready) (ho : Knows s.place o) :
    s.step ("--" ++ o.name) = s.option o := by
  have hname := long_name ho [] (by simp)
  rw [List.append_nil] at hname
  rw [step_dashes hs ho.name (by simp), hname]

theorem step_attached (hs : s.Ready) (ho : Knows s.place o) (text : String) :
    s.step ("--" ++ o.name ++ "=" ++ text) = s.value o text := by
  have hname := long_name ho ('=' :: text.toList) (by simp)
  have hword : ("--" ++ o.name ++ "=" ++ text).toList =
      '-' :: '-' :: (o.name.toList ++ '=' :: text.toList) := by simp
  rw [step_dashes hs (by simp) hword, hname]
  simp only [String.ofList_toList]

theorem step_waiting (hvalue : isValue o text = true) :
    Scan.step { s with pending := some o } text = s.value o text := by
  simp only [step, hvalue, if_true]
  rfl

/-- **Words that spell options are taken as these options.** -/
theorem foldlM_spelled {options : List (Switch × Option String)} {words given : List String}
    {args : Arguments} (hs : s.Ready) (hknows : ∀ p ∈ options, Knows s.place p.1)
    (h : Spelled options words) (htakes : Takes s.given s.args options given args) :
    words.foldlM Scan.step s = .ok { s with given := given, pending := none, args := args } := by
  induction h generalizing s with
  | nil =>
    cases htakes
    rw [← hs.pending]
    rfl
  | alone _ _ ih =>
    obtain ⟨ho, hknows⟩ := List.forall_mem_cons.mp hknows
    cases htakes with
    | flag heffect hmay hrest =>
      rw [List.foldlM_cons, step_alone hs ho, option_eq_ok_iff.mpr (.inl ⟨_, heffect, hmay, rfl⟩)]
      exact ih ⟨hs.commands, rfl, hs.literal, hs.helping⟩ hknows hrest
  | attached _ ih =>
    obtain ⟨ho, hknows⟩ := List.forall_mem_cons.mp hknows
    cases htakes with
    | value heffect hmay hset hrest =>
      rw [List.foldlM_cons, step_attached hs ho,
        value_eq_ok_iff.mpr ⟨_, _, heffect, hmay, hset, rfl⟩]
      exact ih ⟨hs.commands, rfl, hs.literal, hs.helping⟩ hknows hrest
  | @apart o set text options words heffect hvalue _ ih =>
    obtain ⟨ho, hknows⟩ := List.forall_mem_cons.mp hknows
    cases htakes with
    | value heffect' hmay hset hrest =>
      have htwo : (text :: words).foldlM Scan.step { s with pending := some o } =
          (s.value o text).bind (words.foldlM Scan.step ·) := by
        rw [← step_waiting hvalue]
        rfl
      rw [List.foldlM_cons, step_alone hs ho, option_eq_ok_iff.mpr (.inr ⟨_, heffect, rfl⟩)]
      show List.foldlM Scan.step _ _ = _
      rw [htwo, value_eq_ok_iff.mpr ⟨_, _, heffect', hmay, hset, rfl⟩]
      exact ih ⟨hs.commands, rfl, hs.literal, hs.helping⟩ hknows hrest

end Scan

end FrameScope
