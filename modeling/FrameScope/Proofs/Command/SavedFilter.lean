import FrameScope.Command.Run
import FrameScope.Proofs.Command.Line
import FrameScope.Proofs.Node.Kept
import FrameScope.Proofs.Settings.Reload

/-!
# The saved filter and the filter of a line

There are two ways to choose the entries of a log: the filter that the settings hold, and options on
the line. `LogFilter.options` are the options for a filter. Behind a line for a log they leave
everything but the choice as it was (`ofWords_append_options`), and the filter of that choice is the
one they stand for (`eq_of_choice`).

A filter that is set is the one that is saved, whatever document it was set in
(`savedFilter_of_set`). So both ways show the same log (`logs_saved_eq_options`).
-/

namespace FrameScope

open Scan (Spelled Takes)

/-! ### The options of a filter -/

/-- The choice of a line that has no options of a filter: the saved one. -/
def LogChoice.saved : LogChoice := ⟨false, [], [], none, none⟩

namespace LogFilter

variable {F : LogFilter}

/-- The options that ask for the entries a filter shows. -/
def options (F : LogFilter) : List (Switch × Option String) :=
  (.everything, none) :: (F.activeLevels.map (fun l => (.level, some l.name))
    ++ (F.activeCategories.map (fun c => (.category, some c.name))
      ++ (.search, some F.search) :: F.entity.toList.map fun e => (.entity, some e)))

/-- What these options choose. -/
def choice (F : LogFilter) : LogChoice where
  everything := true
  levels := F.activeLevels
  categories := F.activeCategories
  search := some F.search
  entity := F.entity

theorem ofName_level (l : Level) : Level.ofName l.name = .ok l := by cases l <;> decide +kernel

theorem ofName_category (c : Category) : Category.ofName c.name = .ok c := by
  cases c <;> decide +kernel

theorem knows_options (F : LogFilter) : ∀ p ∈ F.options, Scan.Knows .logs p.1 := by
  have heverything : Scan.Knows .logs .everything := ⟨rfl, by decide, by decide⟩
  have hlevel : Scan.Knows .logs .level := ⟨rfl, by decide, by decide⟩
  have hcategory : Scan.Knows .logs .category := ⟨rfl, by decide, by decide⟩
  have hsearch : Scan.Knows .logs .search := ⟨rfl, by decide, by decide⟩
  have hentity : Scan.Knows .logs .entity := ⟨rfl, by decide, by decide⟩
  simp [options, or_imp, forall_and, heverything, hlevel, hcategory, hsearch, hentity]

/-- **The options of a filter leave its choice in the arguments.** -/
theorem takes_options (F : LogFilter) {given : List String} {a : Arguments} (ha : a.Records given)
    (hsearch : a.search = none) (hentity : a.entity = none) (heverything : a.everything = false) :
    ∃ given', Takes given a F.options given' { a with
      everything := true
      levels := a.levels ++ F.activeLevels
      categories := a.categories ++ F.activeCategories
      search := some F.search
      entity := F.entity } := by
  have hsearch' : "search" ∉ given := fun h => ha.search h hsearch
  have hentity' : "entity" ∉ given := fun h => ha.entity h hentity
  have heverything' : "all" ∉ given := fun h => by simp [ha.everything h] at heverything
  have hlevels (given : List String) := @Takes.repeated Level .level _ Level.name
    (fun ls => { a with everything := true, levels := ls }) rfl rfl
    (fun l ls => by simp [ofName_level, Except.toOption]) given F.activeLevels a.levels
  have hcategories (given : List String) := @Takes.repeated Category .category _ Category.name
    (fun cs => { a with
      everything := true, levels := a.levels ++ F.activeLevels, categories := cs }) rfl rfl
    (fun c cs => by simp [ofName_category, Except.toOption]) given F.activeCategories a.categories
  obtain ⟨given', hrest⟩ := @Takes.optional ("search" ::
      (List.replicate F.activeCategories.length "category" ++
        (List.replicate F.activeLevels.length "level" ++ "all" :: given))) .entity _
    (fun e => { a with
      everything := true
      levels := a.levels ++ F.activeLevels
      categories := a.categories ++ F.activeCategories
      search := some F.search
      entity := e }) rfl (fun _ => rfl)
    (by simp [Switch.entity, Switch.reading, List.mem_replicate, hentity']) F.entity
  rw [← hentity] at hrest
  refine ⟨given', .flag rfl (fun h => absurd h heverything') ?_⟩
  refine (hlevels _).append ((hcategories _).append (.value rfl (fun h => absurd h ?_) rfl hrest))
  simp [List.mem_replicate, Switch.search, Switch.level, Switch.category, Switch.everything,
    Switch.reading, hsearch']

theorem eq_of_choice (hlevels : F.activeLevels ≠ []) (hcategories : F.activeCategories ≠ [])
    (r : Invocation) (fs : Files) : r.filter fs F.choice = .ok F := by
  have hlevels' : (fun l => decide (l ∈ F.activeLevels)) = F.levels := by
    funext l
    simp [activeLevels, Level.mem_all]
  have hcategories' : (fun c => decide (c ∈ F.activeCategories)) = F.categories := by
    funext c
    simp [activeCategories, Category.mem_all]
  have hentity : F.entity.or all.entity = F.entity := by cases F.entity <;> rfl
  show Except.ok (LogFilter.mk _ _ F.search (F.entity.or all.entity)) = _
  rw [hentity]
  congr 2
  · exact (if_neg hlevels).trans hlevels'
  · exact (if_neg hcategories).trans hcategories'

end LogFilter

namespace Invocation

variable {r : Invocation} {env : Entries String} {fs : Files} {line words : List String}
  {index : Option Int} {F : LogFilter}

theorem filter_saved (h : r.savedFilter fs = .ok F) : r.filter fs .saved = .ok F := by
  simp only [filter, LogChoice.saved, h, bind, Except.bind, if_true, Bool.false_eq_true, if_false,
    Option.getD_none, Option.none_or]

theorem ofWords_eq_ok_iff :
    ofWords env line = .ok r ↔ ∃ s command,
      line.foldlM Scan.step { args := fromEnvironment env } = .ok s ∧ s.finish env = .ok s ∧
        Command.ofArguments s.place s.args = .ok command ∧ r = ofCommand command s.args := by
  constructor
  · intro h
    obtain ⟨s, hs, hrest⟩ := except_bind_eq_ok h
    obtain ⟨t, ht, hcommand⟩ := except_bind_eq_ok hrest
    obtain ⟨-, -, -, rfl⟩ := Scan.finish_eq_ok_iff.mp ht
    split at hcommand
    · rename_i command hargs
      exact ⟨t, command, hs, ht, hargs, (Except.ok.inj hcommand).symm⟩
    · contradiction
  · rintro ⟨s, command, hs, hfinish, hcommand, rfl⟩
    simp only [ofWords, hs, hfinish, hcommand, bind, Except.bind]

theorem place_of_logs {place : Place} {a : Arguments} {choice : LogChoice}
    (h : Command.ofArguments place a = .ok (.logs index choice)) :
    place = .logs ∧ a.index = index ∧
      ⟨a.everything, a.levels, a.categories, a.search, a.entity⟩ = choice := by
  cases place with
  | logs =>
    obtain ⟨hindex, hchoice⟩ := Command.logs.inj (Except.ok.inj h)
    exact ⟨rfl, hindex, hchoice⟩
  | importFrames =>
    obtain ⟨_, _, hother⟩ := except_map_eq_ok h
    cases hother
  | insurance =>
    obtain ⟨_, _, hrest⟩ := except_bind_eq_ok h
    obtain ⟨_, _, hother⟩ := except_bind_eq_ok hrest
    cases hother
  | settingsSet =>
    rcases hwords : a.words with _ | ⟨field, _ | ⟨text, _ | _⟩⟩ <;>
      simp [Command.ofArguments, hwords] at h
  | _ => cases h

/-- **A line for a log with the options of a filter behind it asks for the same log, with the filter
as its choice.** -/
theorem ofWords_append_options (h : ofWords env line = .ok r)
    (hlogs : r.command = .logs index .saved)
    (hdashes : "--" ∉ line) (hwords : Spelled F.options words) :
    ofWords env (line ++ words) = .ok { r with command := .logs index F.choice } := by
  obtain ⟨s, command, hscan, hfinish, hcommand, rfl⟩ := ofWords_eq_ok_iff.mp h
  obtain rfl : command = .logs index .saved := hlogs
  obtain ⟨hplace, hindex, hchoice⟩ := place_of_logs hcommand
  simp only [LogChoice.saved, LogChoice.mk.injEq] at hchoice
  obtain ⟨heverything, hlevels, hcategories, hsearch, hentity⟩ := hchoice
  have hstart : Scan.Fair { args := fromEnvironment env } := ⟨rfl, nofun, nofun, nofun, nofun⟩
  have hfair := hstart.run hdashes hscan
  obtain ⟨hpending, hhelping, -, -⟩ := Scan.finish_eq_ok_iff.mp hfinish
  have hready : s.Ready := ⟨by rw [hplace]; rfl, hpending, hfair.literal, hhelping⟩
  obtain ⟨given, htakes⟩ := F.takes_options hfair.records hsearch hentity heverything
  have hknows : ∀ p ∈ F.options, Scan.Knows s.place p.1 := by
    rw [hplace]
    exact F.knows_options
  have htaken := Scan.foldlM_spelled hready hknows hwords htakes
  rw [← hpending] at htaken
  have hline : (line ++ words).foldlM Scan.step { args := fromEnvironment env } =
      words.foldlM Scan.step s := by
    rw [List.foldlM_append, hscan]
    rfl
  refine ofWords_eq_ok_iff.mpr ⟨_, .logs index F.choice, hline.trans htaken,
    Scan.finish_of_given hfinish htakes.subset, ?_, rfl⟩
  rw [hplace]
  simp only [Command.ofArguments, LogFilter.choice, hindex, hlevels, hcategories, List.nil_append]

/-! ### The filter that is set -/

theorem settingOf_wire (F : LogFilter) : settingOf (Coded.wire F) = Coded.json F := by
  have hdecode : (Document.ofChars (Coded.wire F).toList).decode Read.json =
      .ok (Coded.json F) := by
    rw [Coded.toList_wire]
    refine Document.decode_compact (Node.sound_toJson F.plain_write) ?_
    show (Coded.json F).nesting ≤ _
    rw [Settings.nesting_logFilter]
    decide
  rw [settingOf, hdecode]
  rfl

/-- The directory of settings and the document in it are as they were. -/
structure SameSettings (dir : Path) (before after : Files) : Prop where
  directory : after.kind? dir = before.kind? dir
  document : after.kind? (dir ++ [SettingsKey.file dashboardKey]) =
    before.kind? (dir ++ [SettingsKey.file dashboardKey])

/-- **A filter that is set is the saved one from then on.** -/
theorem savedFilter_of_set {fs' later : Files} {answer : Answer} {r' : Invocation}
    (hset : r.changeSettings fs (.set "logFilter" (Coded.wire F)) = (fs', .ok answer))
    (hdir : Files.path r'.settings = Files.path r.settings)
    (hsame : SameSettings (Files.path r.settings) fs' later) : r'.savedFilter later = .ok F := by
  unfold changeSettings at hset
  dsimp only at hset
  rw [settingOf_wire] at hset
  split at hset
  · simp at hset
  · rename_i opened hopen
    split at hset
    · simp at hset
    · rename_i h hload
      obtain ⟨rfl, hresult⟩ := Prod.mk.inj hset
      split at hresult
      · rename_i hok
        obtain ⟨hkept, hlater⟩ := SettingsHandle.load_set_logFilter
          (SettingsStore.hasDirectory_of_open hopen) hload rfl hok
        obtain ⟨h', hload', hfilter⟩ := hlater later hsame.document
        have hisDir : later.isDir (Files.path r.settings) = true := by
          have hkind := hkept _ (Nat.le_refl _)
          rw [List.take_length] at hkind
          simp [Files.isDir, hsame.directory, hkind]
        rw [savedFilter, hdir]
        simp only [hisDir, if_true, hload', hfilter]
      · contradiction

theorem logs_congr {choice choice' : LogChoice} (h : r.filter fs choice = r.filter fs choice') :
    r.logs fs index choice = r.logs fs index choice' := by
  rw [logs, logs, h]

/-- **A saved filter and the same filter on the line show the same log.** Once a filter with some
level and some category is set, a line for a log shows the same with the options of the filter
behind it: whatever the settings were before, on any history, and at any frame. -/
theorem logs_saved_eq_options {r' : Invocation} {fs' later : Files} {answer : Answer} {now : Nat}
    (hlevels : F.activeLevels ≠ []) (hcategories : F.activeCategories ≠ [])
    (hcommand : r'.command = .settings (.set "logFilter" (Coded.wire F)))
    (hdone : r'.run now fs = (fs', .ok answer))
    (hlogs : ofWords env line = .ok r) (hcommand' : r.command = .logs index .saved)
    (hdashes : "--" ∉ line) (hwords : Spelled F.options words)
    (hdir : Files.path r.settings = Files.path r'.settings)
    (hsame : SameSettings (Files.path r'.settings) fs' later) (now' : Nat) :
    ∃ flagged, ofWords env (line ++ words) = .ok flagged ∧
      flagged.run now' later = r.run now' later ∧
        Report.ofWords env (line ++ words) now' later = Report.ofWords env line now' later := by
  have hflagged := ofWords_append_options hlogs hcommand' hdashes hwords
  have hrun : r'.run now fs = r'.changeSettings fs (.set "logFilter" (Coded.wire F)) := by
    rw [run, hcommand]
  have hsaved := filter_saved (savedFilter_of_set (hrun.symm.trans hdone) hdir hsame)
  have hfilter : r.filter later F.choice = r.filter later .saved :=
    (LogFilter.eq_of_choice hlevels hcategories r later).trans hsaved.symm
  have hsame' : ({ r with command := .logs index F.choice } : Invocation).run now' later =
      r.run now' later := by
    rw [run, run, hcommand']
    exact congrArg (later, ·) (logs_congr hfilter)
  refine ⟨_, hflagged, hsame', ?_⟩
  rw [Report.ofWords, Report.ofWords, hflagged, hlogs]
  dsimp only
  rw [hsame']

/-- Warnings of the user interface, of one entity and with some text in them. -/
def warningFilter : LogFilter where
  levels l := l = .warn
  categories c := c = .ui
  search := "Up"
  entity := some "e"

def warningWords : List String :=
  ["--all", "--level=warn", "--category", "ui", "--search=Up", "--entity=e"]

def savingFilter : Invocation :=
  ofCommand (.settings (.set "logFilter" (Coded.wire warningFilter))) { settings := some "c" }

/-- The log of the last frame, whatever its place. -/
def headLogs : List String := ["--settings-dir=c", "logs", "--at", "-1"]

theorem path_savingFilter : Files.path savingFilter.settings = ["c"] :=
  @Files.path_singleton 'c' (by decide)

/-- The filter is set where there are no files, and the log is asked for next. -/
theorem logs_saved_eq_options_warningFilter :
    "--" ∉ headLogs ∧ ∃ fs' answer, savingFilter.run 0 .empty = (fs', .ok answer) ∧
      Report.ofWords [] (headLogs ++ warningWords) 1 fs' = Report.ofWords [] headLogs 1 fs' := by
  have hdashes : "--" ∉ headLogs := by decide
  have hlogs : ofWords [] headLogs = .ok
      (ofCommand (.logs (some (-1)) .saved) { settings := some "c", index := some (-1) }) := rfl
  have hwords : Spelled warningFilter.options warningWords :=
    .alone rfl (.attached (.apart rfl rfl (.attached (.attached .nil))))
  have hdone : (savingFilter.run 0 .empty).2.toOption.isSome = true := by
    show (changeSettings _ _ (.set "logFilter" (Coded.wire warningFilter))).2.toOption.isSome = true
    rw [changeSettings, path_savingFilter]
    decide +kernel
  have hrun : savingFilter.run 0 .empty = (_, .ok _) :=
    Prod.ext rfl (eq_ok_of_isSome hdone (.nothing "" none))
  refine ⟨hdashes, _, _, hrun, ?_⟩
  obtain ⟨-, -, -, hreport⟩ := logs_saved_eq_options (by decide) (by decide) rfl hrun hlogs rfl
    hdashes hwords rfl ⟨rfl, rfl⟩ 1
  exact hreport

end Invocation

end FrameScope
