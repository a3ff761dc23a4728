import FrameScope.Log.Filter
import FrameScope.Proofs.Text.Lower

/-!
# Searching a log for a text that stands in it

The search text and the message are put in lower case each on its own, and a capital sigma is put
there by what stands around it. So a message that has the search text in it as it stands is found
wherever the sigmas of that place read as they do alone (`finds_of_readsAlike`), and a search text is
found in all messages that have it exactly when none of its sigmas is open
(`LogFilter.shows_literal_match_iff`): the text `Σ` is not found in `ΟΔΟΣ`.
-/

namespace FrameScope

open Text

/-! ### Texts in texts -/

theorem Text.occursIn_iff {needle cs : List Char} : occursIn needle cs = true ↔ needle <:+: cs := by
  induction cs with
  | nil => rw [occursIn, List.isEmpty_iff, List.infix_nil]
  | cons c cs ih =>
    rw [occursIn, Bool.or_eq_true, List.isPrefixOf_iff_prefix, ih, List.infix_cons_iff]

theorem Text.not_infix_cons {needle cs : List Char} {c : Char} (hlength : needle.length = cs.length)
    (hne : cs ≠ needle) (hc : needle.head? ≠ some c) : ¬ needle <:+: c :: cs := by
  intro h
  rcases List.infix_cons_iff.mp h with hstart | hrest
  · cases needle with
    | nil => exact hne (List.eq_nil_of_length_eq_zero hlength.symm)
    | cons d needle => exact hc (congrArg some (List.cons_prefix_cons.mp hstart).1)
  · exact hne (hrest.eq_of_length hlength).symm

theorem Text.not_infix_concat {needle cs : List Char} {c : Char}
    (hlength : needle.length = cs.length) (hne : cs ≠ needle) (hc : needle.getLast? ≠ some c) :
    ¬ needle <:+: cs ++ [c] := by
  intro h
  have hreverse : needle.reverse <:+: c :: cs.reverse := by
    have hrev := List.reverse_infix.mpr h
    rwa [List.reverse_append, List.reverse_singleton, List.singleton_append] at hrev
  refine not_infix_cons ?_ (fun heq => hne (List.reverse_injective heq)) ?_ hreverse
  · rw [List.length_reverse, List.length_reverse, hlength]
  · rwa [List.head?_reverse]

theorem Text.exists_other_letter (o : Option Char) :
    ∃ c, IsLetter c ∧ c ≠ 'Σ' ∧ lowerOf c = [c] ∧ o ≠ some c := by
  by_cases ho : o = some 'a'
  · refine ⟨'b', ⟨?_, ?_⟩, ?_, ?_, by simp [ho]⟩ <;> decide +kernel
  · refine ⟨'a', ⟨?_, ?_⟩, ?_, ?_, ho⟩ <;> decide +kernel

namespace LogFilter

variable {f : LogFilter} {e : LogEntry}

theorem finds_iff {message : String} :
    f.finds message = true ↔ lower f.search.toList <:+: lower message.toList := by
  rw [finds, occursIn_iff]

theorem shows_iff_finds (hlevel : f.levels e.level = true) (hcategory : f.categories e.category = true)
    (hentity : f.admits e.entity = true) (message : String) :
    f.shows { e with message := message } = true ↔ f.finds message = true := by
  simp only [shows, hlevel, hcategory, hentity, Bool.true_and, Bool.and_true]

/-! ### Places that read alike -/

/-- **A message is found by a text that stands in it where the text's sigmas read as they do
alone.** -/
theorem finds_of_readsAlike {message : String} {before behind : List Char}
    (hmessage : message.toList = before ++ f.search.toList ++ behind)
    (halike : ReadsAlike before.reverse behind [] [] f.search.toList) : f.finds message = true := by
  rw [finds_iff, hmessage, lower_append_append, lowerBetween_eq_iff.mpr halike,
    ← lower_eq_lowerBetween]
  exact List.infix_append _ _ _

theorem finds_of_not_open {message : String} (hopen : openSigma f.search.toList = false)
    (h : f.search.toList <:+: message.toList) : f.finds message = true := by
  obtain ⟨before, behind, hmessage⟩ := h
  exact finds_of_readsAlike hmessage.symm (readsAlike_of_not_open hopen _ _)

/-! ### Open sigmas -/

theorem not_finds_behind {c : Char} (hc : c ≠ 'Σ') (hlower : lowerOf c = [c])
    (hstart : (lower f.search.toList).head? ≠ some c)
    (hchanges : ¬ ReadsAlike [c] [] [] [] f.search.toList) :
    f.finds (String.ofList (c :: f.search.toList)) = false := by
  have hmessage : lower (c :: f.search.toList) = c :: lowerBetween [c] f.search.toList [] := by
    rw [lower_eq_lowerBetween, lowerBetween, if_neg hc, hlower, List.singleton_append]
  rw [← Bool.not_eq_true, finds_iff, String.toList_ofList, hmessage]
  rw [lower_eq_lowerBetween] at hstart ⊢
  exact not_infix_cons (length_lowerBetween ..) (mt lowerBetween_eq_iff.mp hchanges) hstart

theorem not_finds_before {c : Char} (hc : c ≠ 'Σ') (hlower : lowerOf c = [c])
    (hend : (lower f.search.toList).getLast? ≠ some c)
    (hchanges : ¬ ReadsAlike [] [c] [] [] f.search.toList) :
    f.finds (String.ofList (f.search.toList ++ [c])) = false := by
  have hmessage : lower (f.search.toList ++ [c]) = lowerBetween [] f.search.toList [c] ++ [c] := by
    rw [lower, lowerFrom_append, lowerFrom, lowerFrom, if_neg hc, hlower, List.append_nil]
  rw [← Bool.not_eq_true, finds_iff, String.toList_ofList, hmessage]
  rw [lower_eq_lowerBetween] at hend ⊢
  exact not_infix_concat (length_lowerBetween ..) (mt lowerBetween_eq_iff.mp hchanges) hend

theorem exists_not_finds_of_open (hopen : openSigma f.search.toList = true) :
    ∃ message : String, f.search.toList <:+: message.toList ∧ f.finds message = false := by
  rcases exists_letter_of_open hopen with hbehind | hbefore
  · obtain ⟨c, hletter, hc, hlower, hstart⟩ := exists_other_letter (lower f.search.toList).head?
    refine ⟨_, ?_, not_finds_behind hc hlower hstart (hbehind c hletter)⟩
    rw [String.toList_ofList]
    exact (List.suffix_cons c _).isInfix
  · obtain ⟨c, hletter, hc, hlower, hend⟩ := exists_other_letter (lower f.search.toList).getLast?
    refine ⟨_, ?_, not_finds_before hc hlower hend (hbefore c hletter)⟩
    rw [String.toList_ofList]
    exact (List.prefix_append _ _).isInfix

/-- **A text that stands in the messages themselves is found in all of them exactly when it has no
open sigma.** One that has is still found where its sigmas read as they do alone. -/
theorem shows_literal_match_iff (hlevel : f.levels e.level = true)
    (hcategory : f.categories e.category = true) (hentity : f.admits e.entity = true) :
    ((∀ message : String, f.search.toList <:+: message.toList →
        f.shows { e with message := message } = true) ↔ openSigma f.search.toList = false) ∧
      ∀ before behind, e.message.toList = before ++ f.search.toList ++ behind →
        ReadsAlike before.reverse behind [] [] f.search.toList → f.shows e = true := by
  have hshows := shows_iff_finds hlevel hcategory hentity
  refine ⟨⟨fun hall => ?_, fun hopen message h => ?_⟩, fun before behind hmessage halike => ?_⟩
  · by_contra hopen
    obtain ⟨message, hmessage, hnot⟩ := exists_not_finds_of_open (Bool.not_eq_false _ ▸ hopen)
    rw [(hshows message).mp (hall message hmessage)] at hnot
    exact Bool.noConfusion hnot
  · exact (hshows message).mpr (finds_of_not_open hopen h)
  · exact (hshows e.message).mpr (finds_of_readsAlike hmessage halike)

/-- Looks for a street in capitals. -/
def streetFilter : LogFilter := { all with search := "ΟΔΟΣ" }

/-- The street and a number behind it. -/
def streetEntry : LogEntry := ⟨.info, .ui, "ΕΡΜΟΥ (ΟΔΟΣ) 5", none, none⟩

theorem shows_literal_match_iff_streetEntry :
    streetFilter.levels streetEntry.level = true ∧
      streetFilter.categories streetEntry.category = true ∧
        streetFilter.admits streetEntry.entity = true ∧ streetFilter.shows streetEntry = true ∧
          ¬ ∀ message : String, streetFilter.search.toList <:+: message.toList →
            streetFilter.shows { streetEntry with message := message } = true := by
  obtain ⟨hall, hplace⟩ := shows_literal_match_iff (f := streetFilter) (e := streetEntry) rfl rfl rfl
  have halike : ReadsAlike "ΕΡΜΟΥ (".toList.reverse ") 5".toList [] [] streetFilter.search.toList :=
    lowerBetween_eq_iff.mp (by decide +kernel)
  have hopen : openSigma streetFilter.search.toList = true := by decide +kernel
  refine ⟨rfl, rfl, rfl, hplace _ _ (by decide +kernel) halike, fun h => ?_⟩
  rw [hall.mp h] at hopen
  exact Bool.noConfusion hopen

/-- A text is not always found where it stands: a sigma alone is not found at the end of a word. -/
theorem not_shows_literal_match_sigma :
    ¬ ∀ (f : LogFilter) (e : LogEntry), f.levels e.level = true → f.categories e.category = true →
      f.admits e.entity = true → f.search.toList <:+: e.message.toList → f.shows e = true := by
  intro hclaim
  have hshows := hclaim { all with search := "Σ" } ⟨.info, .ui, "ΟΔΟΣ", none, none⟩ rfl rfl rfl
    ⟨"ΟΔΟ".toList, [], by decide +kernel⟩
  have hhidden : shows { all with search := "Σ" } ⟨.info, .ui, "ΟΔΟΣ", none, none⟩ = false := by
    decide +kernel
  rw [hhidden] at hshows
  exact Bool.noConfusion hshows

end LogFilter

end FrameScope
