import DesignRecords.Document.Summary
import DesignRecords.Proofs.Workspace.Damage

namespace DesignRecords

namespace Text

variable {t : Text}

/-- A line that a bracket opens and a bracket closes, whatever stands between them. -/
def Bracketed (t : Text) : Prop := ∃ x, '\n' ∉ x ∧ t = '[' :: (x ++ [']'])

/-- A line with one pair of brackets around it, as a scaffold has it for what is to be filled in. -/
def Template (t : Text) : Prop :=
  ∃ x, '\n' ∉ x ∧ '[' ∉ x ∧ ']' ∉ x ∧ t = '[' :: (x ++ [']'])

/-- Whether an overview tells something of a task. -/
structure Telling (t : Text) : Prop where
  solid : t.blank = false
  drawn : t.trim ≠ defaultArchitecture
  filled : ¬ t.trim.Template

/-- Whether an overview is one line in brackets with more brackets inside, such as a sentence that
starts and ends with a reference. -/
def Referring (t : Text) : Prop :=
  ∃ x, '\n' ∉ x ∧ ('[' ∈ x ∨ ']' ∈ x) ∧ t.trim = '[' :: (x ++ [']'])

theorem bracketed_iff :
    (t.startsWith "[" && t.endsWith "]" && !t.contains '\n') = true ↔ t.Bracketed := by
  rw [Bool.and_eq_true, Bool.and_eq_true, startsWith, endsWith, List.isPrefixOf_iff_prefix,
    List.isSuffixOf_iff_suffix]
  constructor
  · rintro ⟨⟨⟨r, rfl⟩, s, hs⟩, hf⟩
    have hf : '\n' ∉ r := by simpa using hf
    rcases List.eq_nil_or_concat' r with rfl | ⟨x, c, rfl⟩
    · cases s <;> simp at hs
    · rw [← List.append_assoc] at hs
      obtain ⟨-, hc⟩ := List.append_inj' hs rfl
      cases hc
      exact ⟨x, fun hm => hf (by simp [hm]), rfl⟩
  · rintro ⟨x, hf, rfl⟩
    exact ⟨⟨⟨x ++ [']'], rfl⟩, '[' :: x, rfl⟩, by simp [hf]⟩

theorem bracketed_trim_iff : t.trim.Bracketed ↔ t.trim.Template ∨ t.Referring := by
  constructor
  · rintro ⟨x, hf, he⟩
    by_cases hm : '[' ∈ x ∨ ']' ∈ x
    · exact Or.inr ⟨x, hf, hm, he⟩
    · obtain ⟨ho, hc⟩ := not_or.mp hm
      exact Or.inl ⟨x, hf, ho, hc, he⟩
  · rintro (⟨x, hf, -, -, he⟩ | ⟨x, hf, -, he⟩)
    · exact ⟨x, hf, he⟩
    · exact ⟨x, hf, he⟩

theorem Referring.telling (h : t.Referring) : t.Telling := by
  obtain ⟨x, hf, hm, he⟩ := h
  constructor
  · rw [← Bool.not_eq_true, ← trim_eq_nil, he]
    exact List.cons_ne_nil _ _
  · rw [he]
    exact fun hd => by cases (List.cons.inj hd).1
  · rintro ⟨y, -, ho, hc, hy⟩
    rw [he] at hy
    obtain ⟨rfl, -⟩ := List.append_inj' (List.cons.inj hy).2 rfl
    exact hm.elim ho hc

end Text

variable {t c : Text}

theorem isPlaceholder_iff : isPlaceholder t = true ↔
    t.blank = true ∨ t.trim = defaultArchitecture ∨ t.trim.Bracketed := by
  rw [isPlaceholder, Bool.or_eq_true, Bool.or_eq_true, Text.bracketed_iff, or_assoc,
    List.isEmpty_iff, Text.trim_eq_nil, beq_iff_eq]

/-- The test for placeholders takes a telling overview for one just where it refers. -/
theorem isPlaceholder_eq_false_iff : isPlaceholder t = false ↔ t.Telling ∧ ¬ t.Referring := by
  rw [← Bool.not_eq_true, isPlaceholder_iff, Text.bracketed_trim_iff]
  constructor
  · intro h
    obtain ⟨hb, h⟩ := not_or.mp h
    obtain ⟨hd, h⟩ := not_or.mp h
    obtain ⟨ht, hr⟩ := not_or.mp h
    exact ⟨⟨by simpa using hb, hd, ht⟩, hr⟩
  · rintro ⟨⟨hb, hd, ht⟩, hr⟩ (h | h | h | h)
    · rw [hb] at h
      cases h
    · exact hd h
    · exact ht h
    · exact hr h

theorem substance?_settledOverview (t : Text) :
    substance? t.settledOverview = if isPlaceholder t then none else some t.trim := by
  rw [Text.settledOverview]
  split
  next hb =>
    rw [if_pos (isPlaceholder_iff.mpr (Or.inl hb))]
    decide
  next =>
    have htrim : isPlaceholder t.trim = isPlaceholder t := by
      rw [isPlaceholder, isPlaceholder, Text.trim_trim]
    rw [substance?, htrim, Text.trim_trim]

namespace Workspace

variable {w : Workspace} {task : Text} {s : Session} {d : Document}

theorem updateSection_overview_shown (ht : task.Headless) (hc : c.Unheaded)
    (h : (w.updateSection task "overview" c s).1 = .ok d) :
    ∃ e, w.shown task (w.updateSection task "overview" c s).2 = .ok e ∧
      e.overview = c.settledOverview := by
  have hu : Update.ofSection? "overview" c = some (.overview c) := rfl
  obtain ⟨x, s', hread, -⟩ := bind_eq_ok _ _ (updateSection_apply hu ▸ h)
  obtain ⟨t, htext, rfl⟩ := document_eq_ok hread
  have hlasting : (Document.read task t).task.Headless := by rwa [Document.task_read]
  refine ⟨_, updateSection_eq_ok hu htext h, ?_⟩
  rw [Document.overview_revised hlasting rfl]
  exact Document.rereadOverview_of_unheaded hc

/-- An overview that has been recorded is learned from as it should be, except for one that refers:
that is lost. -/
theorem overview_learned_iff (ht : task.Headless) (hc : c.Unheaded)
    (h : (w.updateSection task "overview" c s).1 = .ok d) :
    ∃ e, w.shown task (w.updateSection task "overview" c s).2 = .ok e ∧
      ((c.Telling → e.summary.overview = some c.trim) ∧
        (¬ c.Telling → e.summary.overview = none) ↔ ¬ c.Referring) ∧
      (c.Referring → e.summary.overview = none) := by
  obtain ⟨e, he, ho⟩ := updateSection_overview_shown ht hc h
  have hlesson : e.summary.overview = if isPlaceholder c then none else some c.trim := by
    rw [Document.summary, ho, substance?_settledOverview]
  have hlost : c.Referring → e.summary.overview = none := fun hr => by
    have hp : isPlaceholder c = true := by
      rw [← Bool.not_eq_false, isPlaceholder_eq_false_iff]
      exact fun hn => hn.2 hr
    rw [hlesson, if_pos hp]
  refine ⟨e, he, ⟨fun hall hr => ?_, fun hr => ⟨fun htell => ?_, fun hsilent => ?_⟩⟩, hlost⟩
  · have hkept := hall.1 hr.telling
    rw [hlost hr] at hkept
    cases hkept
  · have hp : isPlaceholder c = false := isPlaceholder_eq_false_iff.mpr ⟨htell, hr⟩
    rw [hlesson, hp]
    rfl
  · have hp : isPlaceholder c = true := by
      rw [← Bool.not_eq_false, isPlaceholder_eq_false_iff]
      exact fun hn => hsilent hn.1
    rw [hlesson, hp]
    rfl

theorem overview_learned_iff_reference :
    Text.Headless "T-1" ∧ Text.Unheaded "See [ADR-1]" ∧
    (sample.updateSection "T-1" "overview" "See [ADR-1]" sparse).1 =
      .ok (sample.stamped { sparseDocument with overview := "See [ADR-1]" }) ∧
    ∃ e, sample.shown "T-1" (sample.updateSection "T-1" "overview" "See [ADR-1]" sparse).2 =
      .ok e ∧ e.summary.overview = some "See [ADR-1]" := by
  have ht : Text.Headless "T-1" := by decide
  have hc : Text.Unheaded "See [ADR-1]" := by decide
  have hdone : (sample.updateSection "T-1" "overview" "See [ADR-1]" sparse).1 =
      .ok (sample.stamped { sparseDocument with overview := "See [ADR-1]" }) := by decide +kernel
  have hout : ∀ x, Text.trim "See [ADR-1]" ≠ '[' :: (x ++ [']']) := by
    rintro x ⟨⟩
  have hrefer : ¬ Text.Referring "See [ADR-1]" := fun ⟨x, _, _, he⟩ => hout x he
  have htell : Text.Telling "See [ADR-1]" :=
    ⟨by decide, by decide, fun ⟨x, _, _, _, he⟩ => hout x he⟩
  obtain ⟨e, he, hlearned, -⟩ := overview_learned_iff ht hc hdone
  exact ⟨ht, hc, hdone, e, he, (hlearned.mpr hrefer).1 htell⟩

/-- A task with a name that starts a section has its overview read from the head of its document. -/
example : (later.shown headedTask (later.updateSection headedTask "overview" "x" headed).2).map
    (·.summary.overview) = .ok (some "**Last Updated:** 2026-03-01T12:00:01Z") := by
  decide +kernel

def references : Text := "[ADR-0003] replaces [ADR-0001]"

/-- A sentence between two references is recorded, and nothing is learned from it. -/
theorem references_unlearned :
    (sample.create "T-1" furnished).1.isOk = true ∧ references.Unheaded ∧ references.Telling ∧
    (sample.updateSection "T-1" "overview" references sparse).1.isOk = true ∧
    (sample.shown "T-1" (sample.updateSection "T-1" "overview" references sparse).2).map
      (fun e => (e.overview, e.summary.overview)) = .ok (references, none) := by
  have hrefer : references.Referring := ⟨"ADR-0003] replaces [ADR-0001", by decide, by decide, rfl⟩
  exact ⟨by decide +kernel, by decide, hrefer.telling, by decide +kernel, by decide +kernel⟩

end Workspace

end DesignRecords
