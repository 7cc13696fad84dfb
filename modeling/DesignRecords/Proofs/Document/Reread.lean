import DesignRecords.Proofs.Document.Reading
import DesignRecords.Proofs.Document.Unheaded
import DesignRecords.Proofs.Text.Ink

namespace DesignRecords

namespace Section

variable {ls : List Text} {place : Place}

theorem grouped_cases {α : Type} (isHead : α → Bool) (xs : List α) :
    (∀ x ∈ xs, isHead x = false) ∨
      ∃ x rest, isHead x = true ∧ x ∈ xs ∧ xs = (grouped isHead xs).1 ++ x :: rest := by
  induction xs with
  | nil => exact Or.inl (by simp)
  | cons y xs ih =>
    cases hy : isHead y with
    | true => exact Or.inr ⟨y, xs, hy, by simp, by simp [grouped, hy]⟩
    | false =>
      rcases ih with ih | ⟨x, rest, hx, hm, he⟩
      · exact Or.inl (by simpa [hy] using ih)
      · have hg : (grouped isHead (y :: xs)).1 = y :: (grouped isHead xs).1 := by
          simp [grouped, hy]
        refine Or.inr ⟨x, rest, hx, List.mem_cons_of_mem y hm, ?_⟩
        rw [hg, List.cons_append, ← he]

/-- Lines that start sections of their own have a header behind those that are read. -/
theorem quiet_or_header (ls : List Text) :
    Quiet ls ∨ ∃ head rest, isHeader head = true ∧ ls = (opened ls).1 ++ head :: rest := by
  rcases grouped_cases (·.1) (marked .opening ls) with h | ⟨m, rest, hm, hmem, he⟩
  · exact Or.inl h
  · refine Or.inr ⟨m.2, rest.map (·.2), isHeader_of_mem_marked hmem hm, ?_⟩
    have hl := congrArg (List.map (·.2)) he
    rwa [marked_lines, List.map_append, List.map_cons] at hl

theorem ink_of_isHeader {l : Text} (h : isHeader l = true) : 2 ≤ Text.ink l := by
  obtain ⟨s, rfl⟩ := isHeader_iff.mp h
  have hs : Text.ink ('#' :: '#' :: ' ' :: s) = 2 + Text.ink s :=
    Text.ink_append (s := ['#', '#', ' '])
  omega

end Section

namespace Document

open Section

variable {t : Text}

/-- The lines of a text that stand between blank lines, as they are read. -/
theorem trim_body (h : t.Firm) :
    Text.trim (Text.ofLines ([] :: Text.broken t ++ [[]])) = t.trim := by
  rw [Text.trim_ofLines_between (Text.broken_ne_nil t), h, Text.ofLines_splitOn]

/-- A block of code is read as it was written, without blank lines in front and blanks behind. -/
theorem withoutFence_block (h : t.Firm) :
    withoutFence (Text.trim (Text.ofLines
      ([] :: (diagramLine :: Text.broken t ++ [Label.fence]) ++ [[]]))) = t.block := by
  have hs : (diagramLine :: t.splitOn '\n').flatMap Text.broken = diagramLine :: t.splitOn '\n' :=
    congrArg (diagramLine :: ·) h.broken_splitOn
  have he : Text.trimEnd Label.fence = Label.fence := rfl
  have hsolid : Text.trim (Text.ofLines (diagramLine :: t.splitOn '\n' ++ [Label.fence])) =
      Text.ofLines (diagramLine :: t.splitOn '\n' ++ [Text.trimEnd Label.fence]) :=
    Text.trim_ofLines_of_solid rfl rfl
  have hl : Text.lines (Text.trim (Text.ofLines
      ([] :: (diagramLine :: Text.broken t ++ [Label.fence]) ++ [[]]))) =
      diagramLine :: t.splitOn '\n' ++ [Label.fence] := by
    rw [Text.trim_ofLines_between (by simp), h, hsolid, he,
      Text.lines_ofLines_concat hs (by decide) (by decide)]
  have hf : isFence diagramLine = true := rfl
  have hb : isBareFence Label.fence = true := rfl
  rw [withoutFence, hl]
  simp [hf, hb, Text.block]

theorem forall_orIfBlank {p : Text → Prop} {other : Text} (h : p t) (ho : p other) :
    p (orIfBlank t other) := by
  unfold orIfBlank
  split
  · exact ho
  · exact h

/-- An overview without headers starts no section. -/
theorem quiet_overviewLinesOf (hr : '\r' ∉ t) (h : ∀ l ∈ t.lines, Section.isHeader l = false) :
    Quiet (overviewLinesOf t) := by
  have hr : '\r' ∉ orIfBlank t overviewPlaceholder :=
    forall_orIfBlank (p := ('\r' ∉ ·)) hr (by decide)
  have h : ∀ l ∈ (orIfBlank t overviewPlaceholder).lines, Section.isHeader l = false :=
    forall_orIfBlank (p := fun t => ∀ l ∈ t.lines, Section.isHeader l = false) h (by decide)
  rw [overviewLinesOf, Text.broken_of_no_return hr]
  apply quiet_of_forall
  intro l hl
  simp only [List.mem_append, List.mem_cons, List.not_mem_nil, or_false] at hl
  rcases hl with (rfl | hl) | rfl
  · rfl
  · exact Text.forall_splitOn (p := (Section.isHeader · = false)) hr rfl h l hl
  · rfl

/-- A diagram without headers, or without fences that leave headers open to view, starts none. -/
theorem quiet_architectureLinesOf (hr : '\r' ∉ t)
    (h : (∀ l ∈ t.lines, Section.isHeader l = false) ∨ ∀ l ∈ t.lines, isFence l = false) :
    Quiet (architectureLinesOf t) := by
  have hr : '\r' ∉ orIfBlank t defaultArchitecture :=
    forall_orIfBlank (p := ('\r' ∉ ·)) hr (by decide)
  have h : (∀ l ∈ (orIfBlank t defaultArchitecture).lines, Section.isHeader l = false) ∨
      ∀ l ∈ (orIfBlank t defaultArchitecture).lines, isFence l = false :=
    forall_orIfBlank (p := fun t => (∀ l ∈ t.lines, Section.isHeader l = false) ∨
      ∀ l ∈ t.lines, isFence l = false) h (by decide)
  rw [architectureLinesOf, Text.broken_of_no_return hr]
  rcases h with h | h
  · apply quiet_of_forall
    intro l hl
    simp only [List.mem_append, List.mem_cons, List.not_mem_nil, or_false] at hl
    rcases hl with (rfl | rfl | hl) | rfl | rfl
    · rfl
    · rfl
    · exact Text.forall_splitOn (p := (Section.isHeader · = false)) hr rfl h l hl
    · rfl
    · rfl
  · exact quiet_of_fenced rfl rfl rfl (Text.forall_splitOn (p := (isFence · = false)) hr rfl h)

/-- An overview that starts no section is read back as it was written. -/
theorem rereadOverview_of_quiet (hf : (orIfBlank t overviewPlaceholder).Firm)
    (hq : Quiet (overviewLinesOf t)) : rereadOverview t = t.settledOverview := by
  rw [rereadOverview, opened_of_quiet hq, overviewLinesOf, trim_body hf, orIfBlank,
    apply_ite Text.trim]
  rfl

/-- A diagram that starts no section is read back as it was written. -/
theorem rereadArchitecture_of_quiet (hf : (orIfBlank t defaultArchitecture).Firm)
    (hq : Quiet (architectureLinesOf t)) : rereadArchitecture t = t.settledArchitecture := by
  have hl : architectureLinesOf t = [] :: (diagramLine ::
      Text.broken (orIfBlank t defaultArchitecture) ++ [Label.fence]) ++ [[]] := by
    simp [architectureLinesOf]
  rw [rereadArchitecture, opened_of_quiet hq, hl, withoutFence_block hf, orIfBlank,
    apply_ite Text.block]
  rfl

theorem firm_orIfBlank {other : Text} (h : '\r' ∉ t) (ho : '\r' ∉ other) :
    (orIfBlank t other).Firm :=
  Text.firm_of_no_return (forall_orIfBlank (p := ('\r' ∉ ·)) h ho)

theorem rereadOverview_of_unheaded (h : t.Unheaded) : rereadOverview t = t.settledOverview :=
  rereadOverview_of_quiet (firm_orIfBlank h.returns (by decide))
    (quiet_overviewLinesOf h.returns h.headers)

theorem rereadArchitecture_of_unheaded (h : t.Unheaded) :
    rereadArchitecture t = t.settledArchitecture :=
  rereadArchitecture_of_quiet (firm_orIfBlank h.returns (by decide))
    (quiet_architectureLinesOf h.returns (Or.inl h.headers))

theorem orIfBlank_of_not {other : Text} (h : t.blank = false) : orIfBlank t other = t := by
  rw [orIfBlank, h]
  rfl

/-- An overview that is read back whole is not blank, for a blank one is written as the
placeholder. -/
theorem blank_of_rereadOverview (h : rereadOverview t = t) : t.blank = false := by
  rw [← Bool.not_eq_true]
  intro hb
  have hp : rereadOverview t = overviewPlaceholder := by
    rw [rereadOverview, overviewLinesOf, orIfBlank, if_pos hb]
    decide
  rw [← h, hp] at hb
  cases hb

theorem blank_of_rereadArchitecture (h : rereadArchitecture t = t) : t.blank = false := by
  rw [← Bool.not_eq_true]
  intro hb
  have hp : rereadArchitecture t = defaultArchitecture := by
    rw [rereadArchitecture, architectureLinesOf, orIfBlank, if_pos hb]
    decide
  rw [← h, hp] at hb
  cases hb

/-- An overview that is read back whole starts no section: what is read stops before the header, so
it would be shorter. -/
theorem quiet_of_rereadOverview (h : rereadOverview t = t) : Quiet (overviewLinesOf t) := by
  rcases quiet_or_header (overviewLinesOf t) with hq | ⟨head, rest, hh, hl⟩
  · exact hq
  · exfalso
    have ht : Text.ink (Text.ofLines (opened (overviewLinesOf t)).1) = Text.ink t := by
      rw [← Text.ink_trim]
      exact congrArg Text.ink h
    have hw : Text.ink (overviewLinesOf t).flatten = Text.ink t := by
      rw [overviewLinesOf, orIfBlank_of_not (blank_of_rereadOverview h)]
      simp [Text.ink_flatten_broken]
    rw [Text.ink_ofLines] at ht
    rw [hl, List.flatten_append, List.flatten_cons, Text.ink_append, Text.ink_append, ht] at hw
    have hi := ink_of_isHeader hh
    omega

theorem ink_withoutFence_le {l : Text} {rest : List Text} (h : t.lines = l :: rest)
    (hf : isFence l = true) : Text.ink (withoutFence t) ≤ Text.ink rest.flatten := by
  rw [withoutFence, h]
  simp only [hf, Bool.not_true, Bool.false_eq_true, if_false]
  rw [Text.ink_trimEnd, Text.ink_ofLines]
  refine Text.ink_flatten_le ((List.dropWhile_sublist _).trans ?_)
  split
  · exact List.dropLast_sublist rest
  · exact List.Sublist.refl rest

/-- The first line of a diagram's section is the fence above it. -/
theorem exists_lines_fenced (ls : List Text) : ∃ rest,
    Text.lines (Text.trim (Text.ofLines ([] :: diagramLine :: ls))) = diagramLine :: rest ∧
      Text.ink rest.flatten = Text.ink ls.flatten := by
  have hs : Text.trimEnd diagramLine = diagramLine := rfl
  have hd : Text.lines diagramLine = [diagramLine] := rfl
  have hb : ∀ s : Text, s.blank = true → Text.trim ('\n' :: (diagramLine ++ s)) = diagramLine := by
    intro s hb
    have ht : Text.trimEnd (diagramLine ++ s) = diagramLine := Text.trimEnd_append_of_blank hb
    exact ht
  have hf : Text.ofLines ([] :: diagramLine :: ls) = '\n' :: Text.ofLines (diagramLine :: ls) :=
    Text.ofLines_cons [] (by simp)
  rw [hf]
  by_cases hn : ls = []
  · refine ⟨[], ?_, by simp [hn]⟩
    have he := hb [] rfl
    rw [hn, Text.ofLines_singleton]
    rw [List.append_nil] at he
    rw [he, hd]
  · rw [Text.ofLines_cons diagramLine hn]
    cases hl : (Text.ofLines ls).blank with
    | true =>
      refine ⟨[], ?_, ?_⟩
      · rw [hb _ (by rw [Text.blank_cons, hl]; rfl), hd]
      · rw [← Text.ink_ofLines ls, Text.ink_of_blank hl]
        rfl
    | false =>
      have ht : Text.trim ('\n' :: (diagramLine ++ '\n' :: Text.ofLines ls)) =
          diagramLine ++ '\n' :: (Text.ofLines ls).trimEnd :=
        Text.trimEnd_append_of_not (s := diagramLine ++ ['\n']) hl
      refine ⟨Text.lines (Text.ofLines ls).trimEnd, ?_, ?_⟩
      · rw [ht, Text.lines_piece (by decide)]
        rfl
      · rw [Text.ink_flatten_lines, Text.ink_trimEnd, Text.ink_ofLines]

/-- A header among the lines of a diagram stands before the fence below it. -/
theorem exists_append_of_header {ls front rest : List Text} {head : Text}
    (hh : Section.isHeader head = true)
    (hl : ls ++ [Label.fence, []] = front ++ head :: rest) :
    ∃ tail, ls = front ++ head :: tail := by
  rcases List.append_eq_append_iff.mp hl with ⟨xs, -, he⟩ | ⟨xs, he, ht⟩
  · have hm : head ∈ [Label.fence, []] := by
      rw [he]
      simp
    rcases (by simpa using hm : head = Label.fence ∨ head = []) with rfl | rfl <;> cases hh
  · cases xs with
    | nil =>
      cases (List.cons.inj ht).1
      cases hh
    | cons x xs =>
      obtain ⟨rfl, -⟩ := List.cons.inj ht
      exact ⟨xs, he⟩

theorem quiet_of_rereadArchitecture (h : rereadArchitecture t = t) :
    Quiet (architectureLinesOf t) := by
  rcases quiet_or_header (architectureLinesOf t) with hq | ⟨head, rest, hh, hl⟩
  · exact hq
  · exfalso
    have hw : architectureLinesOf t =
        [] :: diagramLine :: (Text.broken t ++ [Label.fence, []]) := by
      rw [architectureLinesOf, orIfBlank_of_not (blank_of_rereadArchitecture h)]
      rfl
    have ho : rereadArchitecture t =
        withoutFence (Text.trim (Text.ofLines (opened (architectureLinesOf t)).1)) := rfl
    rw [h] at ho
    generalize (opened (architectureLinesOf t)).1 = front at hl ho
    rw [hw] at hl
    match front, hl with
    | [], hl =>
      cases (List.cons.inj hl).1
      cases hh
    | [_], hl =>
      cases (List.cons.inj (List.cons.inj hl).2).1
      cases hh
    | x :: y :: front, hl =>
      obtain ⟨hx, hbehind⟩ := List.cons.inj hl
      obtain ⟨hy, hinner⟩ := List.cons.inj hbehind
      subst x y
      obtain ⟨tail, hb⟩ := exists_append_of_header hh hinner
      obtain ⟨inner, hi, hink⟩ := exists_lines_fenced front
      have hle : Text.ink t ≤ Text.ink front.flatten := by
        rw [← hink]
        conv_lhs => rw [ho]
        exact ink_withoutFence_le hi rfl
      have ht : Text.ink t = Text.ink (Text.broken t).flatten := (Text.ink_flatten_broken t).symm
      rw [hb, List.flatten_append, List.flatten_cons, Text.ink_append, Text.ink_append] at ht
      have hm := ink_of_isHeader hh
      omega

/-- Whether a free text keeps to its section: none of the headers in it has the name of one of the
sections behind it, and what is read back of it is read back whole from then on. -/
structure Contained (written : Text → List Text) (reread : Text → Text) (behind : List Heading)
    (t : Text) : Prop where
  strays : ∀ s ∈ (opened (written t)).2, ∀ h ∈ behind,
    Text.sameIgnoringCase s.header h.text = false
  steady : reread (reread t) = reread t

/-- The sections whose headers an overview must not have. -/
def behindOverview : List Heading := [.architecture, .components, .decisions, .adrs, .requirements]

/-- The sections whose headers a diagram must not have. -/
def behindArchitecture : List Heading := [.components, .decisions, .adrs, .requirements]

abbrev OverviewContained : Text → Prop := Contained overviewLinesOf rereadOverview behindOverview

abbrev ArchitectureContained : Text → Prop :=
  Contained architectureLinesOf rereadArchitecture behindArchitecture

variable {written : Text → List Text} {reread : Text → Text} {behind : List Heading}

instance : Decidable (Contained written reread behind t) :=
  decidable_of_iff ((∀ s ∈ (opened (written t)).2, ∀ h ∈ behind,
      Text.sameIgnoringCase s.header h.text = false) ∧ reread (reread t) = reread t)
    ⟨fun ⟨strays, steady⟩ => ⟨strays, steady⟩, fun ⟨strays, steady⟩ => ⟨strays, steady⟩⟩

theorem Contained.of_quiet (h : reread t = t) (hq : Quiet (written t)) :
    Contained written reread behind t where
  strays := by simp [opened_of_quiet hq]
  steady := by rw [h, h]

/-- An overview without headers keeps to its section, unless a header comes to stand at its start
when the blanks before it are cut. -/
theorem overviewContained_of_unheaded (h : t.Unheaded)
    (hs : isHeader t.settledOverview = false) : OverviewContained t where
  strays := by simp [opened_of_quiet (quiet_overviewLinesOf h.returns h.headers)]
  steady := by
    rw [rereadOverview_of_unheaded h, rereadOverview_of_unheaded (h.settledOverview hs),
      Text.settledOverview_settledOverview]

/-- A diagram without headers keeps to its section. -/
theorem architectureContained_of_unheaded (h : t.Unheaded) : ArchitectureContained t where
  strays := by simp [opened_of_quiet (quiet_architectureLinesOf h.returns (Or.inl h.headers))]
  steady := by
    rw [rereadArchitecture_of_unheaded h, rereadArchitecture_of_unheaded h.settledArchitecture,
      Text.settledArchitecture_settledArchitecture]

end Document

end DesignRecords
