import DesignRecords.Document.Section
import DesignRecords.Proofs.Document.Settled

namespace DesignRecords.Text

variable {c l s t u : Text} {ls ps : List Text}

/-- What a text starts with and has no line feed is at the start of its first line. -/
theorem exists_first_line (hl : '\n' ∉ l) (s : Text) :
    ∃ x xs, (l ++ s).splitOn '\n' = (l ++ x) :: xs := by
  rcases first_piece_cases '\n' s with hs | ⟨x, y, hx, rfl⟩
  · have hn : '\n' ∉ l ++ s := by simp [hl, hs]
    exact ⟨s, [], List.splitOn_eq_singleton hn⟩
  · have hn : '\n' ∉ l ++ x := by simp [hl, hx]
    rw [← List.append_assoc, splitOn_piece hn]
    exact ⟨x, y.splitOn '\n', rfl⟩

/-- Each line of the beginning of a text starts a line of the text. -/
theorem exists_line_of_prefix (h : u <+: t) (hl : l ∈ u.splitOn '\n') :
    ∃ r ∈ t.splitOn '\n', l <+: r := by
  obtain ⟨v, rfl⟩ := h
  rcases last_piece_cases '\n' u with hu | ⟨s, x, hx, rfl⟩
  · rw [List.splitOn_eq_singleton hu, List.mem_singleton] at hl
    obtain ⟨x, xs, hx⟩ := exists_first_line hu v
    exact ⟨u ++ x, by simp [hx], hl ▸ List.prefix_append u x⟩
  · rw [List.splitOn_append_cons_self, List.splitOn_eq_singleton hx] at hl
    rw [List.append_assoc, List.cons_append, List.splitOn_append_cons_self]
    rcases List.mem_append.mp hl with hl | hl
    · exact ⟨l, List.mem_append_left _ hl, List.prefix_rfl⟩
    · obtain ⟨y, ys, hy⟩ := exists_first_line hx v
      rw [List.mem_singleton.mp hl]
      exact ⟨x ++ y, by simp [hy], List.prefix_append x y⟩

/-- Each line of the end of a text is a line of the text, or starts that end. -/
theorem line_of_suffix (h : u <:+ t) (hl : l ∈ u.splitOn '\n') :
    l ∈ t.splitOn '\n' ∨ l <+: u := by
  obtain ⟨v, rfl⟩ := h
  rcases first_piece_cases '\n' u with hu | ⟨x, y, hx, rfl⟩
  · rw [List.splitOn_eq_singleton hu, List.mem_singleton] at hl
    exact Or.inr (hl ▸ List.prefix_rfl)
  · rw [splitOn_piece hx] at hl
    rcases List.mem_cons.mp hl with rfl | hl
    · exact Or.inr (List.prefix_append l _)
    · left
      rw [← List.append_assoc, List.splitOn_append_cons_self]
      exact List.mem_append_right _ hl

/-- The lines that a text is read in are those between its line feeds. -/
theorem mem_splitOn_of_mem_lines (hr : '\r' ∉ t) (h : l ∈ t.lines) : l ∈ t.splitOn '\n' := by
  rw [← broken_of_no_return hr]
  rcases last_piece_cases '\n' t with hf | ⟨s, x, hx, rfl⟩
  · by_cases he : t = []
    · subst he
      cases h
    · rw [lines_of_single hf he] at h
      rwa [broken_of_no_return hr, List.splitOn_eq_singleton hf]
  · rw [broken_append_feed]
    have hxr : '\r' ∉ x := fun hm => hr (by simp [hm])
    by_cases he : x = []
    · subst he
      rw [lines_append_feed] at h
      exact List.mem_append_left _ h
    · rw [lines_append_line s hx he] at h
      rwa [broken_of_single hx hxr]

theorem single_of_mem_lines (hr : '\r' ∉ t) (h : l ∈ t.lines) : l.Single := by
  have hm := Text.mem_splitOn_of_mem_lines hr h
  intro c hc
  obtain ⟨hb, hf⟩ := Text.mem_of_mem_splitOn hm hc
  exact ⟨hf, fun he => hr (he ▸ hb)⟩

/-- Whether a text has no carriage return, and no line of it starts a section. -/
structure Unheaded (t : Text) : Prop where
  returns : '\r' ∉ t
  headers : ∀ l ∈ t.lines, Section.isHeader l = false

instance : Decidable (Unheaded t) :=
  decidable_of_iff ('\r' ∉ t ∧ ∀ l ∈ t.lines, Section.isHeader l = false)
    ⟨fun ⟨returns, headers⟩ => ⟨returns, headers⟩, fun ⟨returns, headers⟩ => ⟨returns, headers⟩⟩

theorem isHeader_mono (h : s <+: t) (hs : Section.isHeader s = true) :
    Section.isHeader t = true :=
  List.isPrefixOf_iff_prefix.mpr ((List.isPrefixOf_iff_prefix.mp hs).trans h)

theorem Unheaded.splitOn (h : t.Unheaded) : ∀ l ∈ t.splitOn '\n', Section.isHeader l = false :=
  forall_splitOn (p := (Section.isHeader · = false)) h.returns rfl h.headers

theorem unheaded_of_splitOn (hr : '\r' ∉ t)
    (h : ∀ l ∈ t.splitOn '\n', Section.isHeader l = false) : t.Unheaded :=
  ⟨hr, fun l hl => h l (mem_splitOn_of_mem_lines hr hl)⟩

theorem Unheaded.of_prefix (h : t.Unheaded) (hu : u <+: t) : u.Unheaded := by
  refine unheaded_of_splitOn (fun hm => h.returns (hu.subset hm)) fun l hl => ?_
  obtain ⟨r, hr, hp⟩ := exists_line_of_prefix hu hl
  rw [← Bool.not_eq_true]
  intro hh
  have hn := isHeader_mono hp hh
  rw [h.splitOn r hr] at hn
  cases hn

/-- Blanks before a text are all that can keep its first line from starting a section. -/
theorem Unheaded.of_suffix (h : t.Unheaded) (hu : u <:+ t) (hs : Section.isHeader u = false) :
    u.Unheaded := by
  refine unheaded_of_splitOn (fun hm => h.returns (hu.subset hm)) fun l hl => ?_
  rcases line_of_suffix hu hl with hl | hl
  · exact h.splitOn l hl
  · rw [← Bool.not_eq_true]
    intro hh
    rw [isHeader_mono hl hh] at hs
    cases hs

/-- A text that starts like a header has a header for its first line. -/
theorem exists_header (h : Section.isHeader t = true) :
    ∃ x xs, t.splitOn '\n' = x :: xs ∧ Section.isHeader x = true := by
  obtain ⟨s, rfl⟩ := List.isPrefixOf_iff_prefix.mp h
  obtain ⟨x, xs, hx⟩ := exists_first_line (l := "## ") (by decide) s
  exact ⟨"## " ++ x, xs, hx, List.isPrefixOf_iff_prefix.mpr (List.prefix_append _ x)⟩

theorem prefix_trimEnd (t : Text) : t.trimEnd <+: t := by
  obtain ⟨s, -, ht⟩ := exists_end_margin t
  exact ⟨s, ht.symm⟩

theorem suffix_trimStart (t : Text) : t.trimStart <:+ t := by
  obtain ⟨s, -, ht⟩ := exists_margin t
  exact ⟨s, ht.symm⟩

theorem Unheaded.trim (h : t.Unheaded) (hs : Section.isHeader t.trim = false) :
    t.trim.Unheaded := by
  rw [trim_eq] at hs ⊢
  exact (h.of_prefix (prefix_trimEnd t)).of_suffix (suffix_trimStart _) hs

theorem ofLines_suffix (h : ps <:+ ls) : ofLines ps <:+ ofLines ls := by
  obtain ⟨front, rfl⟩ := h
  by_cases hf : front = []
  · simp [hf]
  by_cases hp : ps = []
  · rw [hp, ofLines_nil]
    exact List.nil_suffix
  · rw [ofLines_append hf hp, List.append_cons]
    exact List.suffix_append _ _

/-- No line of a text starts a section for being the first one that is not blank. -/
theorem Unheaded.block (h : t.Unheaded) : t.block.Unheaded := by
  have hs : (t.splitOn '\n').dropWhile blank <:+ t.splitOn '\n' := List.dropWhile_suffix _
  have ho : ofLines ((t.splitOn '\n').dropWhile blank) <:+ t := by
    conv_rhs => rw [← ofLines_splitOn t]
    exact ofLines_suffix hs
  have hd : Unheaded (ofLines ((t.splitOn '\n').dropWhile blank)) := by
    refine unheaded_of_splitOn (fun hr => h.returns (ho.subset hr)) ?_
    by_cases hn : (t.splitOn '\n').dropWhile blank = []
    · rw [hn]
      decide
    · rw [splitOn_ofLines (fun l hl => not_feed_mem_of_mem_splitOn (hs.subset hl)) hn]
      exact fun l hl => h.splitOn l (hs.subset hl)
  exact hd.of_prefix (prefix_trimEnd _)

theorem unheaded_overviewPlaceholder : overviewPlaceholder.Unheaded := ⟨by decide, by decide⟩

theorem unheaded_defaultArchitecture : defaultArchitecture.Unheaded := ⟨by decide, by decide⟩

theorem Unheaded.settledOverview (h : t.Unheaded)
    (hs : Section.isHeader t.settledOverview = false) : t.settledOverview.Unheaded := by
  unfold Text.settledOverview at hs ⊢
  split
  · exact unheaded_overviewPlaceholder
  next hb =>
    rw [if_neg hb] at hs
    exact h.trim hs

theorem Unheaded.not_return_mem_settledOverview (h : t.Unheaded) : '\r' ∉ t.settledOverview := by
  unfold Text.settledOverview
  split
  · decide
  · exact fun hr => h.returns (mem_of_mem_trim hr)

theorem Unheaded.settledArchitecture (h : t.Unheaded) : t.settledArchitecture.Unheaded := by
  unfold Text.settledArchitecture
  split
  · exact unheaded_defaultArchitecture
  · exact h.block

end DesignRecords.Text
