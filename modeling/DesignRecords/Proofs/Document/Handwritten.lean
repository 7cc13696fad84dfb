import DesignRecords.Proofs.Document.Exposed
import DesignRecords.Proofs.Document.ReadTable
import DesignRecords.Proofs.Document.Reread

namespace DesignRecords

namespace Section

variable {ls : List Text} {b t : Text}

/-- Tame lines are tame without the blanks in front of them and at their end. -/
theorem Tame.splitOn_trimEnd (hf : ∀ l ∈ ls, '\n' ∉ l) (h : Tame ls)
    (hb : Text.blank (Text.trimEnd (Text.ofLines (ls.dropWhile Text.blank))) = false) :
    Tame ((Text.trimEnd (Text.ofLines (ls.dropWhile Text.blank))).splitOn '\n') := by
  have hsuffix : ls.dropWhile Text.blank <:+ ls := List.dropWhile_suffix _
  have hn : ls.dropWhile Text.blank ≠ [] := by
    intro hn
    rw [hn] at hb
    cases hb
  rw [Text.blank_trimEnd] at hb
  obtain ⟨front, y, back, hsplit, -, -, htrim⟩ := Text.exists_splitOn_trimEnd hb
  rw [Text.splitOn_ofLines (fun l hl => hf l (hsuffix.subset hl)) hn] at hsplit
  have ht := h.dropWhile_blank
  rw [hsplit, List.append_cons] at ht
  rw [htrim]
  exact ht.of_append.of_milder (forall₂_milder_concat front y)

end Section

namespace Text

variable {ls : List Text}

/-- Lines without those that are blank in front of them are a block. -/
theorem block_trimEnd_ofLines (hf : ∀ l ∈ ls, '\n' ∉ l) :
    block (trimEnd (ofLines (ls.dropWhile blank))) = trimEnd (ofLines (ls.dropWhile blank)) := by
  cases hd : ls.dropWhile blank with
  | nil => rfl
  | cons x xs =>
    have hx : x.blank = false := by
      have hx := List.dropWhile_get_zero_not (p := blank) ls (by simp [hd])
      simpa [hd] using hx
    have hsuffix : x :: xs <:+ ls := hd ▸ List.dropWhile_suffix _
    have hsplit : (ofLines (x :: xs)).splitOn '\n' = x :: xs :=
      splitOn_ofLines (fun l hl => hf l (hsuffix.subset hl)) (by simp)
    obtain ⟨y, ys, hy, hb⟩ := exists_first_line_trimEnd hsplit hx
    rw [block_of_first_line hb hy, trimEnd_trimEnd]

end Text

namespace Document

open Section

variable {l t : Text} {rest : List Text}

/-- What is read of a block of code are lines of it. -/
theorem withoutFence_of_fence (hl : t.lines = l :: rest) (hf : isFence l = true) :
    ∃ inner, inner <+: rest ∧
      withoutFence t = Text.trimEnd (Text.ofLines (inner.dropWhile Text.blank)) := by
  rw [withoutFence, hl]
  simp only [hf, Bool.not_true, Bool.false_eq_true, if_false]
  split
  · exact ⟨rest.dropLast, List.dropLast_prefix rest, rfl⟩
  · exact ⟨rest, List.prefix_rfl, rfl⟩

theorem exists_inner (t : Text) : ∃ inner, inner ⊆ t.lines ∧
    withoutFence t = Text.trimEnd (Text.ofLines (inner.dropWhile Text.blank)) := by
  cases hl : t.lines with
  | nil => exact ⟨[], by simp, by rw [withoutFence, hl]⟩
  | cons l rest =>
    cases hf : isFence l with
    | false => exact ⟨l :: rest, by simp, by rw [withoutFence, hl]; simp [hf]⟩
    | true =>
      obtain ⟨inner, hp, he⟩ := withoutFence_of_fence hl hf
      exact ⟨inner, List.Subset.trans hp.subset (List.subset_cons_self l rest), he⟩

theorem block_withoutFence (t : Text) : (withoutFence t).block = withoutFence t := by
  obtain ⟨inner, hs, he⟩ := exists_inner t
  rw [he]
  exact Text.block_trimEnd_ofLines fun l hl => Text.not_feed_mem_of_mem_lines (hs hl)

theorem trimEnd_withoutFence (t : Text) : Text.trimEnd (withoutFence t) = withoutFence t := by
  obtain ⟨inner, -, he⟩ := exists_inner t
  rw [he, Text.trimEnd_trimEnd]

theorem not_return_mem_withoutFence (hr : '\r' ∉ t) : '\r' ∉ withoutFence t := by
  obtain ⟨inner, hs, he⟩ := exists_inner t
  rw [he]
  intro hm
  refine Text.not_return_mem_ofLines (fun l hl => ?_) (Text.mem_of_mem_trimEnd hm)
  exact Text.single_of_mem_lines hr (hs ((List.dropWhile_suffix _).subset hl))

end Document

namespace Section

variable {x b t : Text} {rest : List Text}

/-- Whether a text can be the body of a section: lines that start no section, without the blanks
around them and without carriage returns. -/
structure Body (b : Text) : Prop where
  returns : '\r' ∉ b
  quiet : ∃ t : Text, Quiet (t.splitOn '\n') ∧ b = t.trim

theorem quiet_splitOn_nil : Quiet (List.splitOn '\n' ([] : Text)) := by
  rw [List.splitOn_nil]
  exact (quiet_cons_of_blank rfl).mpr (unmarked_nil .opening)

theorem body_nil : Body [] := ⟨by simp, [], quiet_splitOn_nil, rfl⟩

theorem body_of_mem_split {s : Section} (hr : '\r' ∉ t) (h : s ∈ (split t).2) : Body s.body := by
  obtain ⟨ls, hls, hq, hs⟩ := exists_quiet_of_mem_split h
  have hsingle : ∀ l ∈ ls, l.Single := fun l hl => Text.single_of_mem_lines hr (hls hl)
  refine ⟨?_, ?_⟩
  · intro hm
    rw [hs] at hm
    exact Text.not_return_mem_ofLines hsingle (Text.mem_of_mem_trim hm)
  · by_cases hn : ls = []
    · exact ⟨[], quiet_splitOn_nil, by rw [hs, hn]; rfl⟩
    · refine ⟨Text.ofLines ls, ?_, hs⟩
      rwa [Text.splitOn_ofLines (fun l hl => (hsingle l hl).not_feed_mem) hn]

theorem body_bodyOf (hr : '\r' ∉ t) (name : Text) : Body (bodyOf (split t).2 name) := by
  unfold bodyOf
  cases hs : (split t).2.find? fun s => Text.sameIgnoringCase s.header name with
  | none => exact body_nil
  | some s => exact body_of_mem_split hr (List.mem_of_find?_eq_some hs)

theorem isHeader_of_splitOn {x : Text} {xs : List Text} (h : t.splitOn '\n' = x :: xs) :
    isHeader t = isHeader x := by
  rw [Bool.eq_iff_iff]
  constructor
  · intro hh
    obtain ⟨y, ys, hy, hh⟩ := Text.exists_header hh
    rw [h] at hy
    rwa [(List.cons.inj hy).1]
  · intro hh
    refine Text.isHeader_mono ?_ hh
    rw [← Text.ofLines_splitOn t, h]
    by_cases hn : xs = []
    · exact ⟨[], by rw [hn, Text.ofLines_singleton, List.append_nil]⟩
    · rw [Text.ofLines_cons x hn]
      exact List.prefix_append _ _

namespace Body

variable (h : Body b)

include h

theorem trim : Text.trim b = b := by
  obtain ⟨t, -, rfl⟩ := h.quiet
  exact Text.trim_trim

theorem trimEnd : Text.trimEnd b = b := by
  obtain ⟨t, -, rfl⟩ := h.quiet
  exact Text.trimEnd_trim

theorem nil_of_blank (hb : Text.blank b = true) : b = [] := by
  rw [← h.trim]
  exact Text.trim_eq_nil.mpr hb

/-- Only the first line of a body may have lost blanks before it. -/
theorem exists_first_line (hb : Text.blank b = false) :
    ∃ x rest, Quiet (x :: rest) ∧ Text.blank x = false ∧
      b.splitOn '\n' = Text.trimStart x :: rest := by
  obtain ⟨t, hq, rfl⟩ := h.quiet
  exact hq.trim (by rwa [Text.blank_trim] at hb)

theorem quiet_overview (hh : isHeader b = false) : Quiet (Document.overviewLinesOf b) := by
  cases hb : Text.blank b with
  | true =>
    rw [h.nil_of_blank hb]
    exact Document.quiet_overviewLinesOf (by simp) (by simp)
  | false =>
    obtain ⟨x, rest, hq, -, hsplit⟩ := h.exists_first_line hb
    rw [isHeader_of_splitOn hsplit] at hh
    have hlines : Quiet (Text.trimStart x :: rest) :=
      Unmarked.of_milder (.cons (milder_trimStart hh) (List.forall₂_same.mpr fun l _ =>
        milder_refl l)) hq
    rw [Document.overviewLinesOf, Document.orIfBlank_of_not hb, Text.broken_of_no_return h.returns,
      hsplit]
    exact (quiet_cons_of_blank rfl).mpr
      (Unmarked.append (by simpa using (by decide : Inert [])) hlines)

/-- The diagram in a body that does not start with a fence is the body itself. -/
theorem withoutFence_of_not_fence (hb : Text.blank b = false)
    (hf : isFence (Text.trimStart x) = false) (hs : b.splitOn '\n' = Text.trimStart x :: rest)
    (hx : Text.blank x = false) : Document.withoutFence b = b := by
  have hl : b.lines = Text.trimStart x :: rest := by
    rw [Text.lines_eq_splitOn h.returns hb h.trimEnd, hs]
  have hd : (Text.trimStart x :: rest).dropWhile Text.blank = Text.trimStart x :: rest :=
    List.dropWhile_cons_of_neg (by simp [Text.blank_trimStart, hx])
  rw [Document.withoutFence, hl]
  simp only [hf, Bool.not_false, if_true]
  rw [hd, ← hs, Text.ofLines_splitOn, h.trimEnd]

/-- A diagram that is read starts no section where it is written, unless a header has come to stand
at its start and no fence hides that one. -/
theorem tame_withoutFence (hb : Text.blank (Document.withoutFence b) = false)
    (hs : isHeader (Document.withoutFence b) = true →
      (fencedLines? ((Document.withoutFence b).lines ++ [Label.fence])).isSome = true) :
    Tame ((Document.withoutFence b).splitOn '\n') := by
  have hbody : Text.blank b = false := by
    rw [← Bool.not_eq_true]
    intro hc
    rw [h.nil_of_blank hc] at hb
    cases hb
  obtain ⟨x, rest, hq, hx, hsplit⟩ := h.exists_first_line hbody
  have hfence : isFence (Text.trimStart x) = isFence x :=
    isFence_congr (by rw [Text.trimStart_trimStart])
  cases hf : isFence x with
  | true =>
    have hl : b.lines = Text.trimStart x :: rest := by
      rw [Text.lines_eq_splitOn h.returns hbody h.trimEnd, hsplit]
    obtain ⟨inner, hp, he⟩ := Document.withoutFence_of_fence hl (hfence.trans hf)
    have hfeed : ∀ l ∈ inner, '\n' ∉ l := by
      intro l hl
      refine Text.not_feed_mem_of_mem_splitOn (t := b) ?_
      rw [hsplit]
      exact List.mem_cons_of_mem _ (hp.subset hl)
    have htame : Tame inner := by
      obtain ⟨tail, rfl⟩ := hp
      exact (hq.tame_of_fence hf).of_append
    rw [he] at hb ⊢
    exact htame.splitOn_trimEnd hfeed hb
  | false =>
    have hf' := hfence.trans hf
    have hrest := hq.unheaded_of_not_fence hx hf
    rw [h.withoutFence_of_not_fence hbody hf' hsplit hx] at hs ⊢
    rw [hsplit]
    rw [isHeader_of_splitOn hsplit, Text.lines_eq_splitOn h.returns hbody h.trimEnd, hsplit] at hs
    cases hh : isHeader (Text.trimStart x) with
    | false => exact Or.inl (List.forall_mem_cons.mpr ⟨hh, hrest⟩)
    | true =>
      have hclosed := hs hh
      rw [List.cons_append, fencedLines?, hf'] at hclosed
      exact Or.inr ((sheltered_cons_of_not hf').mpr
        (sheltered_of_fencedLines? (by simpa using hclosed) hrest))

theorem quiet_architecture
    (hs : isHeader (Document.withoutFence b) = true →
      (fencedLines? ((Document.withoutFence b).lines ++ [Label.fence])).isSome = true) :
    Quiet (Document.architectureLinesOf (Document.withoutFence b)) := by
  have hr := Document.not_return_mem_withoutFence h.returns
  cases hb : Text.blank (Document.withoutFence b) with
  | true =>
    have hn : Document.withoutFence b = [] := by
      rw [← Document.block_withoutFence, Text.block_of_blank hb]
    rw [hn]
    exact Document.quiet_architectureLinesOf (by simp) (Or.inl (by simp))
  | false =>
    have ht := h.tame_withoutFence hb hs
    rw [Document.architectureLinesOf, Document.orIfBlank_of_not hb, Text.broken_of_no_return hr]
    exact ht.quiet rfl rfl rfl

end Body

end Section

end DesignRecords
