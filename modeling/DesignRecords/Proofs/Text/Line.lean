import DesignRecords.Proofs.Text.Trim
import Mathlib.Data.List.Basic

namespace DesignRecords.Text

variable {s t l : Text} {ls ps : List Text} {c : Char}

/-- The lines of a text that a line feed follows. -/
def broken (t : Text) : List Text := (t.splitOn '\n').map dropReturn

theorem dropReturn_concat (l : Text) : dropReturn (l ++ ['\r']) = l := by
  have h : before? ['\r'] (l ++ ['\r']) = some l := by
    simp [before?, List.isSuffixOf?_eq_some_iff_append_eq]
  rw [dropReturn, h]
  rfl

theorem dropReturn_of_not_suffix (h : ¬ ['\r'] <:+ l) : dropReturn l = l := by
  have hn : before? ['\r'] l = none := by
    rw [Option.eq_none_iff_forall_ne_some]
    intro s hs
    exact h ⟨s, List.isSuffixOf?_eq_some_iff_append_eq.mp hs⟩
  rw [dropReturn, hn]
  rfl

theorem dropReturn_of_not_mem (h : '\r' ∉ l) : dropReturn l = l := by
  apply dropReturn_of_not_suffix
  rintro ⟨s, rfl⟩
  simp at h

theorem dropReturn_cases (l : Text) : dropReturn l = l ∨ l = dropReturn l ++ ['\r'] := by
  by_cases h : ['\r'] <:+ l
  · obtain ⟨s, rfl⟩ := h
    exact Or.inr (by rw [dropReturn_concat])
  · exact Or.inl (dropReturn_of_not_suffix h)

theorem trim_dropReturn (l : Text) : (dropReturn l).trim = l.trim := by
  rcases dropReturn_cases l with h | h
  · rw [h]
  · conv_rhs => rw [h]
    exact (trim_append_of_blank_right rfl).symm

/-- The pieces of a split text have its characters, but for those it is split at. -/
theorem mem_of_mem_splitOnP {sep : Char → Bool} (hl : l ∈ t.splitOnP sep) (hc : c ∈ l) :
    c ∈ t ∧ sep c = false := by
  induction t generalizing l with
  | nil =>
    have : l = [] := by simpa [List.splitOnP_nil] using hl
    simp [this] at hc
  | cons x t ih =>
    rw [List.splitOnP_cons_eq_if_modifyHead] at hl
    split at hl
    next hx =>
      rcases List.mem_cons.mp hl with rfl | hl
      · simp at hc
      · exact (ih hl hc).imp_left (List.mem_cons_of_mem x)
    next hx =>
      obtain ⟨p, ps, hp⟩ := List.exists_cons_of_ne_nil (List.splitOnP_ne_nil sep t)
      rw [hp, List.modifyHead_cons] at hl
      rcases List.mem_cons.mp hl with rfl | hl
      · rcases List.mem_cons.mp hc with rfl | hc
        · exact ⟨List.mem_cons_self, by simpa using hx⟩
        · exact (ih (by simp [hp]) hc).imp_left (List.mem_cons_of_mem x)
      · exact (ih (by simp [hp, hl]) hc).imp_left (List.mem_cons_of_mem x)

theorem mem_of_mem_splitOn {sep : Char} (hl : l ∈ t.splitOn sep) (hc : c ∈ l) :
    c ∈ t ∧ c ≠ sep :=
  (mem_of_mem_splitOnP hl hc).imp_right fun h => by simpa using h

theorem not_feed_mem_of_mem_splitOn (hl : l ∈ t.splitOn '\n') : '\n' ∉ l :=
  fun hc => (mem_of_mem_splitOn hl hc).2 rfl

/-- A text is one piece, or a text before its last separator and one piece after it. -/
theorem last_piece_cases (sep : Char) (t : Text) :
    sep ∉ t ∨ ∃ s l, sep ∉ l ∧ t = s ++ sep :: l := by
  by_cases h : sep ∈ t
  · obtain ⟨l, s, he, hl⟩ := List.eq_append_cons_of_mem (List.mem_reverse.mpr h)
    refine Or.inr ⟨s.reverse, l.reverse, by simpa using hl, ?_⟩
    simpa using congrArg List.reverse he
  · exact Or.inl h

/-- A text is one piece, or one piece and a text after its first separator. -/
theorem first_piece_cases (sep : Char) (t : Text) :
    sep ∉ t ∨ ∃ l s, sep ∉ l ∧ t = l ++ sep :: s := by
  by_cases h : sep ∈ t
  · obtain ⟨l, s, he, hl⟩ := List.eq_append_cons_of_mem h
    exact Or.inr ⟨l, s, hl, he⟩
  · exact Or.inl h

theorem splitOn_piece (hl : '\n' ∉ l) (s : Text) :
    (l ++ '\n' :: s).splitOn '\n' = l :: s.splitOn '\n' := by
  rw [List.splitOn_append_cons_self, List.splitOn_eq_singleton hl]
  rfl

theorem ofLines_splitOn (t : Text) : ofLines (t.splitOn '\n') = t := List.intercalate_splitOn '\n'

theorem splitOn_ofLines (h : ∀ l ∈ ls, '\n' ∉ l) (hn : ls ≠ []) :
    (ofLines ls).splitOn '\n' = ls := List.splitOn_intercalate '\n' h hn

section

variable {rest : List Text} {n : Nat} (h : ls.drop n = l :: rest)

include h

theorem getElem?_of_drop : ls[n]? = some l := by
  rw [← List.head?_drop, h]
  rfl

theorem drop_succ_of_drop : ls.drop (n + 1) = rest := by
  rw [← List.tail_drop, h]
  rfl

end

@[simp] theorem ofLines_nil : ofLines [] = [] := rfl

@[simp] theorem ofLines_singleton (l : Text) : ofLines [l] = l :=
  @List.intercalate_singleton Char ['\n'] l

theorem ofLines_cons (l : Text) (hn : ls ≠ []) : ofLines (l :: ls) = l ++ '\n' :: ofLines ls := by
  rw [ofLines, joined, List.intercalate_cons_of_ne_nil hn]
  simp [ofLines, joined]

theorem ofLines_append (hl : ls ≠ []) (hp : ps ≠ []) :
    ofLines (ls ++ ps) = ofLines ls ++ '\n' :: ofLines ps := by
  induction ls with
  | nil => exact absurd rfl hl
  | cons l ls ih =>
    cases ls with
    | nil => simpa using ofLines_cons l hp
    | cons l' ls =>
      have h : l' :: ls ++ ps ≠ [] := by simp
      rw [List.cons_append, ofLines_cons l h, ofLines_cons l (List.cons_ne_nil l' ls),
        ih (List.cons_ne_nil l' ls)]
      simp

theorem broken_ne_nil (t : Text) : broken t ≠ [] := by simp [broken]

theorem broken_append_feed (s t : Text) : broken (s ++ '\n' :: t) = broken s ++ broken t := by
  simp [broken, List.splitOn_append_cons_self]

theorem broken_of_no_feed (h : '\n' ∉ l) : broken l = [dropReturn l] := by
  rw [broken, List.splitOn_eq_singleton h]
  rfl

theorem broken_of_no_return (h : '\r' ∉ t) : broken t = t.splitOn '\n' := by
  have hm : ∀ l ∈ t.splitOn '\n', dropReturn l = l := fun l hl =>
    dropReturn_of_not_mem fun hr => h (mem_of_mem_splitOn hl hr).1
  rw [broken, List.map_congr_left hm, List.map_id']

theorem broken_of_single (hn : '\n' ∉ l) (hr : '\r' ∉ l) : broken l = [l] := by
  rw [broken_of_no_feed hn, dropReturn_of_not_mem hr]

theorem not_feed_mem_of_mem_broken (hl : l ∈ broken t) : '\n' ∉ l := by
  obtain ⟨p, hp, rfl⟩ := List.mem_map.mp hl
  have hf := not_feed_mem_of_mem_splitOn hp
  rcases dropReturn_cases p with h | h
  · rwa [h]
  · rw [h] at hf
    intro hc
    exact hf (List.mem_append_left _ hc)

theorem broken_ofLines (hn : ps ≠ []) : broken (ofLines ps) = ps.flatMap broken := by
  induction ps with
  | nil => exact absurd rfl hn
  | cons p ps ih =>
    cases ps with
    | nil => simp
    | cons q ps =>
      rw [ofLines_cons p (List.cons_ne_nil q ps), broken_append_feed, ih (List.cons_ne_nil q ps)]
      rfl

theorem linesOfPieces_concat_nil (ps : List Text) :
    linesOfPieces (ps ++ [[]]) = ps.map dropReturn := by
  induction ps with
  | nil => rfl
  | cons p ps ih =>
    cases ps with
    | nil => rfl
    | cons q ps => exact congrArg (dropReturn p :: ·) ih

theorem linesOfPieces_concat (ps : List Text) (h : l ≠ []) :
    linesOfPieces (ps ++ [l]) = ps.map dropReturn ++ [l] := by
  induction ps with
  | nil => simp [linesOfPieces, h]
  | cons p ps ih =>
    cases ps with
    | nil => simp [linesOfPieces, h]
    | cons q ps => exact congrArg (dropReturn p :: ·) ih

theorem lines_append_feed (t : Text) : lines (t ++ ['\n']) = broken t := by
  rw [lines, List.splitOn_append_cons_self, List.splitOn_nil, linesOfPieces_concat_nil, broken]

theorem lines_append_line (s : Text) (hf : '\n' ∉ l) (hl : l ≠ []) :
    lines (s ++ '\n' :: l) = broken s ++ [l] := by
  rw [lines, List.splitOn_append_cons_self, List.splitOn_eq_singleton hf,
    linesOfPieces_concat _ hl, broken]

theorem lines_of_single (hf : '\n' ∉ l) (hl : l ≠ []) : lines l = [l] := by
  rw [lines, List.splitOn_eq_singleton hf]
  exact linesOfPieces_concat [] hl

theorem lines_piece (hf : '\n' ∉ l) (s : Text) :
    lines (l ++ '\n' :: s) = dropReturn l :: lines s := by
  obtain ⟨p, ps, hp⟩ := List.exists_cons_of_ne_nil (List.splitOn_ne_nil '\n' s)
  rw [lines, splitOn_piece hf, lines, hp]
  rfl

/-- Lines with a line feed behind each are read as they are, but for carriage returns. -/
theorem lines_ofLines_feed (h : ∀ l ∈ ls, '\n' ∉ l) (hn : ls ≠ []) :
    lines (ofLines (ls ++ [[]])) = ls.map dropReturn := by
  rw [ofLines_append hn (by simp), ofLines_singleton, lines_append_feed, broken,
    splitOn_ofLines h hn]

@[simp] theorem lines_nil : lines [] = [] := rfl

end DesignRecords.Text
