import DesignRecords.Document.Printer
import DesignRecords.Proofs.Text.Content
import Mathlib.Data.List.TakeWhile

namespace DesignRecords

/-- A text on one line, without blanks around it. -/
def Text.flat (t : Text) : Text := (Text.singleLine t).trim

/-- A block of lines without the blank lines in front of it and the blanks at its end. -/
def Text.block (t : Text) : Text :=
  Text.trimEnd (Text.ofLines ((t.splitOn '\n').dropWhile Text.blank))

namespace Text

variable {t x : Text} {ls : List Text}

theorem flat_flat (t : Text) : t.flat.flat = t.flat := by
  rw [flat, flat, singleLine_trim_singleLine, trim_trim]

theorem flat_eq_nil : t.flat = [] ↔ t.blank = true := by
  rw [flat, trim_eq_nil, blank_singleLine]

/-- Where the first line is not blank, only blanks at the end are lost. -/
theorem block_of_first_line (hx : x.blank = false) (hl : t.splitOn '\n' = x :: ls) :
    t.block = t.trimEnd := by
  rw [block, hl, List.dropWhile_cons_of_neg (by simp [hx]), ← hl, ofLines_splitOn]

theorem blank_ofLines_cons (hx : x.blank = false) : blank (ofLines (x :: ls)) = false := by
  by_cases hn : ls = []
  · rw [hn, ofLines_singleton, hx]
  · rw [ofLines_cons x hn, blank_append, hx, Bool.false_and]

/-- The text of some lines of which the first one is not blank keeps such a line when it is
trimmed. -/
theorem exists_first_line_trimEnd (hl : t.splitOn '\n' = x :: ls) (hx : x.blank = false) :
    ∃ y ys, t.trimEnd.splitOn '\n' = y :: ys ∧ blank y = false := by
  have hb : t.trimEnd.blank = false := by
    rw [blank_trimEnd, ← ofLines_splitOn t, hl, blank_ofLines_cons hx]
  rcases first_piece_cases '\n' t.trimEnd with hn | ⟨y, z, hy, he⟩
  · exact ⟨t.trimEnd, [], List.splitOn_eq_singleton hn, hb⟩
  · obtain ⟨s, -, ht⟩ := exists_end_margin t
    have hs : t.splitOn '\n' = y :: (z ++ s).splitOn '\n' := by
      rw [ht, he, List.append_assoc, List.cons_append, splitOn_piece hy]
    rw [hl] at hs
    exact ⟨y, z.splitOn '\n', by rw [he, splitOn_piece hy], (List.cons.inj hs).1 ▸ hx⟩

/-- The first line of a text that is not blank. -/
theorem exists_solid_line (h : t.blank = false) :
    ∃ x xs, (t.splitOn '\n').dropWhile blank = x :: xs ∧ x.blank = false := by
  cases hd : (t.splitOn '\n').dropWhile blank with
  | nil =>
    have hb := blank_ofLines (List.dropWhile_eq_nil_iff.mp hd)
    rw [ofLines_splitOn, h] at hb
    cases hb
  | cons x xs =>
    have hx := List.dropWhile_get_zero_not (p := blank) (t.splitOn '\n') (by simp [hd])
    simp only [hd, List.get_eq_getElem, List.getElem_cons_zero, Bool.not_eq_true] at hx
    exact ⟨x, xs, rfl, hx⟩

theorem splitOn_ofLines_solid {xs : List Text}
    (h : (t.splitOn '\n').dropWhile blank = x :: xs) :
    (ofLines (x :: xs)).splitOn '\n' = x :: xs := by
  rw [← h]
  refine splitOn_ofLines (fun l hl => ?_) (by simp [h])
  exact not_feed_mem_of_mem_splitOn ((List.dropWhile_suffix _).subset hl)

theorem block_of_blank (h : t.blank = true) : t.block = [] := by
  have hl : ∀ l ∈ t.splitOn '\n', blank l = true := fun l hl =>
    blank_iff.mpr fun c hc => blank_iff.mp h c (mem_of_mem_splitOn hl hc).1
  rw [block, List.dropWhile_eq_nil_iff.mpr hl]
  rfl

theorem blank_block (t : Text) : t.block.blank = t.blank := by
  cases h : t.blank with
  | true => rw [block_of_blank h, blank_nil]
  | false =>
    obtain ⟨x, xs, hd, hx⟩ := exists_solid_line h
    rw [block, blank_trimEnd, hd, blank_ofLines_cons hx]

/-- A block starts with a line that is not blank. -/
theorem exists_first_line_block (h : t.blank = false) :
    ∃ y ys, t.block.splitOn '\n' = y :: ys ∧ blank y = false := by
  obtain ⟨x, xs, hd, hx⟩ := exists_solid_line h
  rw [block, hd]
  exact exists_first_line_trimEnd (splitOn_ofLines_solid hd) hx

theorem block_block (t : Text) : t.block.block = t.block := by
  cases h : t.blank with
  | true =>
    rw [block_of_blank h]
    rfl
  | false =>
    obtain ⟨y, ys, hy, hb⟩ := exists_first_line_block h
    rw [block_of_first_line hb hy, block, trimEnd_trimEnd]

end Text

namespace Text

/-- An overview as it is once it has been written and read back. -/
def settledOverview (t : Text) : Text := if t.blank then overviewPlaceholder else t.trim

/-- A diagram as it is once it has been written and read back. -/
def settledArchitecture (t : Text) : Text := if t.blank then defaultArchitecture else t.block

theorem settledOverview_settledOverview (t : Text) :
    t.settledOverview.settledOverview = t.settledOverview := by
  cases h : t.blank with
  | true => simp only [settledOverview, h, if_true]; rfl
  | false => simp [settledOverview, h, blank_trim, trim_trim]

theorem settledArchitecture_settledArchitecture (t : Text) :
    t.settledArchitecture.settledArchitecture = t.settledArchitecture := by
  cases h : t.blank with
  | true => simp only [settledArchitecture, h, if_true]; rfl
  | false => simp [settledArchitecture, h, blank_block, block_block]

end Text

/-- The entries of a list that are not blank, each on one line. -/
def Text.settledList (items : List Text) : List Text := (items.map Text.flat).filter (· ≠ [])

/-- Names as they stand once they have been listed with commas between them. -/
def Component.settledNames (names : List Text) : List Text :=
  names.flatMap fun name => Text.fields ',' (Text.singleLine name)

/-- A component as it is once it has been written and read back. -/
def Component.settled (c : Component) : Component :=
  ⟨c.name.flat, c.purpose.flat, settledNames c.interfaces, settledNames c.dependencies⟩

/-- A decision as it is once it has been written and read back. -/
def Decision.settled (d : Decision) : Decision :=
  { d with decision := d.decision.flat, rationale := d.rationale.flat, source := d.source.flat }

/-- The decisions of a table; a row without a decision is no decision. -/
def Decision.settledTable (ds : List Decision) : List Decision :=
  (ds.map settled).filter (·.decision ≠ [])

theorem Decision.settledTable_append (ds es : List Decision) :
    settledTable (ds ++ es) = settledTable ds ++ settledTable es := by
  simp only [settledTable, List.map_append, List.filter_append]

theorem Decision.settledTable_eq_self {ds : List Decision}
    (h : ∀ d ∈ ds, d.settled = d ∧ d.decision ≠ []) : settledTable ds = ds := by
  rw [settledTable, List.map_congr_left fun d hd => (h d hd).1, List.map_id',
    List.filter_eq_self.mpr fun d hd => by simpa using (h d hd).2]

theorem Decision.settledTable_settledTable (ds : List Decision) :
    settledTable (settledTable ds) = settledTable ds := by
  apply settledTable_eq_self
  intro d hd
  obtain ⟨hm, hn⟩ := List.mem_filter.mp hd
  obtain ⟨x, -, rfl⟩ := List.mem_map.mp hm
  refine ⟨?_, by simpa using hn⟩
  simp only [settled, Text.flat_flat]

theorem Text.settledList_eq_self {items : List Text}
    (h : ∀ item ∈ items, item.flat = item ∧ item ≠ []) :
    settledList items = items := by
  rw [settledList, List.map_congr_left fun item hi => (h item hi).1, List.map_id',
    List.filter_eq_self.mpr fun item hi => by simpa using (h item hi).2]

theorem Text.settledList_settledList (items : List Text) :
    settledList (settledList items) = settledList items := by
  apply settledList_eq_self
  intro item hi
  obtain ⟨hm, hn⟩ := List.mem_filter.mp hi
  obtain ⟨x, -, rfl⟩ := List.mem_map.mp hm
  exact ⟨flat_flat x, by simpa using hn⟩

/-- A document as it is once it has been written and read back. -/
def Document.settled (d : Document) : Document where
  task := d.task
  title := if d.title.blank then d.task.trim else d.title.flat
  overview := d.overview.settledOverview
  architecture := d.architecture.settledArchitecture
  components := d.components.map Component.settled
  decisions := Decision.settledTable d.decisions
  adrs := Text.settledList d.adrs
  requirements := Text.settledList d.requirements
  updated := d.updated

end DesignRecords
