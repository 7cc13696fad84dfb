import DesignRecords.Document.Reader
import DesignRecords.Proofs.Calendar.Writing
import DesignRecords.Proofs.Document.Layout

namespace DesignRecords.Document

variable {d : Document} {l t : Text}

/-- The title as it is written: that of the document, or the task in its place. -/
def writtenTitle (d : Document) : Text := orIfBlank d.title d.task

def titleLine (d : Document) : Text :=
  "# " ++ Label.title ++ " " ++ Text.singleLine d.writtenTitle

def taskLine (d : Document) : Text := Label.task ++ " " ++ d.task

def updatedLines (d : Document) : List Text :=
  (d.updated.map fun i => Label.updated ++ " " ++ i.text).toList

theorem headLines_eq (d : Document) :
    d.headLines = d.titleLine :: [] :: d.taskLine :: d.updatedLines ++ [[]] := rfl

theorem single_updatedLines (h : l ∈ d.updatedLines) : l.Single := by
  obtain ⟨i, -, rfl⟩ := Option.map_eq_some_iff.mp (Option.mem_toList.mp h)
  have hi : Text.Single i.text := by
    intro c hc
    have hb := Instant.isBlank_of_mem_text hc
    constructor
    · rintro rfl
      exact absurd hb (by decide)
    · rintro rfl
      exact absurd hb (by decide)
  exact (show Text.Single (Label.updated ++ (" " : Text)) by decide).append hi

theorem single_titleLine (d : Document) : d.titleLine.Single :=
  (show Text.Single (("# " : Text) ++ Label.title ++ (" " : Text)) by decide).append
    (Text.single_singleLine _)

theorem single_headLines (ht : d.task.Single) (h : l ∈ d.headLines) : l.Single := by
  rw [headLines_eq] at h
  simp only [List.mem_append, List.mem_cons, List.not_mem_nil, or_false] at h
  rcases h with (rfl | rfl | rfl | h) | rfl
  · exact d.single_titleLine
  · decide
  · exact (show Text.Single (Label.task ++ (" " : Text)) by decide).append ht
  · exact single_updatedLines h
  · decide

theorem isHeader_headLines (h : l ∈ d.headLines) : Section.isHeader l = false := by
  rw [headLines_eq] at h
  simp only [List.mem_append, List.mem_cons, List.not_mem_nil, or_false] at h
  rcases h with (rfl | rfl | rfl | h) | rfl
  · rfl
  · rfl
  · rfl
  · obtain ⟨i, -, rfl⟩ := Option.map_eq_some_iff.mp (Option.mem_toList.mp h)
    rfl
  · rfl

/-- The title line gives back the title on one line, unless it is blank. -/
theorem titleOnLine?_titleLine (d : Document) :
    titleOnLine? d.titleLine =
      if d.writtenTitle.blank then none else some d.writtenTitle.flat := by
  have ha : Text.after? "# " d.titleLine =
      some (Label.title ++ ' ' :: Text.singleLine d.writtenTitle) := rfl
  have ht : Text.trim (Label.title ++ ' ' :: Text.singleLine d.writtenTitle) =
      Label.title ++ Text.trimEnd (' ' :: Text.singleLine d.writtenTitle) :=
    Text.trim_label rfl rfl _
  have hl : ∀ t, Text.after? Label.title (Label.title ++ t) = some t := fun t =>
    List.isPrefixOf?_eq_some_iff_append_eq.mpr rfl
  have hb : (d.writtenTitle.flat).isEmpty = d.writtenTitle.blank := by
    rw [Bool.eq_iff_iff, List.isEmpty_iff, Text.flat, Text.trim_eq_nil, Text.blank_singleLine]
  simp only [titleOnLine?, ha, Option.bind_eq_bind, Option.bind_some, ht, hl, Option.getD_some,
    Text.trim_trimEnd_cons]
  rw [← hb]
  rfl

theorem updatedOnLine?_titleLine (d : Document) : updatedOnLine? d.titleLine = none := by
  obtain ⟨s, hs⟩ : ∃ s, Text.trim d.titleLine = '#' :: s := Text.trim_cons_of_not rfl _
  rw [updatedOnLine?, hs]
  rfl

theorem updatedOnLine?_taskLine (d : Document) : updatedOnLine? d.taskLine = none := by
  have ht : Text.trim d.taskLine = Label.task ++ Text.trimEnd (' ' :: d.task) := by
    rw [taskLine, List.append_assoc]
    exact Text.trim_label rfl rfl d.task
  rw [updatedOnLine?, ht]
  rfl

theorem updatedOnLine?_written {i : Instant} (h : i.Plain) :
    updatedOnLine? (Label.updated ++ " " ++ i.text) = some i := by
  have ht : Text.trim (Label.updated ++ " " ++ i.text) =
      Label.updated ++ Text.trimEnd (' ' :: i.text) := by
    rw [List.append_assoc]
    exact Text.trim_label rfl rfl i.text
  have ha : Text.after? Label.updated (Label.updated ++ Text.trimEnd (' ' :: i.text)) =
      some (Text.trimEnd (' ' :: i.text)) := List.isPrefixOf?_eq_some_iff_append_eq.mpr rfl
  have hi : Text.trim i.text = i.text := Text.trim_of_forall fun _ => Instant.isBlank_of_mem_text
  simp only [updatedOnLine?, ht, ha, Option.bind_eq_bind, Option.bind_some, Text.trim_trimEnd_cons,
    hi, Instant.read?_text h]

theorem broken_headLines (d : Document) :
    d.headLines.flatMap Text.broken =
      (d.titleLine :: [] :: Text.broken d.taskLine ++ d.updatedLines) ++ [[]] := by
  have ht : Text.broken d.titleLine = [d.titleLine] :=
    Text.broken_of_single d.single_titleLine.not_feed_mem d.single_titleLine.not_return_mem
  have hu : d.updatedLines.flatMap Text.broken = d.updatedLines :=
    Text.broken_eq_self fun _ => single_updatedLines
  have hn : Text.broken [] = [[]] := rfl
  simp only [headLines_eq, List.flatMap_append, List.flatMap_cons, List.flatMap_nil, ht, hu, hn]
  simp

/-- The lines of the head, as they are read again from the text before the first section. -/
theorem lines_preamble (d : Document) :
    Text.lines (Text.ofLines (d.headLines.flatMap Text.broken)) =
      d.titleLine :: [] :: (Text.broken d.taskLine).map Text.dropReturn ++ d.updatedLines := by
  have hf : ∀ l ∈ d.titleLine :: [] :: Text.broken d.taskLine ++ d.updatedLines, '\n' ∉ l := by
    intro l hl
    simp only [List.mem_append, List.mem_cons] at hl
    rcases hl with (rfl | rfl | hl) | hl
    · exact d.single_titleLine.not_feed_mem
    · simp
    · exact Text.not_feed_mem_of_mem_broken hl
    · exact (single_updatedLines hl).not_feed_mem
  have ht : Text.dropReturn d.titleLine = d.titleLine :=
    Text.dropReturn_of_not_mem d.single_titleLine.not_return_mem
  have hu : d.updatedLines.map Text.dropReturn = d.updatedLines := by
    have h : ∀ l ∈ d.updatedLines, Text.dropReturn l = l := fun l hl =>
      Text.dropReturn_of_not_mem (single_updatedLines hl).not_return_mem
    rw [List.map_congr_left h, List.map_id']
  rw [broken_headLines, Text.lines_ofLines_feed hf (by simp), List.map_append, List.map_cons,
    List.map_cons, ht, hu]
  rfl

/-- The title is read from the first line, unless neither title nor task says anything. -/
theorem findSome?_title (hw : d.writtenTitle.blank = false) :
    (Text.lines (Text.ofLines (d.headLines.flatMap Text.broken))).findSome? titleOnLine? =
      some d.writtenTitle.flat := by
  rw [lines_preamble, List.cons_append, List.findSome?_cons, titleOnLine?_titleLine, hw]
  rfl

theorem findSome?_updated (ht : d.task.Single) (hu : ∀ i ∈ d.updated, i.Plain) :
    (Text.lines (Text.ofLines (d.headLines.flatMap Text.broken))).findSome? updatedOnLine? =
      d.updated := by
  have hl : d.taskLine.Single := (show Text.Single (Label.task ++ (" " : Text)) by decide).append ht
  have hb : (Text.broken d.taskLine).map Text.dropReturn = [d.taskLine] := by
    rw [Text.broken_of_single hl.not_feed_mem hl.not_return_mem, List.map_singleton,
      Text.dropReturn_of_not_mem hl.not_return_mem]
  have hn : updatedOnLine? [] = none := rfl
  rw [lines_preamble, hb]
  simp only [List.cons_append, List.findSome?_cons, updatedOnLine?_titleLine, hn,
    updatedOnLine?_taskLine, List.nil_append, updatedLines]
  cases hd : d.updated with
  | none => rfl
  | some i =>
    simp only [Option.map_some, Option.toList_some, List.findSome?_cons,
      updatedOnLine?_written (hu i hd)]

end DesignRecords.Document
