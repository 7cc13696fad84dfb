import DesignRecords.Proofs.Calendar.Writing
import DesignRecords.Proofs.Document.Settled
import DesignRecords.Proofs.Document.Table

namespace DesignRecords.Decision

variable {d : Decision}

/-- The source of a decision as a cell holds it: with the mark of candidates behind it. -/
def markedSource (d : Decision) : Text :=
  if !d.candidate then d.source
  else if d.source.isEmpty then Label.candidate
  else d.source ++ " " ++ Label.candidate

/-- The dates that a calendar has, and sources that are not taken for those of candidates. -/
structure Plain (d : Decision) : Prop where
  date : ∀ day ∈ d.date, day.Valid
  source : d.candidate = false → ¬ Label.candidate <:+ d.source.flat

theorem escaped_markedSource (d : Decision) : Table.escaped d.markedSource = d.sourceCell := by
  have hm : Table.escaped (" " ++ Label.candidate) = " " ++ Label.candidate := rfl
  have he : (Table.escaped d.source).isEmpty = d.source.isEmpty := by
    rw [Bool.eq_iff_iff, List.isEmpty_iff, List.isEmpty_iff, Table.escaped_eq_nil]
  simp only [markedSource, sourceCell, he]
  split
  · rfl
  · split
    · rfl
    · rw [List.append_assoc, Table.escaped_append, hm, List.append_assoc]

/-- The text of a decision's date, empty where there is none. -/
def dateText (d : Decision) : Text := (d.date.map Date.text).getD []

theorem flat_dateText (d : Decision) : d.dateText.flat = d.dateText := by
  unfold dateText
  cases d.date with
  | none => rfl
  | some day => exact (congrArg Text.trim day.singleLine_text).trans day.trim_text

theorem escaped_dateText (d : Decision) : Table.escaped d.dateText = d.dateText := by
  unfold dateText
  cases d.date with
  | none => rfl
  | some day => exact Table.escaped_of_plain day.bar_not_mem_text day.singleLine_text

theorem read?_dateText (h : d.Plain) : Date.read? d.dateText = d.date := by
  unfold dateText
  cases hd : d.date with
  | none => rfl
  | some day => exact Date.read?_text (h.date day hd)

theorem row_eq (d : Decision) :
    d.row =
      Table.row ([d.decision, d.rationale, d.markedSource, d.dateText].map Table.escaped) := by
  simp only [row, List.map_cons, List.map_nil, escaped_markedSource, escaped_dateText]
  rfl

theorem cells_row (d : Decision) :
    Table.cells d.row = [d.decision.flat, d.rationale.flat, d.markedSource.flat, d.dateText] := by
  have h := Table.cells_row [d.decision, d.rationale, d.markedSource, d.dateText] (by simp)
  rw [row_eq, h]
  exact congrArg (fun t => [d.decision.flat, d.rationale.flat, d.markedSource.flat, t])
    d.flat_dateText

theorem isRule_dateText (d : Decision) : Table.isRule d.dateText = false := by
  unfold dateText
  cases d.date with
  | none => rfl
  | some day =>
    obtain ⟨c, hc, hd⟩ := day.exists_digit_text
    have hn : (c == '-' || c == ':') = false := by
      rw [Bool.or_eq_false_iff, beq_eq_false_iff_ne, beq_eq_false_iff_ne]
      exact ⟨by rintro rfl; exact absurd hd (by decide), by rintro rfl; exact absurd hd (by decide)⟩
    have ha : (day.text.all fun c => c == '-' || c == ':') = false :=
      List.all_eq_false.mpr ⟨c, hc, by simp [hn]⟩
    simp [Table.isRule, ha]

theorem before?_candidate (s : Text) :
    Text.before? Label.candidate (s ++ Label.candidate) = some s :=
  List.isSuffixOf?_eq_some_iff_append_eq.mpr rfl

/-- The mark of a candidate is found behind its source, and what is left of it is the source. -/
theorem before?_markedSource (h : d.candidate = true) :
    ∃ s, Text.before? Label.candidate d.markedSource.flat = some s ∧ s.trimEnd = d.source.flat := by
  have hl : Text.singleLine Label.candidate = Label.candidate := rfl
  have hm : Text.blank Label.candidate = false := rfl
  have hs : Text.singleLine (" " : String).toList = [' '] := rfl
  cases he : d.source with
  | nil =>
    have hd : d.markedSource = Label.candidate := by simp [markedSource, h, he]
    exact ⟨[], by rw [hd]; rfl, rfl⟩
  | cons c t =>
    have hd : d.markedSource = d.source ++ " " ++ Label.candidate := by simp [markedSource, h, he]
    rw [← he, hd, Text.flat, Text.singleLine_append, Text.singleLine_append, hl, hs]
    cases hb : (Text.singleLine d.source).blank with
    | true =>
      have hb' : Text.blank (Text.singleLine d.source ++ [' ']) = true := by simp [hb]; rfl
      refine ⟨[], ?_, ?_⟩
      · rw [Text.trim_append_of_blank hb']
        rfl
      · rw [Text.flat, Text.trim_eq_nil.mpr hb]
        rfl
    | false =>
      refine ⟨(Text.singleLine d.source).trimStart ++ [' '], ?_, ?_⟩
      · rw [Text.trim, List.append_assoc, Text.trimStart_append_of_not hb, ← List.append_assoc,
          Text.trimEnd_append_of_not hm]
        exact before?_candidate _
      · rw [Text.trimEnd_append_of_blank rfl]
        rfl

/-- A row is read as the decision it was made of; without a decision it is passed over. -/
theorem ofCells?_row (h : d.Plain) :
    ofCells? (Table.cells d.row) = if d.decision.flat = [] then none else some d.settled := by
  have hr : [d.decision.flat, d.rationale.flat, d.markedSource.flat, d.dateText].all
      Table.isRule = false := by simp [isRule_dateText]
  rw [cells_row, ofCells?, hr]
  simp only [Bool.false_eq_true, if_false, List.isEmpty_iff]
  split
  · rfl
  · rw [read?_dateText h]
    cases hc : d.candidate with
    | true =>
      obtain ⟨s, hs, ht⟩ := before?_markedSource hc
      simp only [hs, ht, settled, hc]
    | false =>
      have hm : d.markedSource = d.source := by simp [markedSource, hc]
      have hn : Text.before? Label.candidate d.source.flat = none := by
        rw [Option.eq_none_iff_forall_ne_some]
        intro s hs
        exact h.source hc ⟨s, List.isSuffixOf?_eq_some_iff_append_eq.mp hs⟩
      simp only [hm, hn, settled, hc]

theorem single_cells (d : Decision) :
    ∀ cell ∈ [d.decision, d.rationale, d.markedSource, d.dateText].map Table.escaped,
      cell.Single := by
  simp [Table.single_escaped]

/-- A row is read on its own line, and its bars show that it is one. -/
theorem fields_row (d : Decision) :
    (Text.fields '\n' d.row).filter (Text.startsWith · "|") = [d.row] := by
  rw [row_eq, Table.fields_row d.single_cells]
  rfl

theorem single_row (d : Decision) : d.row.Single := by
  rw [row_eq]
  exact Table.single_row d.single_cells

theorem readTable_eq (body : Text) :
    readTable body =
      (((Text.fields '\n' body).filter (Text.startsWith · "|")).drop 1).filterMap fun line =>
        ofCells? (Table.cells line) := by
  have h : (body.lines.map Text.trim).filter (Text.startsWith · "|") =
      (Text.fields '\n' body).filter (Text.startsWith · "|") := by
    rw [← Text.filter_trim_lines, List.filter_filter]
    apply List.filter_congr
    intro l _
    cases l with
    | nil => rfl
    | cons c l => simp
  rw [readTable, h]

/-- The lines above the rows of the table of decisions. -/
def tableHead : List Text :=
  ["| Decision | Rationale | Source | Date |", "|----------|-----------|--------|------|"]

/-- The decisions of a table survive being written into a section and read back. -/
theorem readTable_rows {ds : List Decision} (h : ∀ d ∈ ds, d.Plain) {front tail : List Text}
    (hf : ∀ l ∈ front, Text.blank l = true) (ht : ∀ l ∈ tail, Text.blank l = true) :
    readTable (Text.trim (Text.ofLines (front ++ (tableHead ++ ds.map row) ++ tail))) =
      settledTable ds := by
  have hh : (tableHead.flatMap (Text.fields '\n')).filter (Text.startsWith · "|") = tableHead := by
    rw [tableHead, List.flatMap_cons, List.flatMap_cons, Text.fields_of_not_mem (by decide),
      Text.fields_of_not_mem (by decide)]
    decide
  have hr : ((ds.map row).flatMap (Text.fields '\n')).filter (Text.startsWith · "|") =
      ds.map row := by
    clear h
    induction ds with
    | nil => rfl
    | cons d ds ih =>
      simp only [List.map_cons, List.flatMap_cons, List.filter_append, fields_row, ih,
        List.singleton_append]
  have hs : (ds.map row).filterMap (fun line => ofCells? (Table.cells line)) = settledTable ds := by
    clear hr
    rw [List.filterMap_map, settledTable]
    induction ds with
    | nil => rfl
    | cons d ds ih =>
      have hd := ofCells?_row (h d (by simp))
      have ih := ih fun x hx => h x (by simp [hx])
      rw [List.filterMap_cons, Function.comp_apply, hd, ih, List.map_cons, List.filter_cons]
      by_cases he : d.decision.flat = []
      · simp [he, settled]
      · simp [he, settled]
  rw [readTable_eq, Text.fields_trim_ofLines hf ht, List.flatMap_append, List.filter_append, hh, hr,
    tableHead, List.cons_append, List.drop_one, List.tail_cons, List.singleton_append,
    List.filterMap_cons_none rfl, hs]

end DesignRecords.Decision
