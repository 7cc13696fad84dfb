import DesignRecords.Proofs.Calendar.Reading
import DesignRecords.Proofs.Document.Decisions
import DesignRecords.Proofs.Document.Unheaded

namespace DesignRecords

variable {c : Char} {t line cell body : Text} {p : Text} {x : Decision}

namespace Text

/-- The beginning of a text without blanks around it has none once those behind it are cut. -/
theorem trim_trimEnd_of_append {s l : Text} (hb : l.blank = false) (hl : l.trim = l)
    (h : (s ++ l).trim = s ++ l) : s.trimEnd.trim = s.trimEnd := by
  rw [trim_trimEnd]
  cases hblank : s.blank with
  | true => rw [trim_eq_nil.mpr hblank, trimEnd_eq_nil.mpr hblank]
  | false =>
    have hend : l.trimEnd = l := by
      rw [← hl]
      exact trimEnd_trim
    have hstart : s.trimStart = s := by
      rw [trim, trimStart_append_of_not hblank, trimEnd_append_of_not hb, hend] at h
      exact List.append_cancel_right h
    rw [trim, hstart]

/-- The beginning of a text on one line, without the blanks behind it, is on one line and has no
blanks around it, where the whole has none. -/
theorem flat_trimEnd_of_append {s l : Text} (hb : l.blank = false) (hl : l.trim = l)
    (h : (s ++ l).flat = s ++ l) : s.trimEnd.flat = s.trimEnd := by
  have htrim : (s ++ l).trim = s ++ l := by rw [← h, flat, trim_trim]
  have hsingle : Single (s ++ l) := by
    rw [← h]
    exact trim_mono (single_singleLine _)
  have hs : s.trimEnd.Single := fun c hc =>
    hsingle c (List.mem_append_left _ (mem_of_mem_trimEnd hc))
  rw [flat, singleLine_of_single hs.not_feed_mem hs.not_return_mem,
    trim_trimEnd_of_append hb hl htrim]

end Text

namespace Table

theorem mem_of_mem_modifyHead {ps : List Text} {e : Char} (hp : p ∈ ps.modifyHead (e :: ·))
    (hc : c ∈ p) : c = e ∨ ∃ q ∈ ps, c ∈ q := by
  cases ps with
  | nil => cases hp
  | cons q qs =>
    rcases List.mem_cons.mp hp with rfl | hp
    · exact (List.mem_cons.mp hc).imp_right fun hc => ⟨q, by simp, hc⟩
    · exact Or.inr ⟨p, by simp [hp], hc⟩

/-- The pieces of a row have no characters that the row has not. -/
theorem mem_of_mem_pieces (t : Text) : ∀ p ∈ pieces t, ∀ c ∈ p, c ∈ t := by
  fun_induction pieces t with
  | case1 => simp
  | case2 rest ih =>
    intro p hp c hc
    rcases mem_of_mem_modifyHead hp hc with rfl | ⟨q, hq, hc⟩
    · simp
    · simp [ih q hq c hc]
  | case3 rest ih =>
    intro p hp c hc
    rcases List.mem_cons.mp hp with rfl | hp
    · cases hc
    · simp [ih p hp c hc]
  | case4 e rest _ _ ih =>
    intro p hp c hc
    rcases mem_of_mem_modifyHead hp hc with rfl | ⟨q, hq, hc⟩
    · simp
    · simp [ih q hq c hc]

/-- A cell is a piece of its row without the blanks around it. -/
theorem exists_piece_of_mem_cells (h : cell ∈ cells line) :
    ∃ p : Text, (∀ c ∈ p, c ∈ line) ∧ cell = p.trim := by
  have hline : ∀ c ∈ (Text.after? "|" line).getD line, c ∈ line := by
    intro c hc
    cases ha : Text.after? "|" line with
    | none => rwa [ha] at hc
    | some t =>
      rw [ha] at hc
      rw [← List.isPrefixOf?_eq_some_iff_append_eq.mp ha]
      exact List.mem_append_right _ hc
  have hpieces := mem_of_mem_pieces ((Text.after? "|" line).getD line)
  unfold cells at h
  rcases List.mem_append.mp h with h | h
  · obtain ⟨p, hp, rfl⟩ := List.mem_map.mp h
    exact ⟨p, fun c hc => hline c (hpieces p (List.dropLast_subset _ hp) c hc), rfl⟩
  · obtain ⟨p, hp, rfl⟩ := Option.map_eq_some_iff.mp (Option.mem_toList.mp h)
    have hlast := (Option.filter_eq_some_iff.mp hp).1
    exact ⟨p, fun c hc => hline c (hpieces p (List.mem_of_getLast? hlast) c hc), rfl⟩

theorem flat_of_mem_cells (hl : line.Single) (h : cell ∈ cells line) : cell.flat = cell := by
  obtain ⟨p, hp, rfl⟩ := exists_piece_of_mem_cells h
  have hs : p.Single := fun c hc => hl c (hp c hc)
  have ht : p.trim.Single := Text.trim_mono hs
  rw [Text.flat, Text.singleLine_of_single ht.not_feed_mem ht.not_return_mem, Text.trim_trim]

end Table

namespace Decision

/-- What a decision that is read from the cells of a row has in it. -/
theorem ofCells?_eq_some {cells : List Text} (h : ofCells? cells = some x) :
    ∃ source date rest, cells = x.decision :: x.rationale :: source :: date :: rest ∧
      x.decision ≠ [] ∧ x.date = Date.read? date ∧
      (x.candidate = true ∧ (∃ s, s ++ Label.candidate = source ∧ x.source = s.trimEnd) ∨
        x.candidate = false ∧ x.source = source ∧ ¬ Label.candidate <:+ source) := by
  unfold ofCells? at h
  split at h
  · cases h
  · split at h
    next decision rationale source date rest _ =>
      split at h
      · cases h
      next hne =>
        have hdecision : decision ≠ [] := fun he => hne (by simp [he])
        split at h
        next s hs =>
          cases h
          refine ⟨source, date, rest, rfl, hdecision, rfl, Or.inl ⟨rfl, s, ?_, rfl⟩⟩
          exact List.isSuffixOf?_eq_some_iff_append_eq.mp hs
        next hs =>
          cases h
          refine ⟨source, date, rest, rfl, hdecision, rfl, Or.inr ⟨rfl, rfl, ?_⟩⟩
          rintro ⟨s, hs'⟩
          have hfound : Text.before? Label.candidate source = some s :=
            List.isSuffixOf?_eq_some_iff_append_eq.mpr hs'
          rw [hs] at hfound
          cases hfound
    · cases h

theorem exists_line_of_mem_readTable (h : x ∈ readTable body) :
    ∃ line ∈ body.lines, ofCells? (Table.cells line.trim) = some x := by
  obtain ⟨row, hrow, hx⟩ := List.mem_filterMap.mp h
  obtain ⟨line, hl, rfl⟩ := List.mem_map.mp (List.mem_filter.mp (List.mem_of_mem_drop hrow)).1
  exact ⟨line, hl, hx⟩

/-- A decision that is read from a table says something. -/
theorem not_blank_of_mem_readTable (h : x ∈ readTable body) : x.decision.blank = false := by
  obtain ⟨line, -, hx⟩ := exists_line_of_mem_readTable h
  obtain ⟨source, date, rest, hcells, hne, -⟩ := ofCells?_eq_some hx
  obtain ⟨p, -, hp⟩ := @Table.exists_piece_of_mem_cells line.trim x.decision (by rw [hcells]; simp)
  rw [Bool.eq_false_iff]
  intro hb
  rw [hp, Text.blank_trim, ← Text.trim_eq_nil, ← hp] at hb
  exact hne hb

/-- A decision that is read from a row on one line is written as it is, and read back. -/
theorem plain_settled_of_ofCells? (hl : line.Single) (h : ofCells? (Table.cells line) = some x) :
    x.Plain ∧ x.settled = x := by
  obtain ⟨source, date, rest, hcells, hne, hdate, hsource⟩ := ofCells?_eq_some h
  have hflat : ∀ cell ∈ x.decision :: x.rationale :: source :: date :: rest, cell.flat = cell :=
    fun cell hc => Table.flat_of_mem_cells hl (hcells ▸ hc)
  have hkept : x.source.flat = x.source ∧
      (x.candidate = false → ¬ Label.candidate <:+ x.source.flat) := by
    rcases hsource with ⟨hc, s, hs, he⟩ | ⟨hc, he, hn⟩
    · refine ⟨?_, fun hf => by rw [hc] at hf; cases hf⟩
      have hf : (s ++ Label.candidate).flat = s ++ Label.candidate := by
        rw [hs]
        exact hflat source (by simp)
      rw [he]
      exact Text.flat_trimEnd_of_append rfl rfl hf
    · have hf : source.flat = source := hflat source (by simp)
      rw [he, hf]
      exact ⟨rfl, fun _ => hn⟩
  refine ⟨⟨fun day hday => ?_, hkept.2⟩, ?_⟩
  · rw [hdate] at hday
    exact Date.valid_of_read? hday
  · have hd : x.decision.flat = x.decision := hflat x.decision (by simp)
    have hr : x.rationale.flat = x.rationale := hflat x.rationale (by simp)
    rw [settled, hd, hr, hkept.1]

/-- The decisions in a table without carriage returns are read back as they are. -/
theorem plain_settled_of_mem_readTable (hr : '\r' ∉ body) (h : x ∈ readTable body) :
    x.Plain ∧ x.settled = x := by
  obtain ⟨line, hl, hx⟩ := exists_line_of_mem_readTable h
  exact plain_settled_of_ofCells? (Text.trim_mono (Text.single_of_mem_lines hr hl)) hx

theorem settledTable_readTable (hr : '\r' ∉ body) :
    settledTable (readTable body) = readTable body := by
  refine settledTable_eq_self fun x hx => ⟨(plain_settled_of_mem_readTable hr hx).2, fun he => ?_⟩
  have hb := not_blank_of_mem_readTable hx
  rw [he] at hb
  cases hb

end Decision

end DesignRecords
