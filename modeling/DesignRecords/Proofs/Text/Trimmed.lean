import DesignRecords.Proofs.Text.Content

namespace DesignRecords.Text

variable {t x : Text} {ls : List Text}

theorem mem_ofLines {c : Char} (h : c ∈ ofLines ls) :
    c = '\n' ∨ ∃ l ∈ ls, c ∈ l :=
  (mem_joined h).imp_left List.mem_singleton.mp

theorem not_return_mem_ofLines (h : ∀ l ∈ ls, l.Single) : '\r' ∉ ofLines ls := by
  intro hm
  rcases mem_ofLines hm with hf | ⟨l, hl, hc⟩
  · cases hf
  · exact (h l hl).not_return_mem hc

theorem not_feed_mem_of_mem_lines {l : Text} (h : l ∈ t.lines) : '\n' ∉ l := by
  rcases last_piece_cases '\n' t with hf | ⟨s, x, hx, rfl⟩
  · by_cases he : t = []
    · rw [he] at h
      cases h
    · rw [lines_of_single hf he, List.mem_singleton] at h
      exact h ▸ hf
  · by_cases he : x = []
    · rw [he, lines_append_feed] at h
      exact not_feed_mem_of_mem_broken h
    · rw [lines_append_line s hx he] at h
      rcases List.mem_append.mp h with h | h
      · exact not_feed_mem_of_mem_broken h
      · exact List.mem_singleton.mp h ▸ hx

/-- Of the lines of a text those up to the last one that is not blank are left when the blanks at
its end are cut, and this one loses the blanks behind it. -/
theorem exists_splitOn_trimEnd (h : t.blank = false) : ∃ front y back,
    t.splitOn '\n' = front ++ y :: back ∧ blank y = false ∧ (∀ l ∈ back, blank l = true) ∧
      t.trimEnd.splitOn '\n' = front ++ [trimEnd y] := by
  generalize hn : t.length = n
  induction n using Nat.strong_induction_on generalizing t with
  | _ n ih =>
  have hfeed : ∀ {l : Text}, '\n' ∉ l → '\n' ∉ l.trimEnd := fun hl hm =>
    hl (mem_of_mem_trimEnd hm)
  rcases last_piece_cases '\n' t with hf | ⟨s, y, hy, rfl⟩
  · refine ⟨[], t, [], List.splitOn_eq_singleton hf, h, by simp, ?_⟩
    exact List.splitOn_eq_singleton (hfeed hf)
  · cases hb : blank y with
    | false =>
      have he : trimEnd (s ++ '\n' :: y) = s ++ '\n' :: trimEnd y := by
        have hc := trimEnd_append_of_not (s := s ++ ['\n']) hb
        simpa using hc
      refine ⟨s.splitOn '\n', y, [], ?_, hb, by simp, ?_⟩
      · rw [List.splitOn_append_cons_self, List.splitOn_eq_singleton hy]
      · rw [he, List.splitOn_append_cons_self, List.splitOn_eq_singleton (hfeed hy)]
    | true =>
      have hs : blank s = false := by
        rw [blank_append, blank_cons, hb] at h
        simpa [show isBlank '\n' = true from rfl] using h
      have he : trimEnd (s ++ '\n' :: y) = trimEnd s :=
        trimEnd_append_of_blank (by rw [blank_cons, hb]; rfl)
      have hlt : s.length < n := by
        rw [← hn]
        simp
      obtain ⟨front, z, back, hsplit, hz, hback, htrim⟩ := ih s.length hlt hs rfl
      refine ⟨front, z, back ++ [y], ?_, hz, ?_, by rw [he, htrim]⟩
      · rw [List.splitOn_append_cons_self, List.splitOn_eq_singleton hy, hsplit]
        simp
      · rw [List.forall_mem_append]
        exact ⟨hback, by simpa using hb⟩

/-- Of the lines of a text those from the first one that is not blank on are left when the blanks at
its start are cut, and this one loses the blanks before it. -/
theorem exists_splitOn_trimStart (h : t.blank = false) : ∃ front x back,
    t.splitOn '\n' = front ++ x :: back ∧ blank x = false ∧ (∀ l ∈ front, blank l = true) ∧
      t.trimStart.splitOn '\n' = trimStart x :: back := by
  generalize hn : t.length = n
  induction n using Nat.strong_induction_on generalizing t with
  | _ n ih =>
  have hfeed : ∀ {l : Text}, '\n' ∉ l → '\n' ∉ l.trimStart := fun hl hm =>
    hl ((List.dropWhile_suffix _).subset hm)
  rcases first_piece_cases '\n' t with hf | ⟨x, s, hx, rfl⟩
  · refine ⟨[], t, [], List.splitOn_eq_singleton hf, h, by simp, ?_⟩
    exact List.splitOn_eq_singleton (hfeed hf)
  · cases hb : blank x with
    | false =>
      refine ⟨[], x, s.splitOn '\n', splitOn_piece hx s, hb, by simp, ?_⟩
      rw [trimStart_append_of_not hb, splitOn_piece (hfeed hx)]
    | true =>
      have hs : blank s = false := by
        rw [blank_append, hb, blank_cons] at h
        simpa [show isBlank '\n' = true from rfl] using h
      have he : trimStart (x ++ '\n' :: s) = trimStart s := by
        have hc := trimStart_append_of_blank (s := x ++ ['\n']) (t := s)
          (by rw [blank_append, hb]; rfl)
        simpa using hc
      have hlt : s.length < n := by
        rw [← hn, List.length_append, List.length_cons]
        omega
      obtain ⟨front, z, back, hsplit, hz, hfront, htrim⟩ := ih s.length hlt hs rfl
      refine ⟨x :: front, z, back, ?_, hz, ?_, by rw [he, htrim]⟩
      · rw [splitOn_piece hx, hsplit]
        rfl
      · rw [List.forall_mem_cons]
        exact ⟨hb, hfront⟩

/-- A text without carriage returns that does not end in an empty line is read in the lines between
its line feeds. -/
theorem lines_eq_splitOn (hr : '\r' ∉ t) (hb : t.blank = false) (ht : t.trimEnd = t) :
    t.lines = t.splitOn '\n' := by
  obtain ⟨front, y, back, -, hy, -, hsplit⟩ := exists_splitOn_trimEnd hb
  rw [ht] at hsplit
  have hne : trimEnd y ≠ [] := by
    rw [Ne, trimEnd_eq_nil, hy]
    simp
  have hkeep : ∀ l ∈ front, dropReturn l = l := fun l hl =>
    dropReturn_of_not_mem fun hm =>
      hr (mem_of_mem_splitOn (by rw [hsplit]; exact List.mem_append_left _ hl) hm).1
  rw [lines, hsplit, linesOfPieces_concat front hne, List.map_congr_left hkeep, List.map_id']

end DesignRecords.Text
