import DesignRecords.Proofs.Text.Line

namespace DesignRecords.Text

variable {a b s t l : Text} {ls : List Text} {c sep : Char}

/-- What stands between the separators of a text: each piece without blanks around it, blank pieces
left out. -/
def fields (sep : Char) (t : Text) : List Text := ((t.splitOn sep).map trim).filter (· ≠ [])

theorem fields_append_sep (s t : Text) :
    fields sep (s ++ sep :: t) = fields sep s ++ fields sep t := by
  simp only [fields, List.splitOn_append_cons_self, List.map_append, List.filter_append]

theorem fields_of_not_mem (h : sep ∉ l) : fields sep l = if l.blank then [] else [l.trim] := by
  rw [fields, List.splitOn_eq_singleton h]
  cases hb : l.blank with
  | true => simp [trim_eq_nil.mpr hb]
  | false =>
    have ht : l.trim ≠ [] := fun h => by simp [trim_eq_nil.mp h] at hb
    simp [ht]

theorem fields_append_isBlank (h : isBlank c = true) : fields sep (s ++ [c]) = fields sep s := by
  have hc : ∀ l : Text, trim (l ++ [c]) = l.trim := fun l =>
    trim_append_of_blank_right (by simp [h])
  by_cases hs : c = sep
  · subst hs
    rw [fields_append_sep]
    exact List.append_nil _
  · rcases last_piece_cases sep s with hs | ⟨s, l, hl, rfl⟩
    · have hs' : sep ∉ s ++ [c] := by simp [hs, Ne.symm ‹c ≠ sep›]
      rw [fields_of_not_mem hs', fields_of_not_mem hs, hc]
      simp [h]
    · have hl' : sep ∉ l ++ [c] := by simp [hl, Ne.symm hs]
      rw [List.append_assoc, List.cons_append, fields_append_sep, fields_append_sep,
        fields_of_not_mem hl', fields_of_not_mem hl, hc]
      simp [h]

theorem fields_append_of_blank (h : b.blank = true) : fields sep (s ++ b) = fields sep s := by
  induction b generalizing s with
  | nil => simp
  | cons c b ih =>
    obtain ⟨hc, hb⟩ : isBlank c = true ∧ blank b = true := by simpa using h
    have hs : s ++ c :: b = (s ++ [c]) ++ b := by simp
    rw [hs, ih hb, fields_append_isBlank hc]

theorem fields_cons_isBlank (h : isBlank c = true) : fields sep (c :: t) = fields sep t := by
  have hc : ∀ l : Text, trim (c :: l) = l.trim := fun l =>
    trim_append_of_blank (s := [c]) (by simp [h])
  by_cases hs : c = sep
  · subst hs
    exact fields_append_sep [] t
  · by_cases ht : sep ∈ t
    · obtain ⟨l, s, rfl, hl⟩ := List.eq_append_cons_of_mem ht
      have hl' : sep ∉ c :: l := by simp [hl, Ne.symm hs]
      rw [← List.cons_append, fields_append_sep, fields_append_sep, fields_of_not_mem hl',
        fields_of_not_mem hl, hc]
      simp [h]
    · have ht' : sep ∉ c :: t := by simp [ht, Ne.symm hs]
      rw [fields_of_not_mem ht', fields_of_not_mem ht, hc]
      simp [h]

theorem fields_of_blank_append (h : a.blank = true) : fields sep (a ++ t) = fields sep t := by
  induction a with
  | nil => rfl
  | cons c a ih =>
    obtain ⟨hc, ha⟩ : isBlank c = true ∧ blank a = true := by simpa using h
    rw [List.cons_append, fields_cons_isBlank hc, ih ha]

/-- Blanks around a text do not change its fields. -/
theorem fields_trim (sep : Char) (t : Text) : fields sep t.trim = fields sep t := by
  obtain ⟨a, b, ha, hb, ht⟩ := exists_margins t
  conv_rhs => rw [ht]
  rw [fields_append_of_blank hb, fields_of_blank_append ha]

theorem fields_of_blank (h : t.blank = true) : fields sep t = [] :=
  fields_append_of_blank (s := []) h

theorem fields_ofLines (ls : List Text) : fields '\n' (ofLines ls) = ls.flatMap (fields '\n') := by
  induction ls with
  | nil => rfl
  | cons l ls ih =>
    cases ls with
    | nil => simp
    | cons l' ls =>
      rw [ofLines_cons l (List.cons_ne_nil l' ls), fields_append_sep, ih]
      rfl

/-- The fields of what stands between blank lines, as it reads without the blanks around it. -/
theorem fields_trim_ofLines {front tail : List Text} (hf : ∀ l ∈ front, l.blank = true)
    (ht : ∀ l ∈ tail, l.blank = true) :
    fields '\n' (trim (ofLines (front ++ ls ++ tail))) = ls.flatMap (fields '\n') := by
  have h : ∀ xs : List Text, (∀ l ∈ xs, l.blank = true) → xs.flatMap (fields '\n') = [] :=
    fun xs hx => List.flatMap_eq_nil_iff.mpr fun l hl => fields_of_blank (hx l hl)
  rw [fields_trim, fields_ofLines, List.flatMap_append, List.flatMap_append, h front hf, h tail ht,
    List.nil_append, List.append_nil]

/-- The trimmed lines of a text that are not blank are its fields between line feeds. -/
theorem filter_trim_lines (t : Text) : (t.lines.map trim).filter (· ≠ []) = fields '\n' t := by
  have hb : ∀ s : Text, (broken s).map trim = (s.splitOn '\n').map trim := fun s => by
    simp only [broken, List.map_map]
    exact List.map_congr_left fun l _ => trim_dropReturn l
  rcases last_piece_cases '\n' t with hf | ⟨s, l, hf, rfl⟩
  · by_cases hl : t = []
    · subst hl
      rfl
    · rw [lines_of_single hf hl, fields, List.splitOn_eq_singleton hf]
  · rw [fields, List.splitOn_append_cons_self, List.splitOn_eq_singleton hf]
    by_cases hl : l = []
    · subst hl
      rw [lines_append_feed, hb]
      simp
    · rw [lines_append_line s hf hl, List.map_append, List.map_append, hb]

theorem blank_ofLines (h : ∀ l ∈ ls, l.blank = true) : (ofLines ls).blank = true := by
  induction ls with
  | nil => rfl
  | cons l ls ih =>
    have hl : l.blank = true := h l (by simp)
    have ih := ih fun x hx => h x (by simp [hx])
    cases ls with
    | nil => simpa using hl
    | cons l' ls =>
      rw [ofLines_cons l (List.cons_ne_nil l' ls), blank_append, hl, blank_cons, ih]
      rfl

/-- Blank lines around some lines fall away with the blanks around the text. -/
theorem trim_ofLines {front tail : List Text} (hf : ∀ l ∈ front, l.blank = true)
    (ht : ∀ l ∈ tail, l.blank = true) (hn : ls ≠ []) :
    trim (ofLines (front ++ ls ++ tail)) = trim (ofLines ls) := by
  have hfront : trim (ofLines (front ++ (ls ++ tail))) = trim (ofLines (ls ++ tail)) := by
    by_cases he : front = []
    · rw [he, List.nil_append]
    · have hb : blank (ofLines front ++ ['\n']) = true := by
        rw [blank_append, blank_ofLines hf]
        rfl
      have ha : ofLines front ++ '\n' :: ofLines (ls ++ tail) =
          (ofLines front ++ ['\n']) ++ ofLines (ls ++ tail) := by simp
      rw [ofLines_append he (by simp [hn]), ha, trim_append_of_blank hb]
  have htail : trim (ofLines (ls ++ tail)) = trim (ofLines ls) := by
    by_cases he : tail = []
    · rw [he, List.append_nil]
    · rw [ofLines_append hn he]
      exact trim_append_of_blank_right (by rw [blank_cons, blank_ofLines ht]; rfl)
  rw [List.append_assoc, hfront, htail]

theorem trim_ofLines_between (hn : ls ≠ []) :
    trim (ofLines ([] :: ls ++ [[]])) = trim (ofLines ls) :=
  @trim_ofLines ls [[]] [[]] (by simp) (by simp) hn

/-- Lines of which the first starts with a character and the last is not blank. -/
theorem trim_ofLines_of_solid (hc : isBlank c = false) (hl : l.blank = false) :
    trim (ofLines ((c :: s) :: ls ++ [l])) = ofLines ((c :: s) :: ls ++ [l.trimEnd]) := by
  have hn : (c :: s) :: ls ≠ [] := by simp
  have hb : blank ('\n' :: l) = false := by simp [hl]
  have he : trimEnd ('\n' :: l) = '\n' :: l.trimEnd := trimEnd_append_of_not (s := ['\n']) hl
  obtain ⟨t, ht⟩ : ∃ t, ofLines ((c :: s) :: ls) = c :: t := by
    cases ls with
    | nil => exact ⟨s, by simp⟩
    | cons l' ls => exact ⟨_, ofLines_cons (c :: s) (List.cons_ne_nil l' ls)⟩
  rw [ofLines_append hn (by simp), ofLines_append hn (by simp), ofLines_singleton,
    ofLines_singleton, ht, trim, List.cons_append, trimStart_cons_of_not hc, ← List.cons_append,
    trimEnd_append_of_not hb, he]

theorem not_feed_mem_singleLine (t : Text) : '\n' ∉ singleLine t := by
  intro h
  obtain ⟨c, -, hc⟩ := List.mem_map.mp h
  split at hc <;> simp_all

theorem not_return_mem_singleLine (t : Text) : '\r' ∉ singleLine t := by
  intro h
  obtain ⟨c, -, hc⟩ := List.mem_map.mp h
  split at hc <;> simp_all

theorem singleLine_of_single (hf : '\n' ∉ t) (hr : '\r' ∉ t) : singleLine t = t := by
  have h : ∀ c ∈ t, (if c = '\r' || c = '\n' then ' ' else c) = c := by
    intro c hc
    have h1 : c ≠ '\n' := fun h => hf (h ▸ hc)
    have h2 : c ≠ '\r' := fun h => hr (h ▸ hc)
    simp [h1, h2]
  rw [singleLine, List.map_congr_left h, List.map_id']

@[simp] theorem singleLine_append (s t : Text) :
    singleLine (s ++ t) = singleLine s ++ singleLine t := List.map_append

theorem blank_singleLine (t : Text) : (singleLine t).blank = t.blank := by
  have h : ∀ c, isBlank (if c = '\r' || c = '\n' then ' ' else c) = isBlank c := by
    intro c
    split
    next hc =>
      rcases (by simpa using hc : c = '\r' ∨ c = '\n') with rfl | rfl <;> rfl
    next => rfl
  simp only [blank, singleLine, List.all_map]
  exact congrArg (List.all t) (funext h)

theorem singleLine_trim_singleLine (t : Text) :
    singleLine (singleLine t).trim = (singleLine t).trim :=
  singleLine_of_single
    (fun h => not_feed_mem_singleLine t (mem_of_mem_trim h))
    (fun h => not_return_mem_singleLine t (mem_of_mem_trim h))

/-- Whether a text stands on one line. -/
def Single (t : Text) : Prop := ∀ c ∈ t, c ≠ '\n' ∧ c ≠ '\r'

instance : Decidable (Single t) := inferInstanceAs (Decidable (∀ c ∈ t, c ≠ '\n' ∧ c ≠ '\r'))

theorem Single.not_feed_mem (h : t.Single) : '\n' ∉ t := fun hc => (h _ hc).1 rfl

theorem Single.not_return_mem (h : t.Single) : '\r' ∉ t := fun hc => (h _ hc).2 rfl

theorem Single.append (hs : s.Single) (ht : t.Single) : Single (s ++ t) := by
  intro c hc
  rcases List.mem_append.mp hc with hc | hc
  · exact hs c hc
  · exact ht c hc

theorem Single.joined {sep : Text} (hs : sep.Single) (h : ∀ l ∈ ls, l.Single) :
    Single (joined sep ls) := by
  induction ls with
  | nil => intro c hc; cases hc
  | cons l ls ih =>
    have hl : l.Single := h l (by simp)
    have ih := ih fun x hx => h x (by simp [hx])
    cases ls with
    | nil => simpa [Text.joined] using hl
    | cons l' ls => simpa [Text.joined] using hl.append (hs.append ih)

theorem mem_joined {sep : Text} {c : Char} (h : c ∈ joined sep ls) :
    c ∈ sep ∨ ∃ l ∈ ls, c ∈ l := by
  induction ls with
  | nil => cases h
  | cons l ls ih =>
    cases ls with
    | nil => exact Or.inr ⟨l, by simp, by simpa [joined] using h⟩
    | cons l' ls =>
      have he : joined sep (l :: l' :: ls) = l ++ (sep ++ joined sep (l' :: ls)) := by simp [joined]
      rw [he] at h
      rcases List.mem_append.mp h with h | h
      · exact Or.inr ⟨l, by simp, h⟩
      · rcases List.mem_append.mp h with h | h
        · exact Or.inl h
        · rcases ih h with hs | ⟨x, hx, hc⟩
          · exact Or.inl hs
          · exact Or.inr ⟨x, List.mem_cons_of_mem l hx, hc⟩

theorem single_singleLine (t : Text) : (singleLine t).Single := fun _ hc =>
  ⟨fun h => not_feed_mem_singleLine t (h ▸ hc), fun h => not_return_mem_singleLine t (h ▸ hc)⟩

theorem broken_eq_self (h : ∀ l ∈ ls, l.Single) : ls.flatMap broken = ls := by
  induction ls with
  | nil => rfl
  | cons l ls ih =>
    have hl : l.Single := h l (by simp)
    rw [List.flatMap_cons, broken_of_single hl.not_feed_mem hl.not_return_mem,
      ih fun x hx => h x (by simp [hx])]
    rfl

/-- What holds of the lines of a text without carriage returns, and of the empty line, holds of what
stands between its line feeds. -/
theorem forall_splitOn {p : Text → Prop} (hr : '\r' ∉ t) (hp : p []) (h : ∀ l ∈ t.lines, p l) :
    ∀ l ∈ t.splitOn '\n', p l := by
  rcases last_piece_cases '\n' t with hf | ⟨s, l, hf, rfl⟩
  · intro l hl
    rw [List.splitOn_eq_singleton hf, List.mem_singleton] at hl
    subst hl
    by_cases hn : l = []
    · subst hn
      exact hp
    · exact h l (by simp [lines_of_single hf hn])
  · have hs : '\r' ∉ s := fun hm => hr (List.mem_append_left _ hm)
    intro x hx
    rw [List.splitOn_append_cons_self, List.splitOn_eq_singleton hf, ← broken_of_no_return hs] at hx
    by_cases hn : l = []
    · subst hn
      rw [lines_append_feed] at h
      rcases List.mem_append.mp hx with hx | hx
      · exact h x hx
      · rw [List.mem_singleton.mp hx]
        exact hp
    · rw [lines_append_line s hf hn] at h
      exact h x hx

theorem lines_ofLines_concat (h : ls.flatMap broken = ls) (hf : '\n' ∉ l) (hl : l ≠ []) :
    lines (ofLines (ls ++ [l])) = ls ++ [l] := by
  by_cases hn : ls = []
  · subst hn
    simpa using lines_of_single hf hl
  · rw [ofLines_append hn (by simp), ofLines_singleton, lines_append_line _ hf hl,
      broken_ofLines hn, h]

/-- Whether no line of a text ends in a carriage return. -/
def Firm (t : Text) : Prop := broken t = t.splitOn '\n'

theorem firm_of_no_return (h : '\r' ∉ t) : t.Firm := broken_of_no_return h

theorem Firm.broken_splitOn (h : t.Firm) : (t.splitOn '\n').flatMap broken = t.splitOn '\n' := by
  rw [← broken_ofLines (List.splitOn_ne_nil '\n' t), ofLines_splitOn, h]

end DesignRecords.Text
