import DesignRecords.Calendar.Instant
import DesignRecords.Proofs.Text.Numeral
import DesignRecords.Proofs.Text.Content

namespace DesignRecords

namespace Date

variable {d : Date}

/-- Whether the calendar has a date. -/
def Valid (d : Date) : Prop := ofParts? d.year d.month d.day = some d

theorem daysIn_le (year : Int) (month : Nat) : daysIn year month ≤ 31 := by
  unfold daysIn
  split
  · split <;> omega
  · split <;> omega

theorem Valid.bounds (h : d.Valid) :
    yearInRange d.year = true ∧ d.month ≤ 12 ∧ d.day ≤ 31 := by
  unfold Valid ofParts? at h
  split at h
  next hc =>
    simp only [Bool.and_eq_true, decide_eq_true_eq] at hc
    have := daysIn_le d.year d.month
    exact ⟨hc.1.1.1.1, hc.1.1.2, by omega⟩
  next => cases h

theorem isBlank_of_isDigit {c : Char} (h : c.isDigit = true) : isBlank c = false := by
  have hc : 48 ≤ c.toNat ∧ c.toNat ≤ 57 := by
    simpa [Char.isDigit, UInt32.le_iff_toNat_le] using h
  simp only [isBlank, Bool.or_eq_false_iff, Bool.and_eq_false_iff, decide_eq_false_iff_not,
    beq_eq_false_iff_ne]
  omega

theorem exists_digit_ofNat (width n : Nat) :
    ∃ c s, Text.ofNat width n = c :: s ∧ c.isDigit = true := by
  obtain ⟨c, s, hs⟩ := List.exists_cons_of_ne_nil (Text.ofNat_ne_nil width n)
  exact ⟨c, s, hs, Text.isDigit_of_mem_ofNat (by rw [hs]; simp)⟩

theorem trimStart_ofNat (width n : Nat) (rest : Text) :
    Text.trimStart (Text.ofNat width n ++ rest) = Text.ofNat width n ++ rest := by
  obtain ⟨c, s, hs, hc⟩ := exists_digit_ofNat width n
  rw [hs]
  exact Text.trimStart_cons_of_not (isBlank_of_isDigit hc)

/-- A year of any length is read to its end, where no digit follows it. -/
theorem readYear?_yearText (year : Int) (rest : Text)
    (hr : ∀ c ∈ rest.head?, c.isDigit = false) :
    readYear? (yearText year ++ rest) = some (year, rest) := by
  have hd : ∀ c ∈ Text.ofNat 4 year.natAbs, c.isDigit = true := fun _ => Text.isDigit_of_mem_ofNat
  have hl : 1 ≤ (Text.ofNat 4 year.natAbs).length :=
    List.length_pos_iff.mpr (Text.ofNat_ne_nil 4 year.natAbs)
  have hn : Text.number? 1 (Text.ofNat 4 year.natAbs ++ rest).length
      (Text.ofNat 4 year.natAbs ++ rest) = some (year.natAbs, rest) := by
    rw [Text.number?_append hd hl (by simp) (Or.inr hr), Text.digitsValue_ofNat]
  unfold yearText
  split
  next hy =>
    have hb : Text.trimStart ('-' :: (Text.ofNat 4 year.natAbs ++ rest)) =
        '-' :: (Text.ofNat 4 year.natAbs ++ rest) := Text.trimStart_cons_of_not rfl
    simp only [readYear?, List.cons_append, hb, hn, Option.map_some]
    rw [show -(year.natAbs : Int) = year by omega]
  next hy =>
    split
    next hy' =>
      have hb : Text.trimStart ('+' :: (Text.ofNat 4 year.natAbs ++ rest)) =
          '+' :: (Text.ofNat 4 year.natAbs ++ rest) := Text.trimStart_cons_of_not rfl
      simp only [readYear?, List.cons_append, hb, hn, Option.map_some]
      rw [show (year.natAbs : Int) = year by omega]
    next hy' =>
      have hlt : year.natAbs < 10000 := by omega
      have h4 : Text.number? 1 4 (Text.ofNat 4 year.natAbs ++ rest) = some (year.natAbs, rest) :=
        Text.number?_ofNat (by decide) hlt (by decide) rest
      obtain ⟨c, s, hs, hc⟩ := exists_digit_ofNat 4 year.natAbs
      rw [readYear?, trimStart_ofNat]
      rw [hs] at h4 ⊢
      split
      next he =>
        cases he
        exact absurd hc (by decide)
      next he =>
        cases he
        exact absurd hc (by decide)
      next =>
        have hy : (year.natAbs : Int) = year := by omega
        simp only [h4, Option.map_some, hy]

theorem readField?_ofNat {n : Nat} (h : n < 100) (rest : Text) :
    readField? (Text.ofNat 2 n ++ rest) = some (n, rest) := by
  rw [readField?, trimStart_ofNat]
  exact Text.number?_ofNat (by decide) h (by decide) rest

/-- Every date of the calendar is read from its own text. -/
theorem read?_text (h : d.Valid) : read? d.text = some d := by
  obtain ⟨-, hm, hd⟩ := h.bounds
  have hmonth := readField?_ofNat (n := d.month) (by omega) ('-' :: Text.ofNat 2 d.day)
  have hday := readField?_ofNat (n := d.day) (by omega) []
  have hyear := readYear?_yearText d.year
    ('-' :: (Text.ofNat 2 d.month ++ '-' :: Text.ofNat 2 d.day)) (by simp)
  have ht : d.text =
      yearText d.year ++ '-' :: (Text.ofNat 2 d.month ++ '-' :: Text.ofNat 2 d.day) := by
    simp [text, show ("-" : String).toList = ['-'] from rfl]
  have ha : ∀ t : Text, Text.after? "-" ('-' :: t) = some t := fun _ => rfl
  rw [List.append_nil] at hday
  simp only [read?, ht, hyear, ha, hmonth, hday, Option.bind_eq_bind, Option.bind_some]
  exact h

/-- The characters of dates. -/
theorem mem_text {c : Char} (h : c ∈ d.text) : c.isDigit = true ∨ c = '-' ∨ c = '+' := by
  have hy : ∀ c ∈ yearText d.year, c.isDigit = true ∨ c = '-' ∨ c = '+' := by
    intro c hc
    unfold yearText at hc
    split at hc
    next =>
      rcases List.mem_cons.mp hc with rfl | hc
      · exact Or.inr (Or.inl rfl)
      · exact Or.inl (Text.isDigit_of_mem_ofNat hc)
    next =>
      split at hc
      next =>
        rcases List.mem_cons.mp hc with rfl | hc
        · exact Or.inr (Or.inr rfl)
        · exact Or.inl (Text.isDigit_of_mem_ofNat hc)
      next => exact Or.inl (Text.isDigit_of_mem_ofNat hc)
  have hs : ∀ c ∈ ("-" : String).toList, c = '-' := fun c hc => by simpa using hc
  simp only [text, List.mem_append] at h
  rcases h with (((h | h) | h) | h) | h
  · exact hy c h
  · exact Or.inr (Or.inl (hs c h))
  · exact Or.inl (Text.isDigit_of_mem_ofNat h)
  · exact Or.inr (Or.inl (hs c h))
  · exact Or.inl (Text.isDigit_of_mem_ofNat h)

theorem exists_digit_text (d : Date) : ∃ c ∈ d.text, c.isDigit = true := by
  obtain ⟨c, s, hs, hc⟩ := exists_digit_ofNat 2 d.day
  exact ⟨c, by simp [text, hs], hc⟩

theorem isBlank_of_mem_text {c : Char} (h : c ∈ d.text) : isBlank c = false := by
  rcases mem_text h with h | rfl | rfl
  · exact isBlank_of_isDigit h
  · rfl
  · rfl

theorem singleLine_text (d : Date) : Text.singleLine d.text = d.text :=
  Text.singleLine_of_single (fun h => absurd (isBlank_of_mem_text h) (by decide))
    fun h => absurd (isBlank_of_mem_text h) (by decide)

theorem trim_text (d : Date) : Text.trim d.text = d.text :=
  Text.trim_of_forall fun _ => isBlank_of_mem_text

theorem bar_not_mem_text (d : Date) : '|' ∉ d.text := by
  intro h
  rcases mem_text h with h | h | h <;> exact absurd h (by decide)

end Date

namespace Instant

/-- Whether an instant is a whole second, which may be a leap second, of a year of four digits. -/
structure Plain (i : Instant) : Prop where
  date : i.date.Valid
  first : 0 ≤ i.date.year
  last : i.date.year ≤ 9999
  second : i.second < 86400
  whole : i.nanosecond = 0 ∨ (i.nanosecond = 1000000000 ∧ i.second % 60 = 59)

variable {i : Instant}

theorem textToSecond_eq (h : i.Plain) : i.textToSecond =
    Text.ofNat 4 i.date.year.natAbs ++ '-' :: (Text.ofNat 2 i.date.month ++
      '-' :: (Text.ofNat 2 i.date.day ++ 'T' :: (Text.ofNat 2 (i.second / 3600) ++
        ':' :: (Text.ofNat 2 (i.second / 60 % 60) ++
          ':' :: Text.ofNat 2 (i.second % 60 + i.nanosecond / 1000000000))))) := by
  have h0 := h.first
  have h9 := h.last
  have hy : Date.yearText i.date.year = Text.ofNat 4 i.date.year.natAbs := by
    rw [Date.yearText, if_neg (by omega), if_neg (by omega)]
  have hd : ("-" : String).toList = ['-'] := rfl
  have ht : ("T" : String).toList = ['T'] := rfl
  have hc : (":" : String).toList = [':'] := rfl
  simp [textToSecond, Date.text, hy, hd, ht, hc]

theorem ofParts?_plain (h : i.Plain) :
    ofParts? i.date (i.second / 3600) (i.second / 60 % 60)
      (i.second % 60 + i.nanosecond / 1000000000) 0 0 = some i := by
  have hs := h.second
  have hw := h.whole
  have hn : i.nanosecond =
      if i.second % 60 + i.nanosecond / 1000000000 = 60 then 1000000000 else 0 := by
    split <;> omega
  have hm : 3600 * (i.second / 3600) + 60 * (i.second / 60 % 60) +
      min (i.second % 60 + i.nanosecond / 1000000000) 59 = i.second := by omega
  rw [ofParts?]
  split
  next hg =>
    simp only [Bool.or_eq_true, decide_eq_true_eq] at hg
    omega
  next =>
    rw [hm, Nat.zero_add, ← hn, ofLocal?]
    simp only [Int.sub_zero]
    rw [if_neg (by omega), if_neg (by omega)]
    rfl

/-- An instant up to the second is read from its own text. -/
theorem read?_text (h : i.Plain) : read? i.text = some i := by
  have h0 := h.first
  have h9 := h.last
  have hs := h.second
  have hw := h.whole
  obtain ⟨-, hm, hd⟩ := h.date.bounds
  have hn : ∀ n rest, n < 100 → Text.number? 2 2 (Text.ofNat 2 n ++ rest) = some (n, rest) :=
    fun n rest hn => Text.number?_ofNat (by decide) hn (by decide) rest
  have hlt : i.date.year.natAbs < 10000 := by omega
  have hy : ∀ rest, Text.number? 4 4 (Text.ofNat 4 i.date.year.natAbs ++ rest) =
      some (i.date.year.natAbs, rest) :=
    fun rest => Text.number?_ofNat (by decide) hlt (by decide) rest
  have hdash : ∀ t : Text, Text.after? "-" ('-' :: t) = some t := fun _ => rfl
  have hcolon : ∀ t : Text, Text.after? ":" (':' :: t) = some t := fun _ => rfl
  have hmark : ∀ t : Text, afterDateMark? ('T' :: t) = some t := fun _ => rfl
  have hz : readFraction? ("Z" : String).toList = some (0, ['Z']) := rfl
  have ho : readOffset? (Text.after? ":") ['Z'] = some (0, []) := rfl
  have hyear : ((i.date.year.natAbs : Nat) : Int) = i.date.year := by omega
  have hp : Date.ofParts? i.date.year i.date.month i.date.day = some i.date := h.date
  have ht : i.text = Text.ofNat 4 i.date.year.natAbs ++ '-' :: (Text.ofNat 2 i.date.month ++
      '-' :: (Text.ofNat 2 i.date.day ++ 'T' :: (Text.ofNat 2 (i.second / 3600) ++
        ':' :: (Text.ofNat 2 (i.second / 60 % 60) ++
          ':' :: (Text.ofNat 2 (i.second % 60 + i.nanosecond / 1000000000) ++ ("Z" : Text)))))) := by
    rw [text, textToSecond_eq h]
    simp only [List.append_assoc, List.cons_append]
  rw [ht]
  refine Option.bind_eq_some_iff.mpr ⟨_, hy _, ?_⟩
  refine Option.bind_eq_some_iff.mpr ⟨_, hdash _, ?_⟩
  refine Option.bind_eq_some_iff.mpr ⟨_, hn _ _ (by omega), ?_⟩
  refine Option.bind_eq_some_iff.mpr ⟨_, hdash _, ?_⟩
  refine Option.bind_eq_some_iff.mpr ⟨_, hn _ _ (by omega), ?_⟩
  refine Option.bind_eq_some_iff.mpr ⟨_, hmark _, ?_⟩
  refine Option.bind_eq_some_iff.mpr ⟨_, hn _ _ (by omega), ?_⟩
  refine Option.bind_eq_some_iff.mpr ⟨_, hcolon _, ?_⟩
  refine Option.bind_eq_some_iff.mpr ⟨_, hn _ _ (by omega), ?_⟩
  refine Option.bind_eq_some_iff.mpr ⟨_, hcolon _, ?_⟩
  refine Option.bind_eq_some_iff.mpr ⟨_, hn _ _ (by omega), ?_⟩
  refine Option.bind_eq_some_iff.mpr ⟨_, hz, ?_⟩
  refine Option.bind_eq_some_iff.mpr ⟨_, ho, ?_⟩
  rw [hyear]
  exact Option.bind_eq_some_iff.mpr ⟨_, hp, ofParts?_plain h⟩

theorem isBlank_of_mem_text {c : Char} (h : c ∈ i.text) : isBlank c = false := by
  have hn : ∀ w n, ∀ c ∈ Text.ofNat w n, isBlank c = false := fun _ _ _ hc =>
    Date.isBlank_of_isDigit (Text.isDigit_of_mem_ofNat hc)
  have hs : ∀ c ∈ ("T:Z" : String).toList, isBlank c = false := by decide
  simp only [text, textToSecond, List.mem_append, or_assoc] at h
  rcases h with h | h | h | h | h | h | h | h
  · exact Date.isBlank_of_mem_text h
  · exact hs c (List.mem_of_mem_take (i := 1) h)
  · exact hn _ _ c h
  · exact hs c (List.mem_of_mem_drop (i := 1) (List.mem_of_mem_take (i := 1) h))
  · exact hn _ _ c h
  · exact hs c (List.mem_of_mem_drop (i := 1) (List.mem_of_mem_take (i := 1) h))
  · exact hn _ _ c h
  · exact hs c (List.mem_of_mem_drop (i := 2) h)

/-- The instant up to the second; a leap second stays one. -/
def wholeSecond (i : Instant) : Instant :=
  { i with nanosecond := i.nanosecond / 1000000000 * 1000000000 }

/-- Whether an instant is one that a clock shows in a year of four digits. -/
structure Shown (i : Instant) : Prop where
  date : i.date.Valid
  first : 0 ≤ i.date.year
  last : i.date.year ≤ 9999
  second : i.second < 86400
  nanosecond : i.nanosecond < 1000000000 ∨ (i.nanosecond < 2000000000 ∧ i.second % 60 = 59)

instance : Decidable i.Shown :=
  decidable_of_iff (Date.ofParts? i.date.year i.date.month i.date.day = some i.date ∧
      0 ≤ i.date.year ∧ i.date.year ≤ 9999 ∧ i.second < 86400 ∧
      (i.nanosecond < 1000000000 ∨ (i.nanosecond < 2000000000 ∧ i.second % 60 = 59)))
    ⟨fun ⟨date, first, last, second, nanosecond⟩ => ⟨date, first, last, second, nanosecond⟩,
      fun ⟨date, first, last, second, nanosecond⟩ => ⟨date, first, last, second, nanosecond⟩⟩

theorem Shown.plain (h : i.Shown) : i.wholeSecond.Plain where
  date := h.date
  first := h.first
  last := h.last
  second := h.second
  whole := by
    have hn := h.nanosecond
    unfold wholeSecond
    dsimp only
    omega

/-- An instant is written up to the second. -/
theorem text_wholeSecond (i : Instant) : i.wholeSecond.text = i.text := by
  have hn : i.nanosecond / 1000000000 * 1000000000 / 1000000000 = i.nanosecond / 1000000000 :=
    Nat.mul_div_cancel _ (by decide)
  simp only [text, textToSecond, wholeSecond, hn]

end Instant

end DesignRecords
