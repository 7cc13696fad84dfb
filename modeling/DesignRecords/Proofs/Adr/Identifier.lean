import DesignRecords.Proofs.Adr.Metadata

namespace DesignRecords

/-- A text is found in front of a character that it does not have just where it is found without
the character and what follows. -/
theorem Text.after?_append_cons {lead : Text} {c : Char} (hc : c ∉ lead) (s t : Text) :
    after? lead (s ++ c :: t) = (after? lead s).map (· ++ c :: t) := by
  cases hs : after? lead s with
  | some rest => rw [after?_eq_some.mp hs, Option.map_some, after?_eq_some, List.append_assoc]
  | none =>
    rw [Option.map_none, Option.eq_none_iff_forall_ne_some]
    intro rest hrest
    have hnone : ∀ r, s ≠ lead ++ r := fun r he => by
      rw [after?_eq_some.mpr he] at hs
      cases hs
    rcases List.append_eq_append_iff.mp (after?_eq_some.mp hrest) with
      ⟨front, hlead, htail⟩ | ⟨front, hfront, -⟩
    · cases front with
      | nil => exact hnone [] (by rw [hlead, List.append_nil, List.append_nil])
      | cons d front =>
        obtain ⟨rfl, -⟩ := List.cons.inj htail
        exact hc (by simp [hlead])
    · exact hnone front hfront

namespace Path

variable {name stem : Text}

/-- The name of a markdown file is its stem and an extension that reads `md`. -/
theorem exists_extension_of_isMarkdown (h : IsName name) (hm : (Path.mk name).isMarkdown = true)
    (hs : (Path.mk name).stem? = some stem) : ∃ extension,
      (Path.mk name).extension? = some extension ∧
        Text.sameIgnoringCase "md" extension = true ∧ name = stem ++ '.' :: extension := by
  obtain ⟨stem', extension, hne, hd, he, rfl⟩ := (isMarkdown_iff h).mp hm
  have hsplit : splitName (stem' ++ '.' :: extension) = (stem', some extension) := by
    rw [splitName_append hd, if_neg (by simpa using hne)]
  rw [stem?, fileName?_mk h, Option.map_some, hsplit] at hs
  cases hs
  refine ⟨extension, ?_, he, rfl⟩
  rw [extension?, fileName?_mk h, Option.bind_some, hsplit]

end Path

namespace Adr

variable {name name' stem digits extension extension' : Text}

/-- What may stand in front of the number of a record. -/
def fronts : List Text := [[], "ADR-", "adr-"]

/-- Whether a stem starts with a number, all of its digits taken, behind a front that it may
have. -/
def Numbered (stem digits : Text) : Prop :=
  ∃ front rest, front ∈ fronts ∧ stem = front ++ (digits ++ rest) ∧ digits ≠ [] ∧
    (∀ c ∈ digits, c.isDigit = true) ∧ ∀ c ∈ rest.head?, c.isDigit = false

/-- Whether a stem has an identifier: `ADR-` and its number, or the stem itself if it has none. -/
def Identifies (stem id : Text) : Prop :=
  (∃ digits, Numbered stem digits ∧ id = "ADR-" ++ digits) ∨
    (∀ digits, ¬ Numbered stem digits) ∧ id = stem

/-- What stands behind the front of a stem. -/
def behindFront (stem : Text) : Text :=
  ((Text.after? "ADR-" stem).or (Text.after? "adr-" stem)).getD stem

/-- The digits that a stem has behind its front. -/
def number (stem : Text) : Text := (behindFront stem).takeWhile Char.isDigit

theorem exists_front (stem : Text) : ∃ front ∈ fronts, stem = front ++ behindFront stem := by
  unfold behindFront
  cases hu : Text.after? "ADR-" stem with
  | some rest => exact ⟨"ADR-", by simp [fronts], Text.after?_eq_some.mp hu⟩
  | none =>
    cases hl : Text.after? "adr-" stem with
    | some rest => exact ⟨"adr-", by simp [fronts], Text.after?_eq_some.mp hl⟩
    | none => exact ⟨[], by simp [fronts], rfl⟩

theorem behindFront_append {front : Text} {c : Char} (hf : front ∈ fronts)
    (hc : c.isDigit = true) (t : Text) : behindFront (front ++ c :: t) = c :: t := by
  have hnone : ∀ d : Char, d.isDigit = false → ∀ lead : Text,
      Text.after? (d :: lead) (c :: t) = none := by
    intro d hd lead
    rw [Option.eq_none_iff_forall_ne_some]
    intro rest hr
    obtain ⟨rfl, -⟩ := List.cons.inj (Text.after?_eq_some.mp hr)
    rw [hc] at hd
    cases hd
  have hupper : Text.after? "ADR-" (c :: t) = none := hnone 'A' rfl _
  have hlower : Text.after? "adr-" (c :: t) = none := hnone 'a' rfl _
  simp only [fronts, List.mem_cons, List.not_mem_nil, or_false] at hf
  rcases hf with rfl | rfl | rfl
  · rw [behindFront, List.nil_append, hupper, hlower]
    rfl
  · rfl
  · rfl

theorem numbered_iff : Numbered stem digits ↔ digits ≠ [] ∧ number stem = digits := by
  constructor
  · rintro ⟨front, rest, hf, rfl, hne, hd, hr⟩
    refine ⟨hne, ?_⟩
    obtain ⟨c, digits, rfl⟩ := List.exists_cons_of_ne_nil hne
    -- The run of digits ends where the rest starts.
    have hrest : rest.takeWhile Char.isDigit = [] := by
      cases rest with
      | nil => rfl
      | cons e rest => rw [List.takeWhile_cons, hr e rfl, if_neg Bool.false_ne_true]
    rw [number, List.cons_append, behindFront_append hf (hd c (by simp)), ← List.cons_append,
      List.takeWhile_append_of_pos hd, hrest, List.append_nil]
  · rintro ⟨hne, rfl⟩
    obtain ⟨front, hf, hs⟩ := exists_front stem
    refine ⟨front, (behindFront stem).dropWhile Char.isDigit, hf, ?_, hne, ?_, ?_⟩
    · rw [number, List.takeWhile_append_dropWhile]
      exact hs
    · exact fun c hc => List.mem_takeWhile_imp hc
    · intro c hc
      have hstop := List.head?_dropWhile_not Char.isDigit (behindFront stem)
      rw [Option.mem_def.mp hc] at hstop
      exact hstop

theorem numbered_number : (∃ digits, Numbered stem digits) ↔ number stem ≠ [] := by
  simp [numbered_iff]

/-- An extension has no part in the number. -/
theorem number_append_extension (stem extension : Text) :
    number (stem ++ '.' :: extension) = number stem := by
  have hbehind : behindFront (stem ++ '.' :: extension) = behindFront stem ++ '.' :: extension := by
    rw [behindFront, behindFront, Text.after?_append_cons (by decide),
      Text.after?_append_cons (by decide)]
    cases Text.after? "ADR-" stem <;> cases Text.after? "adr-" stem <;> rfl
  have hstop : ∀ s : Text, (s ++ '.' :: extension).takeWhile Char.isDigit =
      s.takeWhile Char.isDigit := by
    intro s
    induction s with
    | nil => rfl
    | cons c s ih => rw [List.cons_append, List.takeWhile_cons, List.takeWhile_cons, ih]
  rw [number, hbehind, hstop, number]

theorem idOf_eq (name : Text) : idOf name =
    if (number ((Text.before? ".md" name).getD name)).isEmpty then
      (Text.before? ".md" name).getD name
    else "ADR-" ++ number ((Text.before? ".md" name).getD name) := rfl

theorem before?_markdown (hm : Text.sameIgnoringCase "md" extension = true) :
    Text.before? ".md" (stem ++ '.' :: extension) =
      if extension = "md" then some stem else none := by
  have hlength : extension.length = 2 := by
    have he := congrArg List.length (eq_of_beq hm)
    rw [List.length_map, List.length_map] at he
    exact he.symm
  split
  next he =>
    rw [he]
    exact List.isSuffixOf?_eq_some_iff_append_eq.mpr rfl
  next hne =>
    rw [Option.eq_none_iff_forall_ne_some]
    intro s hs
    have hs : s ++ '.' :: ("md" : Text) = stem ++ '.' :: extension :=
      List.isSuffixOf?_eq_some_iff_append_eq.mp hs
    obtain ⟨-, he⟩ := List.append_inj' hs (by simp [hlength])
    exact hne (List.cons.inj he).2.symm

/-- The name of a markdown file gives the number of its stem. Without a number it gives the stem if
its extension is in small letters, and the whole name if not. -/
theorem idOf_markdown (hm : Text.sameIgnoringCase "md" extension = true) :
    idOf (stem ++ '.' :: extension) =
      if number stem = [] then if extension = "md" then stem else stem ++ '.' :: extension
      else "ADR-" ++ number stem := by
  rw [idOf_eq, before?_markdown hm]
  by_cases he : extension = "md"
  · simp only [if_pos he, Option.getD_some, List.isEmpty_iff]
  · simp only [if_neg he, Option.getD_none, number_append_extension, List.isEmpty_iff]

theorem identifies_iff {id : Text} : Identifies stem id ↔
    id = if number stem = [] then stem else "ADR-" ++ number stem := by
  unfold Identifies
  by_cases hn : number stem = []
  · simp [numbered_iff, hn]
  · simp [numbered_iff, hn]

theorem identifies_idOf_iff (hm : Text.sameIgnoringCase "md" extension = true) :
    Identifies stem (idOf (stem ++ '.' :: extension)) ↔
      extension = "md" ∨ ∃ digits, Numbered stem digits := by
  rw [identifies_iff, idOf_markdown hm, numbered_number]
  by_cases hn : number stem = []
  · by_cases he : extension = "md" <;> simp [hn, he]
  · simp [hn]

theorem idOf_markdown_eq_iff (hm : Text.sameIgnoringCase "md" extension = true)
    (hm' : Text.sameIgnoringCase "md" extension' = true) :
    idOf (stem ++ '.' :: extension) = idOf (stem ++ '.' :: extension') ↔
      extension = extension' ∨ ∃ digits, Numbered stem digits := by
  rw [idOf_markdown hm, idOf_markdown hm', numbered_number]
  by_cases hn : number stem = []
  · have hne : ∀ e : Text, stem ≠ stem ++ '.' :: e := fun e => by simp
    rw [if_pos hn, if_pos hn, or_iff_left fun h => h hn]
    by_cases he : extension = "md"
    · by_cases he' : extension' = "md"
      · rw [if_pos he, if_pos he']
        exact iff_of_true rfl (he.trans he'.symm)
      · rw [if_pos he, if_neg he']
        exact iff_of_false (hne _) fun h => he' (h ▸ he)
    · by_cases he' : extension' = "md"
      · rw [if_neg he, if_pos he']
        exact iff_of_false (hne _).symm fun h => he (h.symm ▸ he')
      · rw [if_neg he, if_neg he', List.append_right_inj, List.cons_inj_right]
  · simp [hn]

/-- Two names of markdown files that share their stem give the same identifier if the stem has a
number or they are the same name. Both give the identifier of the stem if it has a number or both
extensions are in small letters: another extension is left in the identifier. -/
theorem idOf_alike_iff (h : Path.IsName name) (hm : (Path.mk name).isMarkdown = true)
    (hs : (Path.mk name).stem? = some stem) (h' : Path.IsName name')
    (hm' : (Path.mk name').isMarkdown = true) (hs' : (Path.mk name').stem? = some stem) :
    (idOf name = idOf name' ↔ name = name' ∨ ∃ digits, Numbered stem digits) ∧
    (Identifies stem (idOf name) ∧ Identifies stem (idOf name') ↔
      (Path.mk name).extension? = some "md".toList ∧ (Path.mk name').extension? = some "md".toList ∨
        ∃ digits, Numbered stem digits) := by
  obtain ⟨extension, he, hmd, rfl⟩ := Path.exists_extension_of_isMarkdown h hm hs
  obtain ⟨extension', he', hmd', rfl⟩ := Path.exists_extension_of_isMarkdown h' hm' hs'
  constructor
  · rw [idOf_markdown_eq_iff hmd hmd', List.append_right_inj, List.cons_inj_right]
  · rw [identifies_idOf_iff hmd, identifies_idOf_iff hmd', he, he', Option.some_inj,
      Option.some_inj]
    exact (and_or_right).symm

theorem idOf_alike_iff_numbered :
    Path.IsName "adr-12.b.Md" ∧ (Path.mk "adr-12.b.Md").isMarkdown = true ∧
    (Path.mk "adr-12.b.Md").stem? = some "adr-12.b".toList ∧
    Path.IsName "adr-12.b.mD" ∧ (Path.mk "adr-12.b.mD").isMarkdown = true ∧
    (Path.mk "adr-12.b.mD").stem? = some "adr-12.b".toList ∧
    (idOf "adr-12.b.Md" = idOf "adr-12.b.mD" ↔
      ("adr-12.b.Md" : Text) = "adr-12.b.mD" ∨ ∃ digits, Numbered "adr-12.b" digits) ∧
    (Identifies "adr-12.b" (idOf "adr-12.b.Md") ∧ Identifies "adr-12.b" (idOf "adr-12.b.mD") ↔
      (Path.mk "adr-12.b.Md").extension? = some "md".toList ∧
          (Path.mk "adr-12.b.mD").extension? = some "md".toList ∨
        ∃ digits, Numbered "adr-12.b" digits) := by
  have h : Path.IsName "adr-12.b.Md" ∧ (Path.mk "adr-12.b.Md").isMarkdown = true ∧
      (Path.mk "adr-12.b.Md").stem? = some "adr-12.b".toList := by decide +kernel
  have h' : Path.IsName "adr-12.b.mD" ∧ (Path.mk "adr-12.b.mD").isMarkdown = true ∧
      (Path.mk "adr-12.b.mD").stem? = some "adr-12.b".toList := by decide +kernel
  exact ⟨h.1, h.2.1, h.2.2, h'.1, h'.2.1, h'.2.2,
    idOf_alike_iff h.1 h.2.1 h.2.2 h'.1 h'.2.1 h'.2.2⟩

/-- A capital extension is left in the identifier of a record without a number. -/
theorem idOf_capital_extension :
    Path.IsName "caching.md" ∧ (Path.mk "caching.md").isMarkdown = true ∧
    (Path.mk "caching.md").stem? = some "caching".toList ∧
    Path.IsName "caching.MD" ∧ (Path.mk "caching.MD").isMarkdown = true ∧
    (Path.mk "caching.MD").stem? = some "caching".toList ∧
    Identifies "caching" (idOf "caching.md") ∧ idOf "caching.MD" ≠ idOf "caching.md" := by
  have hid : Identifies "caching" (idOf "caching.md") := identifies_iff.mpr (by decide +kernel)
  refine ⟨?_, ?_, ?_, ?_, ?_, ?_, hid, ?_⟩ <;> decide +kernel

end Adr

end DesignRecords
