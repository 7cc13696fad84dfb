import DesignRecords.Proofs.Document.Listing
import DesignRecords.Proofs.Document.Outline
import DesignRecords.Proofs.Document.Settled

namespace DesignRecords.Component

variable {c : Component} {l : Text} {ls : List Text}

theorem withLine_trim (c : Component) (l : Text) : c.withLine l.trim = c.withLine l := by
  simp only [withLine, Text.trim_trim]

theorem withLine_of_blank (h : l.blank = true) : c.withLine l = c := by
  rw [← withLine_trim, Text.trim_eq_nil.mpr h]
  rfl

theorem foldl_withLine_trim (c : Component) (ls : List Text) :
    (ls.map Text.trim).foldl withLine c = ls.foldl withLine c := by
  rw [List.foldl_map]
  simp only [withLine_trim]

theorem fields_listText (names : List Text) :
    Text.fields ',' (listText names) = settledNames names := by
  rw [listText, settledNames]
  induction names with
  | nil => rfl
  | cons name names ih =>
    cases names with
    | nil => simp [Text.joined]
    | cons name' names =>
      have he : Text.joined ", " ((name :: name' :: names).map Text.singleLine) =
          Text.singleLine name ++ ',' :: ([' '] ++
            Text.joined ", " ((name' :: names).map Text.singleLine)) := by
        simp [Text.joined, show (", " : String).toList = [',', ' '] from rfl]
      rw [he, Text.fields_append_sep, Text.fields_of_blank_append rfl, ih]
      rfl

theorem trim_field {k : Text} (hk : Text.trim ('-' :: ' ' :: k) = '-' :: ' ' :: k) (v : Text) :
    Text.trim (Bullet.field k v) = '-' :: ' ' :: (k ++ Text.trimEnd (' ' :: v)) := by
  have hf : Bullet.field k v = ('-' :: ' ' :: k) ++ ' ' :: v := by simp [Bullet.field]
  rw [hf, Text.trim_label rfl hk]
  rfl

theorem readList_margin (v : Text) : readList (Text.trimEnd (' ' :: v)) = Text.fields ',' v := by
  have h : readList (Text.trimEnd (' ' :: v)) = Text.fields ',' (Text.trimEnd (' ' :: v)) := rfl
  rw [h, ← Text.fields_trim, Text.trim_trimEnd_cons, Text.fields_trim]

theorem after?_append (k t : Text) : Text.after? k (k ++ t) = some t :=
  List.isPrefixOf?_eq_some_iff_append_eq.mpr rfl

theorem withLine_purpose (c : Component) (v : Text) :
    c.withLine (Bullet.field Label.purpose v) = { c with purpose := v.trim } := by
  have ht := @trim_field Label.purpose rfl v
  simp only [withLine, ht, Bullet.item?_dash, Option.getD_some, after?_append,
    Text.trim_trimEnd_cons]

theorem withLine_interfaces (c : Component) (v : Text) :
    c.withLine (Bullet.field Label.interfaces v) = { c with interfaces := Text.fields ',' v } := by
  have ht := @trim_field Label.interfaces rfl v
  have hp : Text.after? Label.purpose (Label.interfaces ++ Text.trimEnd (' ' :: v)) = none := rfl
  simp only [withLine, ht, Bullet.item?_dash, Option.getD_some, hp, after?_append, readList_margin]

theorem withLine_dependencies (c : Component) (v : Text) :
    c.withLine (Bullet.field Label.dependencies v) =
      { c with dependencies := Text.fields ',' v } := by
  have ht := @trim_field Label.dependencies rfl v
  have hp : Text.after? Label.purpose (Label.dependencies ++ Text.trimEnd (' ' :: v)) = none := rfl
  have hi : Text.after? Label.interfaces (Label.dependencies ++ Text.trimEnd (' ' :: v)) = none :=
    rfl
  simp only [withLine, ht, Bullet.item?_dash, Option.getD_some, hp, hi, after?_append,
    readList_margin]

/-- The labelled lines of a component. -/
def fieldLines (c : Component) : List Text :=
  Bullet.field Label.purpose (Text.singleLine c.purpose) ::
    ((if c.interfaces.isEmpty then []
      else [Bullet.field Label.interfaces (listText c.interfaces)]) ++
    (if c.dependencies.isEmpty then []
      else [Bullet.field Label.dependencies (listText c.dependencies)]))

/-- The line that a component starts with. -/
def headerLine (c : Component) : Text := "### " ++ Text.singleLine c.name

theorem lines_eq (c : Component) : c.lines = c.headerLine :: ([] :: c.fieldLines ++ [[]]) := by
  simp [lines, headerLine, fieldLines]

/-- The labelled lines of a component give back all that they were made of. -/
theorem foldl_fieldLines (c : Component) :
    c.fieldLines.foldl withLine (.named c.name.flat) = c.settled := by
  have hi : ∀ names, names.isEmpty = true → settledNames names = [] := by
    intro names h
    rw [List.isEmpty_iff.mp h]
    rfl
  simp only [fieldLines, List.foldl_cons, List.foldl_append, withLine_purpose, settled]
  split
  next h =>
    split
    next h' =>
      rw [hi _ h, hi _ h']
      rfl
    next h' =>
      simp only [List.foldl_cons, List.foldl_nil, withLine_dependencies, fields_listText, hi _ h]
      rfl
  next h =>
    split
    next h' =>
      simp only [List.foldl_cons, List.foldl_nil, withLine_interfaces, fields_listText, hi _ h']
      rfl
    next h' =>
      simp only [List.foldl_cons, List.foldl_nil, withLine_interfaces, withLine_dependencies,
        fields_listText]
      rfl

theorem isHeader_headerLine (c : Component) : isHeader c.headerLine = true := rfl

theorem name_headerLine (c : Component) : Text.trim (c.headerLine.drop 4) = c.name.flat := rfl

theorem single_field {k v : Text} (hk : k.Single) (hv : v.Single) : (Bullet.field k v).Single :=
  (((show Text.Single ("- " : String).toList by decide).append hk).append
    (show Text.Single (" " : String).toList by decide)).append hv

theorem single_listText (names : List Text) : (listText names).Single := by
  refine Text.Single.joined (by decide) ?_
  intro l hl
  obtain ⟨name, -, rfl⟩ := List.mem_map.mp hl
  exact Text.single_singleLine name

theorem single_fieldLines (h : l ∈ c.fieldLines) : l.Single := by
  rcases List.mem_cons.mp h with rfl | h
  · exact single_field (by decide) (Text.single_singleLine _)
  · rcases List.mem_append.mp h with h | h
    · split at h
      · cases h
      · rw [List.mem_singleton.mp h]
        exact single_field (by decide) (single_listText _)
    · split at h
      · cases h
      · rw [List.mem_singleton.mp h]
        exact single_field (by decide) (single_listText _)

theorem exists_dash (h : l ∈ c.fieldLines) : ∃ t, l = '-' :: t := by
  rcases List.mem_cons.mp h with rfl | h
  · exact ⟨_, rfl⟩
  · rcases List.mem_append.mp h with h | h
    · split at h
      · cases h
      · exact ⟨_, List.mem_singleton.mp h⟩
    · split at h
      · cases h
      · exact ⟨_, List.mem_singleton.mp h⟩

theorem single_headerLine (c : Component) : c.headerLine.Single :=
  (show Text.Single ("### " : String).toList by decide).append (Text.single_singleLine _)

theorem single_lines (h : l ∈ c.lines) : l.Single := by
  rw [lines_eq] at h
  simp only [List.mem_cons, List.mem_append, List.not_mem_nil, or_false] at h
  rcases h with rfl | (rfl | h) | rfl
  · exact c.single_headerLine
  · decide
  · exact single_fieldLines h
  · decide

theorem inert_lines (h : l ∈ c.lines) : Section.Inert l := by
  rw [lines_eq] at h
  simp only [List.mem_cons, List.mem_append, List.not_mem_nil, or_false] at h
  rcases h with rfl | (rfl | h) | rfl
  · exact ⟨rfl, rfl⟩
  · exact ⟨rfl, rfl⟩
  · obtain ⟨t, rfl⟩ := exists_dash h
    exact ⟨rfl, rfl⟩
  · exact ⟨rfl, rfl⟩

/-- The lines of some components are grouped into what each of them was made of. -/
theorem grouped_lines (cs : List Component) {head : Text} (hh : isHeader head = true)
    (hl : ∀ l ∈ ls, isHeader l = false) :
    Section.grouped isHeader (cs.flatMap lines ++ head :: ls) =
      ([], cs.map (fun c => (c.headerLine, [] :: c.fieldLines ++ [[]])) ++ [(head, ls)]) := by
  induction cs with
  | nil => simp [Section.grouped, hh, Section.grouped_of_forall hl]
  | cons c cs ih =>
    have hb : ∀ l ∈ [] :: c.fieldLines ++ [[]], isHeader l = false := by
      intro l hl
      simp only [List.mem_cons, List.mem_append, List.not_mem_nil, or_false] at hl
      rcases hl with (rfl | hl) | rfl
      · rfl
      · obtain ⟨t, rfl⟩ := exists_dash hl
        rfl
      · rfl
    have he : (c :: cs).flatMap lines ++ head :: ls =
        c.headerLine :: (([] :: c.fieldLines ++ [[]]) ++ (cs.flatMap lines ++ head :: ls)) := by
      simp [lines_eq]
    rw [he, Section.grouped, Section.grouped_append_of_forall _ hb, ih]
    simp [isHeader_headerLine]

/-- The lines below the header of the section of components. -/
def bodyLines (cs : List Component) : List Text :=
  [] :: if cs.isEmpty then [Label.noItems, []] else cs.flatMap lines

theorem foldl_body (c : Component) :
    ([] :: c.fieldLines ++ [[]]).foldl withLine (.named c.name.flat) = c.settled := by
  rw [List.foldl_append, List.foldl_cons, withLine_of_blank rfl, List.foldl_cons,
    withLine_of_blank rfl, List.foldl_nil, foldl_fieldLines]

/-- Blanks at the end of the last labelled line do not count. -/
theorem foldl_trimmed {init : List Text} (h : c.fieldLines = init ++ [l]) :
    ([] :: init ++ [l.trimEnd]).foldl withLine (.named c.name.flat) = c.settled := by
  have hm : ([] :: init ++ [l.trimEnd]).map Text.trim = ([] :: c.fieldLines).map Text.trim := by
    simp [h, Text.trim_trimEnd]
  rw [← foldl_withLine_trim, hm, foldl_withLine_trim, List.foldl_cons, withLine_of_blank rfl,
    foldl_fieldLines]

/-- Components survive being written into a section and read back. -/
theorem readAll_lines (cs : List Component) :
    readAll (Text.trim (Text.ofLines (bodyLines cs))) = cs.map settled := by
  rcases List.eq_nil_or_concat cs with rfl | ⟨cs, c, rfl⟩
  · decide
  · rw [List.concat_eq_append]
    obtain ⟨init, l, hi⟩ :=
      (List.eq_nil_or_concat c.fieldLines).resolve_left (by simp [fieldLines])
    rw [List.concat_eq_append] at hi
    have hl : l ∈ c.fieldLines := by simp [hi]
    obtain ⟨t, rfl⟩ := exists_dash hl
    have hb : bodyLines (cs ++ [c]) =
        [] :: (cs.flatMap lines ++ (c.headerLine :: [] :: init) ++ ['-' :: t]) ++ [[]] := by
      simp [bodyLines, lines_eq, hi]
    obtain ⟨s, rest, hs⟩ : ∃ s rest, cs.flatMap lines ++ (c.headerLine :: [] :: init) =
        ('#' :: s) :: rest := by
      cases cs with
      | nil => exact ⟨_, _, rfl⟩
      | cons c' cs => exact ⟨_, _, rfl⟩
    have hone : ∀ x ∈ cs.flatMap lines ++ (c.headerLine :: [] :: init), Text.Single x := by
      intro x hx
      simp only [List.mem_append, List.mem_flatMap, List.mem_cons] at hx
      rcases hx with ⟨c', -, hx⟩ | rfl | rfl | hx
      · exact single_lines hx
      · exact c.single_headerLine
      · decide
      · exact single_fieldLines (c := c) (by simp [hi, hx])
    have hfeed : '\n' ∉ Text.trimEnd ('-' :: t) := fun h =>
      (single_fieldLines hl).not_feed_mem (Text.mem_of_mem_trimEnd h)
    obtain ⟨t', ht⟩ := Text.trimEnd_cons_of_not (show isBlank '-' = false from rfl) t
    have hhead : ∀ x ∈ [] :: init ++ [Text.trimEnd ('-' :: t)], isHeader x = false := by
      intro x hx
      simp only [List.mem_append, List.mem_cons, List.not_mem_nil, or_false] at hx
      rcases hx with (rfl | hx) | rfl
      · rfl
      · obtain ⟨t, rfl⟩ := exists_dash (c := c) (l := x) (by simp [hi, hx])
        rfl
      · rw [ht]
        rfl
    rw [readAll, hb, Text.trim_ofLines_between (by simp), hs,
      Text.trim_ofLines_of_solid rfl rfl, ← hs,
      Text.lines_ofLines_concat (Text.broken_eq_self hone) hfeed (by simp [ht]), List.append_assoc,
      List.cons_append, grouped_lines cs c.isHeader_headerLine hhead]
    simp only [List.map_append, List.map_map, List.map_cons, List.map_nil, name_headerLine,
      foldl_trimmed hi, Function.comp_def, foldl_body]

end DesignRecords.Component
