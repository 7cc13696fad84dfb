import DesignRecords.Document.Listing
import DesignRecords.Proofs.Document.Outline
import DesignRecords.Proofs.Document.Settled

namespace DesignRecords

namespace Bullet

variable {l : Text}

theorem item?_dash (t : Text) : item? ('-' :: ' ' :: t) = some t := rfl

theorem readItems_eq (body : Text) :
    readItems body =
      (((Text.fields '\n' body).filterMap item?).map Text.trim).filter (· ≠ []) := by
  have h : body.lines.filterMap (fun line => item? (Text.trim line)) =
      (Text.fields '\n' body).filterMap item? := by
    rw [← Text.filter_trim_lines, List.filterMap_filter, List.filterMap_map]
    apply List.filterMap_congr
    intro l _
    by_cases hl : Text.trim l = []
    · simp [hl]
      rfl
    · simp [hl]
  rw [readItems, h]

theorem trim_dash (t : Text) (h : t.blank = false) :
    Text.trim ('-' :: ' ' :: t) = '-' :: ' ' :: t.trimEnd := by
  rw [Text.trim, Text.trimStart_cons_of_not rfl]
  exact Text.trimEnd_append_of_not (s := ['-', ' ']) h

theorem trim_dash_of_blank (t : Text) (h : t.blank = true) :
    Text.trim ('-' :: ' ' :: t) = ['-'] :=
  Text.trim_append_of_blank_right (s := ['-']) (by simp [h, show isBlank ' ' = true from rfl])

/-- A list item is read as it was written, unless it is blank: then it is no item. -/
theorem read_line (item : Text) :
    (((Text.fields '\n' ("- " ++ Text.singleLine item)).filterMap item?).map Text.trim).filter
      (· ≠ []) = [item.flat].filter (· ≠ []) := by
  have hf : '\n' ∉ "- " ++ Text.singleLine item := by
    simpa [show ("- " : String).toList = ['-', ' '] from rfl] using
      Text.not_feed_mem_singleLine item
  have hl : "- " ++ Text.singleLine item = '-' :: ' ' :: Text.singleLine item := rfl
  rw [Text.fields_of_not_mem hf, hl]
  cases hb : (Text.singleLine item).blank with
  | true =>
    have hi : item.flat = [] := Text.trim_eq_nil.mpr hb
    rw [trim_dash_of_blank _ hb, hi]
    rfl
  | false =>
    rw [trim_dash _ hb]
    simp [item?_dash, show isBlank '-' = false from rfl, Text.trim_trimEnd, Text.flat]

/-- The items of a list survive being written into a section and read back. -/
theorem readItems_lines (items : List Text) {front tail : List Text}
    (hf : ∀ l ∈ front, Text.blank l = true) (ht : ∀ l ∈ tail, Text.blank l = true) :
    readItems (Text.trim (Text.ofLines (front ++ lines items ++ tail))) =
      Text.settledList items := by
  rw [readItems_eq, Text.fields_trim_ofLines hf ht, lines]
  split
  next he =>
    have hi : items = [] := List.isEmpty_iff.mp he
    subst hi
    rfl
  next he =>
    clear he
    rw [Text.settledList]
    induction items with
    | nil => rfl
    | cons item items ih =>
      simp only [List.map_cons, List.flatMap_cons, List.filterMap_append, List.map_append,
        List.filter_append, read_line] at ih ⊢
      rw [ih, ← List.filter_append]
      rfl

end Bullet

end DesignRecords
