import DesignRecords.Document.Section
import DesignRecords.Proofs.Text.Line

namespace DesignRecords.Section

variable {l head : Text} {ls r rest : List Text} {n : Nat} {place : Place}

theorem isHeader_iff : isHeader l = true ↔ ∃ s, l = '#' :: '#' :: ' ' :: s := by
  rw [isHeader, Text.startsWith, List.isPrefixOf_iff_prefix]
  constructor
  · rintro ⟨s, rfl⟩
    exact ⟨s, rfl⟩
  · rintro ⟨s, rfl⟩
    exact ⟨s, rfl⟩

theorem isFence_iff : isFence l = true ↔ ∃ s, l.trimStart = '`' :: '`' :: '`' :: s := by
  rw [isFence, Text.startsWith, List.isPrefixOf_iff_prefix]
  constructor
  · rintro ⟨s, h⟩
    exact ⟨s, h.symm⟩
  · rintro ⟨s, h⟩
    exact ⟨s, h.symm⟩

theorem isBareFence_iff : isBareFence l = true ↔ l.trim = ['`', '`', '`'] := beq_iff_eq

theorem isFence_of_isHeader (h : isHeader l = true) : isFence l = false := by
  obtain ⟨s, rfl⟩ := isHeader_iff.mp h
  rfl

theorem isFence_of_blank (h : Text.blank l = true) : isFence l = false := by
  rw [isFence, Text.trimStart_eq_nil.mpr h]
  rfl

theorem isFence_of_isBareFence (h : isBareFence l = true) : isFence l = true := by
  obtain ⟨e, -, he⟩ := Text.exists_end_margin l.trimStart
  have ht : l.trimStart.trimEnd = ['`', '`', '`'] := isBareFence_iff.mp h
  exact isFence_iff.mpr ⟨e, by rw [he, ht]; rfl⟩

theorem isHeader_of_blank (h : Text.blank l = true) : isHeader l = false := by
  rw [Bool.eq_false_iff]
  intro hh
  obtain ⟨s, rfl⟩ := isHeader_iff.mp hh
  simp [show isBlank '#' = false from rfl] at h

theorem not_blank_of_isFence (h : isFence l = true) : Text.blank l = false := by
  rw [Bool.eq_false_iff]
  intro hb
  rw [isFence_of_blank hb] at h
  cases h

theorem not_blank_of_isHeader (h : isHeader l = true) : Text.blank l = false := by
  rw [Bool.eq_false_iff]
  intro hb
  rw [isHeader_of_blank hb] at h
  cases h

theorem fencedLines?_le (h : fencedLines? ls = some n) : n ≤ ls.length := by
  induction ls generalizing n with
  | nil => simp [fencedLines?] at h
  | cons l ls ih =>
    rw [fencedLines?] at h
    split at h
    next hf =>
      split at h
      · cases h
        simp
      · cases h
    next hf =>
      obtain ⟨m, hm, rfl⟩ := Option.map_eq_some_iff.mp h
      simpa using ih hm

/-- Lines without a fence that ends a block do not move the end of a block before them. -/
theorem fencedLines?_append_of_none (h : fencedLines? rest = none) :
    fencedLines? (ls ++ rest) = fencedLines? ls := by
  induction ls with
  | nil => exact h
  | cons l ls ih => simp only [List.cons_append, fencedLines?, ih]

theorem fencedLines?_of_forall (h : ∀ l ∈ ls, isFence l = false) :
    fencedLines? (ls ++ r) = (fencedLines? r).map (· + ls.length) := by
  induction ls with
  | nil => simp
  | cons l ls ih =>
    have hl : isFence l = false := h l (by simp)
    have hls := ih fun x hx => h x (by simp [hx])
    simp only [List.cons_append, fencedLines?, hl, hls, Option.map_map, List.length_cons]
    rfl

theorem fencedLines?_eq_none_of_forall (h : ∀ l ∈ ls, isFence l = false) :
    fencedLines? ls = none := by
  simpa [fencedLines?] using fencedLines?_of_forall h (r := [])

/-- No line of a block that is open starts a section. -/
theorem marked_fenced (ls rest : List Text) :
    marked (.fenced ls.length) (ls ++ rest) = ls.map (false, ·) ++ marked (.fenced 0) rest := by
  induction ls with
  | nil => rfl
  | cons l ls ih => exact congrArg ((false, l) :: ·) ih

theorem marked_opening_fence (hh : isHeader l = false) (hf : isFence l = true)
    (hn : fencedLines? ls = some n) :
    marked .opening (l :: ls) = (false, l) :: marked (.fenced n) ls := by
  have hb := not_blank_of_isFence hf
  simp [marked, hh, hb, hf, hn]

/-- Whether a block that is open at a place ends within the next `n` lines. -/
def Place.endsWithin (n : Nat) : Place → Prop
  | .fenced left => left ≤ n
  | _ => True

/-- Whether a line at a place starts a section. -/
def Place.marks : Place → Text → Bool
  | .fenced (_ + 1), _ => false
  | _, l => isHeader l

/-- The place of the line after `l`, which the lines `ls` follow. -/
def Place.after (l : Text) (ls : List Text) : Place → Place
  | .fenced (left + 1) => .fenced left
  | place =>
    if isHeader l then .opening
    else if place = .opening && !Text.blank l then
      ((if isFence l then fencedLines? ls else none).map Place.fenced).getD .prose
    else place

theorem marked_cons (place : Place) (l : Text) (ls : List Text) :
    marked place (l :: ls) = (place.marks l, l) :: marked (place.after l ls) ls := by
  match place with
  | .fenced (left + 1) => rfl
  | .fenced 0 | .preamble | .prose =>
    cases hh : isHeader l <;> simp [marked, Place.marks, Place.after, hh]
  | .opening =>
    cases hh : isHeader l with
    | true => simp [marked, Place.marks, Place.after, hh]
    | false =>
      cases hb : Text.blank l with
      | true => simp [marked, Place.marks, Place.after, hh, hb]
      | false =>
        cases hf : (if isFence l then fencedLines? ls else none) <;>
          simp [marked, Place.marks, Place.after, hh, hb, hf]

/-- Marking leaves the lines as they are. -/
theorem marked_lines (place : Place) (ls : List Text) : (marked place ls).map (·.2) = ls := by
  induction ls generalizing place with
  | nil => rfl
  | cons l ls ih => rw [marked_cons, List.map_cons, ih]

theorem Place.marks_of_not (place : Place) (h : isHeader l = false) : place.marks l = false := by
  unfold Place.marks
  split <;> simp_all

theorem Place.after_of_marks (h : place.marks l = true) (ls : List Text) :
    place.after l ls = .opening := by
  match place with
  | .fenced (left + 1) => cases h
  | .fenced 0 | .preamble | .prose | .opening =>
    have hh : isHeader l = true := h
    simp [Place.after, hh]

theorem Place.after_append (place : Place) (h : fencedLines? rest = none) :
    place.after l (ls ++ rest) = place.after l ls := by
  simp only [Place.after, fencedLines?_append_of_none h]

theorem Place.endsWithin_after (h : place.endsWithin (ls.length + 1)) :
    (place.after l ls).endsWithin ls.length := by
  match place with
  | .fenced (left + 1) => simpa [Place.after, Place.endsWithin] using h
  | .fenced 0 | .preamble | .prose =>
    cases hh : isHeader l <;> simp [Place.after, Place.endsWithin, hh]
  | .opening =>
    simp only [Place.after]
    split
    · trivial
    · split
      · cases hf : (if isFence l then fencedLines? ls else none) with
        | none => trivial
        | some n =>
          have hn : fencedLines? ls = some n := by
            split at hf
            · exact hf
            · cases hf
          exact fencedLines?_le hn
      · trivial

/-- Behind lines that close the block they open, a header starts a section. -/
theorem marked_append (h : place.endsWithin ls.length) (hh : isHeader head = true)
    (hr : fencedLines? rest = none) :
    marked place (ls ++ head :: rest) =
      marked place ls ++ (true, head) :: marked .opening rest := by
  have hr' : fencedLines? (head :: rest) = none := by
    simp [fencedLines?, isFence_of_isHeader hh, hr]
  induction ls generalizing place with
  | nil =>
    match place, h with
    | .fenced 0, _ | .preamble, _ | .prose, _ | .opening, _ =>
      rw [List.nil_append, marked_cons]
      simp [Place.marks, Place.after, hh, marked]
  | cons l ls ih =>
    rw [List.cons_append, marked_cons, marked_cons, Place.after_append _ hr',
      ih (Place.endsWithin_after h)]
    rfl

end DesignRecords.Section
