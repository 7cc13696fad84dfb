import DesignRecords.Proofs.Document.Reading
import DesignRecords.Proofs.Document.Unheaded
import DesignRecords.Proofs.Text.Trimmed
import Mathlib.Data.List.Forall2

namespace DesignRecords.Section

variable {l l' x : Text} {ls ls' front back rest : List Text} {n : Nat} {place : Place}
  {s : Section} {t : Text}

/-- Whether no line of some that stand at a place starts a section. -/
def Unmarked (place : Place) (ls : List Text) : Prop := ∀ m ∈ marked place ls, m.1 = false

theorem unmarked_nil (place : Place) : Unmarked place [] := by simp [Unmarked, marked]

theorem unmarked_cons : Unmarked place (l :: ls) ↔
    place.marks l = false ∧ Unmarked (place.after l ls) ls := by
  rw [Unmarked, marked_cons, List.forall_mem_cons]
  rfl

/-- Where headers alone count and lines that are none change nothing, all lines are unmarked exactly
if none is a header. -/
theorem unmarked_iff_of_steady (hm : ∀ l, place.marks l = isHeader l)
    (ha : ∀ l ls, isHeader l = false → place.after l ls = place) :
    Unmarked place ls ↔ ∀ l ∈ ls, isHeader l = false := by
  refine ⟨fun h => ?_, fun h m hm => marked_of_forall h m hm⟩
  induction ls with
  | nil => simp
  | cons l ls ih =>
    obtain ⟨hl, hls⟩ := unmarked_cons.mp h
    rw [hm] at hl
    rw [ha l ls hl] at hls
    exact List.forall_mem_cons.mpr ⟨hl, ih hls⟩

theorem unmarked_prose : Unmarked .prose ls ↔ ∀ l ∈ ls, isHeader l = false :=
  unmarked_iff_of_steady (fun _ => rfl) fun l ls hl => by simp [Place.after, hl]

theorem unmarked_fenced_zero : Unmarked (.fenced 0) ls ↔ ∀ l ∈ ls, isHeader l = false :=
  unmarked_iff_of_steady (fun _ => rfl) fun l ls hl => by simp [Place.after, hl]

theorem quiet_cons_of_blank (h : Text.blank l = true) : Quiet (l :: ls) ↔ Quiet ls := by
  have hl : isHeader l = false := isHeader_of_blank h
  have ha : Place.after l ls .opening = .opening := by simp [Place.after, hl, h]
  have hm : Place.marks .opening l = false := hl
  refine unmarked_cons.trans ?_
  rw [ha]
  exact and_iff_right hm

theorem Quiet.of_blank_append (hf : ∀ l ∈ front, Text.blank l = true) (h : Quiet (front ++ ls)) :
    Quiet ls := by
  induction front with
  | nil => exact h
  | cons l front ih =>
    exact ih (fun x hx => hf x (by simp [hx])) ((quiet_cons_of_blank (hf l (by simp))).mp h)

/-- Lines behind some others that end no block can be left out. -/
theorem Unmarked.of_append (hr : fencedLines? rest = none) (h : Unmarked place (ls ++ rest)) :
    Unmarked place ls := by
  induction ls generalizing place with
  | nil => exact unmarked_nil place
  | cons l ls ih =>
    rw [List.cons_append] at h
    obtain ⟨hl, hls⟩ := unmarked_cons.mp h
    rw [place.after_append hr] at hls
    exact unmarked_cons.mpr ⟨hl, ih hls⟩

theorem Unmarked.append (hr : ∀ l ∈ rest, Inert l) (h : Unmarked place ls) :
    Unmarked place (ls ++ rest) := by
  have hn : fencedLines? rest = none :=
    fencedLines?_eq_none_of_forall fun l hl => (hr l hl).2
  induction ls generalizing place with
  | nil => exact fun m hm => marked_of_forall (fun l hl => (hr l hl).1) m hm
  | cons l ls ih =>
    obtain ⟨hl, hls⟩ := unmarked_cons.mp h
    rw [List.cons_append]
    refine unmarked_cons.mpr ⟨hl, ?_⟩
    rw [place.after_append hn]
    exact ih hls

/-- Whether a line can stand in place of another one: it is a fence or blank as that one is, and a
header only if that one is. -/
structure Milder (l l' : Text) : Prop where
  header : isHeader l' = true → isHeader l = true
  fence : isFence l' = isFence l
  bare : isBareFence l' = isBareFence l
  blank : Text.blank l' = Text.blank l

theorem milder_refl (l : Text) : Milder l l := ⟨id, rfl, rfl, rfl⟩

theorem Milder.not_header (h : Milder l l') (hl : isHeader l = false) : isHeader l' = false := by
  rw [← Bool.not_eq_true] at hl ⊢
  exact mt h.header hl

theorem isFence_congr (h : l'.trimStart.trimEnd = l.trimStart.trimEnd) :
    isFence l' = isFence l := by
  have hmono : ∀ {l l' : Text}, l'.trimStart.trimEnd = l.trimStart.trimEnd → isFence l = true →
      isFence l' = true := by
    intro l l' h hl
    obtain ⟨s, hs⟩ := isFence_iff.mp hl
    obtain ⟨u, hu⟩ : ∃ u, Text.trimEnd ('`' :: '`' :: '`' :: s) = '`' :: '`' :: '`' :: u := by
      cases hb : Text.blank s with
      | true => exact ⟨[], Text.trimEnd_append_of_blank (s := ['`', '`', '`']) hb⟩
      | false => exact ⟨_, Text.trimEnd_append_of_not (s := ['`', '`', '`']) hb⟩
    obtain ⟨e, -, he⟩ := Text.exists_end_margin l'.trimStart
    rw [h, hs, hu] at he
    exact isFence_iff.mpr ⟨u ++ e, he⟩
  rw [Bool.eq_iff_iff]
  exact ⟨hmono h.symm, hmono h⟩

theorem milder_of_trim (hh : isHeader l' = true → isHeader l = true) (h : l'.trim = l.trim) :
    Milder l l' where
  header := hh
  fence := isFence_congr h
  bare := by rw [isBareFence, isBareFence, h]
  blank := by rw [← Text.blank_trim (t := l'), h, Text.blank_trim]

theorem milder_trimEnd (l : Text) : Milder l l.trimEnd :=
  milder_of_trim (fun h => Text.isHeader_mono (Text.prefix_trimEnd l) h) Text.trim_trimEnd

theorem milder_trimStart (h : isHeader l.trimStart = false) : Milder l l.trimStart := by
  refine milder_of_trim (fun hh => ?_) ?_
  · rw [h] at hh
    cases hh
  · rw [Text.trim, Text.trimStart_trimStart, Text.trim]

theorem fencedLines?_of_milder (h : List.Forall₂ Milder ls ls') :
    fencedLines? ls' = fencedLines? ls := by
  induction h with
  | nil => rfl
  | cons hl _ ih => rw [fencedLines?, fencedLines?, hl.fence, hl.bare, ih]

theorem Unmarked.of_milder (h : List.Forall₂ Milder ls ls') (hu : Unmarked place ls) :
    Unmarked place ls' := by
  induction h generalizing place with
  | nil => exact unmarked_nil place
  | @cons l l' ls ls' hl hls ih =>
    obtain ⟨hm, hrest⟩ := unmarked_cons.mp hu
    have hplace : place.marks l' = false ∧ place.after l' ls' = place.after l ls := by
      match place with
      | .fenced (left + 1) => exact ⟨rfl, rfl⟩
      | .fenced 0 | .preamble | .prose | .opening =>
        have hh : isHeader l = false := hm
        have hh' := hl.not_header hh
        exact ⟨hh', by simp only [Place.after, hh, hh', hl.fence, hl.blank,
          fencedLines?_of_milder hls]⟩
    refine unmarked_cons.mpr ⟨hplace.1, ?_⟩
    rw [hplace.2]
    exact ih hrest

theorem forall₂_milder_concat (front : List Text) (y : Text) :
    List.Forall₂ Milder (front ++ [y]) (front ++ [y.trimEnd]) := by
  refine List.rel_append ?_ ?_
  · exact List.forall₂_same.mpr fun l _ => milder_refl l
  · exact .cons (milder_trimEnd y) .nil

/-- The lines of a section that starts none of its own, once the blanks around them are cut. -/
theorem Quiet.trim (h : Quiet (t.splitOn '\n')) (hb : t.blank = false) :
    ∃ x rest, Quiet (x :: rest) ∧ Text.blank x = false ∧
      t.trim.splitOn '\n' = Text.trimStart x :: rest := by
  obtain ⟨front, y, back, hsplit, -, hback, htrim⟩ := Text.exists_splitOn_trimEnd hb
  have hq : Quiet (t.trimEnd.splitOn '\n') := by
    rw [hsplit, List.append_cons] at h
    rw [htrim]
    have hn : fencedLines? back = none :=
      fencedLines?_eq_none_of_forall fun l hl => isFence_of_blank (hback l hl)
    exact Unmarked.of_milder (forall₂_milder_concat front y) (Unmarked.of_append hn h)
  rw [← Text.blank_trimEnd] at hb
  obtain ⟨front', x, rest, hsplit', hx, hfront, htrim'⟩ := Text.exists_splitOn_trimStart hb
  rw [hsplit'] at hq
  exact ⟨x, rest, hq.of_blank_append hfront, hx, by rw [Text.trim_eq, htrim']⟩

theorem fencedLines?_take (h : fencedLines? ls = some n) (rest : List Text) :
    fencedLines? (ls.take n ++ rest) = some n := by
  induction ls generalizing n with
  | nil => cases h
  | cons l ls ih =>
    rw [fencedLines?] at h
    split at h
    next hf =>
      split at h
      next hb =>
        cases h
        simp [fencedLines?, hf, hb]
      · cases h
    next hf =>
      obtain ⟨m, hm, rfl⟩ := Option.map_eq_some_iff.mp h
      simp [fencedLines?, hf, ih hm]

theorem fencedLines?_of_prefix (hp : front <+: ls) (h : fencedLines? ls = none) :
    fencedLines? front = none := by
  obtain ⟨rest, rfl⟩ := hp
  induction front with
  | nil => rfl
  | cons l front ih =>
    rw [List.cons_append, fencedLines?] at h
    rw [fencedLines?]
    split at h
    next hf =>
      split at h
      · cases h
      next hb => simp [hf, hb]
    next hf =>
      have hrest := ih (Option.map_eq_none_iff.mp h)
      simp [hf, hrest]

/-- The lines at a place before the first one that starts a section. -/
def frontOf (place : Place) (ls : List Text) : List Text :=
  (grouped (·.1) (marked place ls)).1.map (·.2)

theorem frontOf_cons (place : Place) (l : Text) (ls : List Text) : frontOf place (l :: ls) =
    if place.marks l then [] else l :: frontOf (place.after l ls) ls := by
  rw [frontOf, marked_cons, grouped]
  cases place.marks l <;> rfl

theorem prefix_frontOf (place : Place) (ls : List Text) : frontOf place ls <+: ls := by
  induction ls generalizing place with
  | nil => exact List.nil_prefix
  | cons l ls ih =>
    rw [frontOf_cons]
    split
    · exact List.nil_prefix
    · exact List.cons_prefix_cons.mpr ⟨rfl, ih _⟩

theorem frontOf_fenced (h : n ≤ ls.length) :
    frontOf (.fenced n) ls = ls.take n ++ frontOf (.fenced 0) (ls.drop n) := by
  have hl : (ls.take n).length = n := List.length_take_of_le h
  have hm := marked_fenced (ls.take n) (ls.drop n)
  rw [hl, List.take_append_drop] at hm
  have hnone : ∀ m ∈ (ls.take n).map (false, ·), m.1 = false :=
    List.forall_mem_map.mpr fun _ _ => rfl
  rw [frontOf, hm, grouped_append_of_forall _ hnone, List.map_append, List.map_map]
  exact congrArg (· ++ _) (List.map_id' _)

/-- The end of the block that a line opens stands before the next header. -/
theorem after_frontOf (place : Place) (l : Text) (ls : List Text) :
    place.after l (frontOf (place.after l ls) ls) = place.after l ls := by
  match place with
  | .fenced (left + 1) => rfl
  | .fenced 0 | .preamble | .prose =>
    cases hh : isHeader l <;> simp [Place.after, hh]
  | .opening =>
    cases hh : isHeader l with
    | true => simp [Place.after, hh]
    | false =>
      cases hb : Text.blank l with
      | true => simp [Place.after, hh, hb]
      | false =>
        cases hf : isFence l with
        | false => simp [Place.after, hh, hb, hf]
        | true =>
          cases hn : fencedLines? ls with
          | none =>
            have hfront := fencedLines?_of_prefix (prefix_frontOf .prose ls) hn
            simp [Place.after, hh, hb, hf, hn, hfront]
          | some n =>
            have hfront := fencedLines?_take hn (frontOf (.fenced 0) (ls.drop n))
            rw [← frontOf_fenced (fencedLines?_le hn)] at hfront
            simp [Place.after, hh, hb, hf, hn, hfront]

theorem unmarked_frontOf (place : Place) (ls : List Text) :
    Unmarked place (frontOf place ls) := by
  induction ls generalizing place with
  | nil => exact unmarked_nil place
  | cons l ls ih =>
    rw [frontOf_cons]
    split
    · exact unmarked_nil place
    next hm =>
      refine unmarked_cons.mpr ⟨by simpa using hm, ?_⟩
      rw [after_frontOf]
      exact ih _

/-- The lines of each section that is found are those before the first header behind its own. -/
theorem exists_front_of_mem_grouped {g : (Bool × Text) × List (Bool × Text)}
    (h : g ∈ (grouped (·.1) (marked place ls)).2) :
    ∃ rest, rest <:+ ls ∧ g.2.map (·.2) = frontOf .opening rest := by
  induction ls generalizing place with
  | nil => cases h
  | cons l ls ih =>
    rw [marked_cons, grouped] at h
    cases hm : place.marks l with
    | true =>
      rw [hm] at h
      rcases List.mem_cons.mp h with rfl | h
      · refine ⟨ls, List.suffix_cons l ls, ?_⟩
        rw [Place.after_of_marks hm]
        rfl
      · obtain ⟨rest, hr, he⟩ := ih h
        exact ⟨rest, hr.trans (List.suffix_cons l ls), he⟩
    | false =>
      rw [hm] at h
      obtain ⟨rest, hr, he⟩ := ih h
      exact ⟨rest, hr.trans (List.suffix_cons l ls), he⟩

/-- A section that a text is split into has lines of the text that start no section. -/
theorem exists_quiet_of_mem_split (h : s ∈ (split t).2) :
    ∃ ls, ls ⊆ t.lines ∧ Quiet ls ∧ s.body = Text.trim (Text.ofLines ls) := by
  rw [split] at h
  obtain ⟨g, hg, rfl⟩ := List.mem_map.mp h
  obtain ⟨rest, hr, he⟩ := exists_front_of_mem_grouped hg
  exact ⟨frontOf .opening rest, fun l hl => hr.subset ((prefix_frontOf _ _).subset hl),
    unmarked_frontOf _ _, congrArg (fun ls => Text.trim (Text.ofLines ls)) he⟩

end DesignRecords.Section
