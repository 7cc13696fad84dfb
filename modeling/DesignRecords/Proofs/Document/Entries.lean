import DesignRecords.Proofs.Document.Handwritten
import DesignRecords.Proofs.Document.RoundTrip

namespace DesignRecords

namespace Text

variable {c : Char} {k l name s t : Text}

theorem Single.of_suffix (h : t.Single) (hs : s <:+ t) : s.Single := fun c hc => h c (hs.subset hc)

theorem suffix_of_after? (h : after? k t = some s) : s <:+ t :=
  ⟨k, List.isPrefixOf?_eq_some_iff_append_eq.mp h⟩

theorem Single.of_after? (h : t.Single) (ha : after? k t = some s) : s.Single :=
  h.of_suffix (suffix_of_after? ha)

theorem flat_trim_of_single (h : t.Single) : flat t.trim = t.trim := by
  have ht : Single t.trim := trim_mono h
  rw [flat, singleLine_of_single ht.not_feed_mem ht.not_return_mem, trim_trim]

/-- A field of a text on one line is the only field of itself. -/
theorem fields_of_mem_fields (ht : t.Single) (h : name ∈ fields c t) :
    fields c (singleLine name) = [name] := by
  obtain ⟨hm, hne⟩ := List.mem_filter.mp h
  obtain ⟨p, hp, rfl⟩ := List.mem_map.mp hm
  have hpiece : ∀ d ∈ p, d ∈ t ∧ d ≠ c := fun d hd => mem_of_mem_splitOn hp hd
  have hkept : ∀ d ∈ p.trim, (d ≠ '\n' ∧ d ≠ '\r') ∧ d ≠ c :=
    trim_mono fun d hd => ⟨ht d (hpiece d hd).1, (hpiece d hd).2⟩
  have hc : c ∉ p.trim := fun hc => (hkept c hc).2 rfl
  have hb : p.trim.blank = false := by
    rw [← Bool.not_eq_true, blank_trim, ← trim_eq_nil]
    simpa using hne
  have hs : Single p.trim := fun d hd => (hkept d hd).1
  rw [singleLine_of_single hs.not_feed_mem hs.not_return_mem, fields_of_not_mem hc, hb, trim_trim]
  rfl

end Text

theorem Section.mem_of_mem_grouped {α : Type} {isHead : α → Bool} {xs : List α} {g : α × List α}
    (h : g ∈ (grouped isHead xs).2) : g.1 ∈ xs ∧ g.2 ⊆ xs := by
  have hfront : ∀ xs : List α, (grouped isHead xs).1 ⊆ xs := by
    intro xs
    induction xs with
    | nil => exact List.Subset.refl []
    | cons x xs ih =>
      rw [grouped]
      cases isHead x with
      | true => exact List.nil_subset _
      | false => exact List.cons_subset_cons x ih
  induction xs with
  | nil => cases h
  | cons x xs ih =>
    have hbehind : g ∈ (grouped isHead xs).2 → g.1 ∈ x :: xs ∧ g.2 ⊆ x :: xs := by
      intro h
      obtain ⟨hh, hl⟩ := ih h
      exact ⟨List.mem_cons_of_mem x hh, List.subset_cons_of_subset x hl⟩
    rw [grouped] at h
    cases hx : isHead x with
    | true =>
      rw [hx] at h
      rcases List.mem_cons.mp h with rfl | h
      · exact ⟨List.mem_cons_self, List.subset_cons_of_subset x (hfront xs)⟩
      · exact hbehind h
    | false =>
      rw [hx] at h
      exact hbehind h

namespace Bullet

variable {item l s body : Text}

theorem suffix_of_item? (h : item? l = some s) : s <:+ l := by
  rcases Option.or_eq_some_iff.mp h with h | ⟨-, h⟩
  · exact Text.suffix_of_after? h
  · exact Text.suffix_of_after? h

theorem single_of_item? (hl : l.Single) (h : item? l = some s) : s.Single :=
  hl.of_suffix (suffix_of_item? h)

/-- The items of a list without carriage returns are read back as they are. -/
theorem settledList_readItems (hr : '\r' ∉ body) :
    Text.settledList (readItems body) = readItems body := by
  refine Text.settledList_eq_self fun item hi => ?_
  obtain ⟨hm, hne⟩ := List.mem_filter.mp hi
  obtain ⟨s, hs, rfl⟩ := List.mem_map.mp hm
  obtain ⟨l, hl, hs⟩ := List.mem_filterMap.mp hs
  have hsingle : s.Single := single_of_item? (Text.trim_mono (Text.single_of_mem_lines hr hl)) hs
  exact ⟨Text.flat_trim_of_single hsingle, by simpa using hne⟩

end Bullet

namespace Component

variable {c : Component} {l t body : Text} {ls : List Text}

theorem settledNames_readList (ht : t.Single) : settledNames (readList t) = readList t := by
  have hone : ∀ name ∈ readList t, Text.fields ',' (Text.singleLine name) = [name] :=
    fun name hn => Text.fields_of_mem_fields ht hn
  rw [settledNames, List.flatMap_congr hone, List.flatMap_singleton']

theorem settled_named (ht : t.Single) : (named t.trim).settled = named t.trim := by
  rw [settled, named, Text.flat_trim_of_single ht]
  rfl

/-- What one more line of a text says about a component is read back as it is. -/
theorem settled_withLine (hl : l.Single) (h : c.settled = c) :
    (c.withLine l).settled = c.withLine l := by
  have hline : Text.Single l.trim := Text.trim_mono hl
  have hitem : ((Bullet.item? l.trim).getD l.trim).Single := by
    cases hi : Bullet.item? l.trim with
    | none => exact hline
    | some s => exact Bullet.single_of_item? hline hi
  have hname : c.name.flat = c.name := congrArg Component.name h
  have hpurpose : c.purpose.flat = c.purpose := congrArg Component.purpose h
  have hinterfaces : settledNames c.interfaces = c.interfaces := congrArg Component.interfaces h
  have hdependencies : settledNames c.dependencies = c.dependencies :=
    congrArg Component.dependencies h
  unfold withLine
  dsimp only
  split
  next s hs =>
    have hs := Text.flat_trim_of_single (hitem.of_after? hs)
    simp only [settled, hname, hs, hinterfaces, hdependencies]
  next =>
    split
    next s hs =>
      have hs := settledNames_readList (hitem.of_after? hs)
      simp only [settled, hname, hpurpose, hs, hdependencies]
    next =>
      split
      next s hs =>
        have hs := settledNames_readList (hitem.of_after? hs)
        simp only [settled, hname, hpurpose, hinterfaces, hs]
      next => exact h

theorem settled_foldl_withLine (hl : ∀ l ∈ ls, l.Single) (h : c.settled = c) :
    (ls.foldl withLine c).settled = ls.foldl withLine c := by
  induction ls generalizing c with
  | nil => exact h
  | cons l ls ih =>
    obtain ⟨hfirst, hrest⟩ := List.forall_mem_cons.mp hl
    exact ih hrest (settled_withLine hfirst h)

/-- The components in a section without carriage returns are read back as they are. -/
theorem settled_readAll (hr : '\r' ∉ body) :
    (readAll body).map settled = readAll body := by
  rw [readAll, List.map_map]
  apply List.map_congr_left
  intro g hg
  obtain ⟨hh, hs⟩ := Section.mem_of_mem_grouped hg
  have hheader : Text.Single (g.1.drop 4) :=
    (Text.single_of_mem_lines hr hh).of_suffix (List.drop_suffix 4 _)
  have hlines : ∀ l ∈ g.2, l.Single := fun l hl => Text.single_of_mem_lines hr (hs hl)
  exact settled_foldl_withLine hlines (settled_named hheader)

end Component

namespace Document

open Section

variable {i : Instant} {l t task title : Text}

theorem not_return_mem_front (hr : '\r' ∉ t) : '\r' ∉ (split t).1 := by
  have hfront : (split t).1 = Text.ofLines (frontOf .preamble t.lines) := rfl
  rw [hfront]
  apply Text.not_return_mem_ofLines
  intro l hl
  exact Text.single_of_mem_lines hr ((prefix_frontOf .preamble t.lines).subset hl)

theorem flat_of_titleOnLine? (hl : l.Single) (h : titleOnLine? l = some title) :
    title.flat = title ∧ title.blank = false := by
  obtain ⟨rest, hrest, h⟩ := Option.bind_eq_some_iff.mp h
  have hsingle : Text.Single rest.trim := Text.trim_mono (hl.of_after? hrest)
  dsimp only at h
  split at h
  · cases h
  next hne =>
    have hbody : ((Text.after? Label.title rest.trim).getD rest.trim).Single := by
      cases ha : Text.after? Label.title rest.trim with
      | none => exact hsingle
      | some s => exact hsingle.of_after? ha
    rw [← Option.some.inj h]
    refine ⟨Text.flat_trim_of_single hbody, ?_⟩
    rw [List.isEmpty_iff, Text.trim_eq_nil] at hne
    rw [Text.blank_trim]
    simpa using hne

/-- The title that is read is on one line and says something. -/
theorem title_read (hr : '\r' ∉ t) (hb : task.blank = false) (hs : task.Single)
    (ht : task.trim = task) : (read task t).title.flat = (read task t).title ∧
      (read task t).title.blank = false := by
  have he : (read task t).title = ((split t).1.lines.findSome? titleOnLine?).getD task := rfl
  rw [he]
  cases hf : (split t).1.lines.findSome? titleOnLine? with
  | none => exact ⟨(flat_of_single hs).trans ht, hb⟩
  | some title =>
    obtain ⟨l, hl, htitle⟩ := List.exists_of_findSome?_eq_some hf
    exact flat_of_titleOnLine? (Text.single_of_mem_lines (not_return_mem_front hr) hl) htitle

theorem exists_read?_of_mem_updated (h : i ∈ (read task t).updated) :
    ∃ s, Instant.read? s = some i := by
  have he : (read task t).updated = (split t).1.lines.findSome? updatedOnLine? := rfl
  rw [he] at h
  obtain ⟨l, -, hl⟩ := List.exists_of_findSome?_eq_some h
  obtain ⟨s, -, hs⟩ := Option.bind_eq_some_iff.mp hl
  exact ⟨Text.trim s, hs⟩

end Document

end DesignRecords
