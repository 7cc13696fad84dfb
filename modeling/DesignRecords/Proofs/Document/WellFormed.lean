import DesignRecords.Document.Summary
import DesignRecords.Proofs.Document.Entries
import DesignRecords.Proofs.Document.ReadTable

namespace DesignRecords

variable {s t l body item : Text} {ls : List Text} {c : Component} {x : Decision} {d : Document}

namespace Text

/-- Whether a text has no blanks around it and no line feed in it. -/
structure Clean (t : Text) : Prop where
  trimmed : t.trim = t
  feed : '\n' ∉ t

theorem clean_nil : Clean [] := ⟨rfl, List.not_mem_nil⟩

theorem clean_trim (h : '\n' ∉ t) : Clean t.trim := ⟨trim_trim, fun hm => h (mem_of_mem_trim hm)⟩

theorem not_feed_mem_of_suffix (h : '\n' ∉ t) (hs : s <:+ t) : '\n' ∉ s :=
  fun hm => h (hs.subset hm)

theorem Clean.not_blank (h : t.Clean) (hn : t ≠ []) : t.blank = false := by
  rw [← Bool.not_eq_true, ← trim_eq_nil, h.trimmed]
  exact hn

end Text

namespace Bullet

theorem clean_of_mem_readItems (h : item ∈ readItems body) : item.Clean ∧ item ≠ [] := by
  obtain ⟨hm, hn⟩ := List.mem_filter.mp h
  obtain ⟨s, hs, rfl⟩ := List.mem_map.mp hm
  obtain ⟨l, hl, hs⟩ := List.mem_filterMap.mp hs
  have hfeed : '\n' ∉ l.trim := (Text.clean_trim (Text.not_feed_mem_of_mem_lines hl)).feed
  have hitem := Text.not_feed_mem_of_suffix hfeed (suffix_of_item? hs)
  exact ⟨Text.clean_trim hitem, by simpa using hn⟩

end Bullet

namespace Component

/-- Whether a text can be an item of a list with commas between the items. -/
structure Listable (item : Text) : Prop where
  clean : item.Clean
  nonempty : item ≠ []
  comma : ',' ∉ item

/-- Whether a component has clean texts alone, and items without commas. -/
structure WellFormed (c : Component) : Prop where
  name : c.name.Clean
  purpose : c.purpose.Clean
  interfaces : ∀ item ∈ c.interfaces, Listable item
  dependencies : ∀ item ∈ c.dependencies, Listable item

theorem listable_of_mem_readList (ht : '\n' ∉ t) (h : item ∈ readList t) : Listable item := by
  obtain ⟨hm, hn⟩ := List.mem_filter.mp h
  obtain ⟨p, hp, rfl⟩ := List.mem_map.mp hm
  refine ⟨Text.clean_trim fun hc => ht (Text.mem_of_mem_splitOn hp hc).1, by simpa using hn, ?_⟩
  exact fun hc => (Text.mem_of_mem_splitOn hp (Text.mem_of_mem_trim hc)).2 rfl

theorem wellFormed_named (h : t.Clean) : (named t).WellFormed where
  name := h
  purpose := Text.clean_nil
  interfaces := by simp [named]
  dependencies := by simp [named]

/-- One more line of a text leaves a component well formed. -/
theorem WellFormed.withLine (h : c.WellFormed) (hl : '\n' ∉ l) : (c.withLine l).WellFormed := by
  have hline : '\n' ∉ l.trim := (Text.clean_trim hl).feed
  have hitem : '\n' ∉ (Bullet.item? l.trim).getD l.trim := by
    cases hi : Bullet.item? l.trim with
    | none => exact hline
    | some s => exact Text.not_feed_mem_of_suffix hline (Bullet.suffix_of_item? hi)
  have hvalue : ∀ {label s}, Text.after? label ((Bullet.item? l.trim).getD l.trim) = some s →
      '\n' ∉ s := fun hs => Text.not_feed_mem_of_suffix hitem (Text.suffix_of_after? hs)
  unfold Component.withLine
  dsimp only
  split
  next s hs => exact { h with purpose := Text.clean_trim (hvalue hs) }
  next =>
    split
    next s hs =>
      exact { h with interfaces := fun _ hm => listable_of_mem_readList (hvalue hs) hm }
    next =>
      split
      next s hs =>
        exact { h with dependencies := fun _ hm => listable_of_mem_readList (hvalue hs) hm }
      next => exact h

theorem WellFormed.foldl_withLine (h : c.WellFormed) (hl : ∀ l ∈ ls, '\n' ∉ l) :
    (ls.foldl Component.withLine c).WellFormed := by
  induction ls generalizing c with
  | nil => exact h
  | cons l ls ih =>
    obtain ⟨hfirst, hrest⟩ := List.forall_mem_cons.mp hl
    exact ih (h.withLine hfirst) hrest

theorem wellFormed_of_mem_readAll (h : c ∈ readAll body) : c.WellFormed := by
  obtain ⟨g, hg, rfl⟩ := List.mem_map.mp h
  obtain ⟨hh, hs⟩ := Section.mem_of_mem_grouped hg
  have hname : '\n' ∉ g.1.drop 4 :=
    Text.not_feed_mem_of_suffix (Text.not_feed_mem_of_mem_lines hh) (List.drop_suffix 4 _)
  exact (wellFormed_named (Text.clean_trim hname)).foldl_withLine fun l hl =>
    Text.not_feed_mem_of_mem_lines (hs hl)

end Component

namespace Decision

/-- Whether a decision says something, has clean texts alone, and can be told from a candidate by
its source. -/
structure WellFormed (x : Decision) : Prop where
  nonempty : x.decision ≠ []
  decision : x.decision.Clean
  rationale : x.rationale.Clean
  source : x.source.Clean
  unmarked : x.candidate = false → ¬ Label.candidate <:+ x.source

theorem wellFormed_of_mem_readTable (h : x ∈ readTable body) : x.WellFormed := by
  obtain ⟨line, hl, hx⟩ := exists_line_of_mem_readTable h
  obtain ⟨source, date, rest, hcells, hne, -, hsource⟩ := ofCells?_eq_some hx
  have hline : '\n' ∉ line.trim := (Text.clean_trim (Text.not_feed_mem_of_mem_lines hl)).feed
  have hclean : ∀ cell ∈ x.decision :: x.rationale :: source :: date :: rest, cell.Clean := by
    intro cell hc
    rw [← hcells] at hc
    obtain ⟨p, hp, rfl⟩ := Table.exists_piece_of_mem_cells hc
    exact Text.clean_trim fun hm => hline (hp _ hm)
  have hcell : source.Clean := hclean source (by simp)
  refine ⟨hne, hclean _ (by simp), hclean _ (by simp), ?_, ?_⟩
  · rcases hsource with ⟨-, s, rfl, he⟩ | ⟨-, he, -⟩
    · rw [he]
      refine ⟨Text.trim_trimEnd_of_append rfl rfl hcell.trimmed, fun hm => hcell.feed ?_⟩
      exact List.mem_append_left _ (Text.mem_of_mem_trimEnd hm)
    · rwa [he]
  · rintro hf
    rcases hsource with ⟨hc, -⟩ | ⟨-, he, hn⟩
    · rw [hf] at hc
      cases hc
    · rwa [he]

end Decision

namespace Document

open Section

/-- What holds of each document that is read, whatever it is read from. -/
structure WellFormed (d : Document) : Prop where
  title : d.task ≠ [] → d.title ≠ []
  overview : d.overview.trim = d.overview
  architecture : d.architecture.trimEnd = d.architecture
  firstLine : d.architecture ≠ [] → ∃ l ls, d.architecture.lines = l :: ls ∧ l.blank = false
  components : ∀ c ∈ d.components, c.WellFormed
  decisions : ∀ x ∈ d.decisions, x.WellFormed
  adrs : ∀ item ∈ d.adrs, item.Clean ∧ item ≠ []
  requirements : ∀ item ∈ d.requirements, item.Clean ∧ item ≠ []

theorem ne_nil_of_titleOnLine? {title : Text} (h : titleOnLine? l = some title) : title ≠ [] := by
  obtain ⟨rest, -, h⟩ := Option.bind_eq_some_iff.mp h
  dsimp only at h
  split at h
  · cases h
  next hn =>
    rw [← Option.some.inj h]
    simpa using hn

theorem title_read_ne_nil {task : Text} (h : task ≠ []) (t : Text) : (read task t).title ≠ [] := by
  have he : (read task t).title = ((split t).1.lines.findSome? titleOnLine?).getD task := rfl
  rw [he]
  cases hf : (split t).1.lines.findSome? titleOnLine? with
  | none => exact h
  | some title =>
    obtain ⟨l, -, hl⟩ := List.exists_of_findSome?_eq_some hf
    exact ne_nil_of_titleOnLine? hl

theorem trim_bodyOf_split (t name : Text) :
    Text.trim (bodyOf (split t).2 name) = bodyOf (split t).2 name := by
  unfold bodyOf
  cases hs : (split t).2.find? fun s => Text.sameIgnoringCase s.header name with
  | none => rfl
  | some s =>
    obtain ⟨ls, -, -, hb⟩ := exists_quiet_of_mem_split (List.mem_of_find?_eq_some hs)
    change Text.trim s.body = s.body
    rw [hb, Text.trim_trim]

/-- The first line of a block without blank lines in front of it says something. -/
theorem exists_first_line_of_block (hb : t.block = t) (hn : t ≠ []) :
    ∃ l ls, t.lines = l :: ls ∧ l.blank = false := by
  have hsolid : t.blank = false := by
    rw [← Bool.not_eq_true]
    exact fun h => hn (by rw [← hb, Text.block_of_blank h])
  obtain ⟨y, ys, hsplit, hy⟩ := Text.exists_first_line_block hsolid
  rw [hb] at hsplit
  rcases Text.first_piece_cases '\n' t with hf | ⟨x, z, hx, rfl⟩
  · exact ⟨t, [], Text.lines_of_single hf hn, hsolid⟩
  · rw [Text.splitOn_piece hx] at hsplit
    refine ⟨_, _, Text.lines_piece hx z, ?_⟩
    rw [← Text.blank_trim, Text.trim_dropReturn, Text.blank_trim, (List.cons.inj hsplit).1, hy]

theorem wellFormed_read (task t : Text) : (read task t).WellFormed where
  title := by
    rw [task_read]
    exact fun h => title_read_ne_nil h t
  overview := trim_bodyOf_split t _
  architecture := trimEnd_withoutFence _
  firstLine := exists_first_line_of_block (block_withoutFence _)
  components _ := Component.wellFormed_of_mem_readAll
  decisions _ := Decision.wellFormed_of_mem_readTable
  adrs _ := Bullet.clean_of_mem_readItems
  requirements _ := Bullet.clean_of_mem_readItems

/-- The summary of a well-formed document leaves out no decision. -/
theorem WellFormed.decisions_summary (h : d.WellFormed) : d.summary.decisions = d.decisions := by
  refine List.filter_eq_self.mpr fun x hx => ?_
  rw [(h.decisions x hx).decision.not_blank (h.decisions x hx).nonempty]
  rfl

/-- Each document that is read is well formed, and its summary has as candidates those of its
decisions that are marked. -/
theorem wellFormed_read_summary (task t : Text) :
    (read task t).task = task ∧ (read task t).WellFormed ∧
      (read task t).summary.candidates =
        ((read task t).summary.decisions.filter (·.candidate)).map (·.decision) ∧
      ((read task t).summary.isEmpty = true → (read task t).summary.candidates = []) := by
  have h := wellFormed_read task t
  have hcandidates : (read task t).summary.candidates =
      ((read task t).summary.decisions.filter (·.candidate)).map (·.decision) := by
    rw [h.decisions_summary]
    rfl
  refine ⟨task_read task t, h, hcandidates, fun he => ?_⟩
  have hnone : (read task t).summary.decisions = [] := by
    simp only [Summary.isEmpty, Bool.and_eq_true, List.isEmpty_iff] at he
    exact he.1.2
  rw [hcandidates, hnone]
  rfl

end Document

end DesignRecords
