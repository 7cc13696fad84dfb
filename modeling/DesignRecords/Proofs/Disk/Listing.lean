import DesignRecords.Disk.Tree
import DesignRecords.Proofs.Disk.Name
import DesignRecords.Proofs.Text.Increasing

namespace DesignRecords

namespace Entry

variable {e e' : Entry} {entries : List (Text × Entry)} {n : Text} {place front : Place}

theorem depth_lt_of_lookup (h : entries.lookup n = some e) : e.depth < depthOf entries := by
  induction entries with
  | nil => cases h
  | cons a entries ih =>
    obtain ⟨k, e'⟩ := a
    rw [List.lookup_cons] at h
    rw [depthOf]
    split at h
    · cases h
      omega
    · have := ih h
      omega

theorem depth_lt_of_child? (h : e.child? n = some e') : e'.depth < e.depth := by
  cases e with
  | file c => cases h
  | directory entries =>
    rw [depth]
    exact depth_lt_of_lookup h

theorem depth_le_of_below? (h : e.below? place = some e') : e'.depth ≤ e.depth := by
  induction place generalizing e with
  | nil =>
    cases h
    exact Nat.le_refl _
  | cons n place ih =>
    obtain ⟨e'', hc, hb⟩ := Option.bind_eq_some_iff.mp h
    exact (ih hb).trans (Nat.le_of_lt (depth_lt_of_child? hc))

theorem places_subset_placesIn (h : entries.lookup n = some e) :
    e.places (front ++ [n]) ⊆ placesIn front entries := by
  induction entries with
  | nil => cases h
  | cons a entries ih =>
    obtain ⟨k, e'⟩ := a
    rw [List.lookup_cons] at h
    rw [placesIn]
    split at h
    next hk =>
      cases h
      rw [show n = k by simpa using hk]
      exact List.subset_append_left _ _
    · exact List.Subset.trans (ih h) (List.subset_append_right _ _)

theorem mem_places_of_below? (h : e.below? place = some e') :
    ∃ c, (front ++ place, c) ∈ e.places front := by
  induction place generalizing e front with
  | nil =>
    cases e with
    | file c => exact ⟨some c, by simp [places]⟩
    | directory entries => exact ⟨none, by simp [places]⟩
  | cons n place ih =>
    obtain ⟨e'', hc, hb⟩ := Option.bind_eq_some_iff.mp h
    cases e with
    | file c => cases hc
    | directory entries =>
      obtain ⟨c, hm⟩ := @ih e'' (front ++ [n]) hb
      refine ⟨c, ?_⟩
      rw [List.append_assoc] at hm
      rw [places]
      exact List.mem_cons_of_mem _ (places_subset_placesIn hc hm)

end Entry

namespace Path

instance {n : Text} : Decidable (IsName n) :=
  decidable_of_iff (isIdle n = false ∧ (n == "..") = false ∧ '/' ∉ n)
    ⟨fun ⟨idle, up, slash⟩ => ⟨idle, up, slash⟩, fun ⟨idle, up, slash⟩ => ⟨idle, up, slash⟩⟩

end Path

namespace Disk

variable {d : Disk} {dir p : Path} {name : Text} {names : List Text} {place : Place} {e : Entry}
  {depth : Nat}

/-- Whether all that stands on a disk stands under a name that a path can have. -/
def Named (d : Disk) : Prop := ∀ place name, d.view (place ++ [name]) ≠ none → Path.IsName name

theorem named_of_places (h : ∀ x ∈ d.places, ∀ name ∈ x.1, Path.IsName name) : d.Named := by
  intro place name hv
  obtain ⟨e, he⟩ := Option.ne_none_iff_exists'.mp hv
  obtain ⟨e', he', -⟩ := Option.map_eq_some_iff.mp he
  obtain ⟨c, hc⟩ := @Entry.mem_places_of_below? d.root e' (place ++ [name]) [] he'
  have hm : ([] ++ (place ++ [name]), c) ∈ d.places := by
    rcases List.mem_cons.mp hc with h | h
    · simp at h
    · exact h
  exact h _ hm name (by simp)

/-- Whether a name stands in a directory. -/
def Lists (d : Disk) (dir : Path) (name : Text) : Prop :=
  ∃ names, d.list dir = .ok names ∧ name ∈ names

theorem lists_of_ok (h : d.list dir = .ok names) : d.Lists dir name ↔ name ∈ names := by
  refine ⟨?_, fun hn => ⟨names, h, hn⟩⟩
  rintro ⟨names', h', hn⟩
  rw [h] at h'
  cases h'
  exact hn

theorem not_lists_of_error {fault : Fault} (h : d.list dir = .error fault) :
    ¬ d.Lists dir name := by
  rintro ⟨names, hl, -⟩
  rw [h] at hl
  cases hl

instance (d : Disk) (dir : Path) (name : Text) : Decidable (d.Lists dir name) :=
  match h : d.list dir with
  | .ok _ => decidable_of_iff _ (lists_of_ok h).symm
  | .error _ => .isFalse (not_lists_of_error h)

theorem list_eq_ok : d.list p = .ok names ↔ ∃ place entries, d.locate p = .ok place ∧
    d.lookup? place = some (.directory entries) ∧ names = Disk.names entries := by
  unfold list
  rw [find_bind_eq_ok]
  constructor
  · rintro ⟨place, e, hl, he, h⟩
    cases e with
    | file c => cases h
    | directory entries =>
      cases h
      exact ⟨place, entries, hl, he, rfl⟩
  · rintro ⟨place, entries, hl, he, rfl⟩
    exact ⟨place, _, hl, he, rfl⟩

theorem isDirectory_of_lists (h : d.Lists dir name) : d.isDirectory dir = true := by
  obtain ⟨names, hn, -⟩ := h
  obtain ⟨place, entries, hl, he, -⟩ := list_eq_ok.mp hn
  exact isDirectory_iff.mpr ⟨place, hl, view_eq_directory.mpr ⟨entries, he⟩⟩

theorem list_of_isDirectory (h : d.isDirectory dir = true) : ∃ names, d.list dir = .ok names := by
  obtain ⟨place, hl, hv⟩ := isDirectory_iff.mp h
  obtain ⟨entries, he⟩ := view_eq_directory.mp hv
  exact ⟨_, list_eq_ok.mpr ⟨place, entries, hl, he, rfl⟩⟩

theorem lookup?_concat (d : Disk) (place : Place) (name : Text) :
    d.lookup? (place ++ [name]) = (d.lookup? place).bind (·.child? name) := by
  have hb : d.lookup? (place ++ [name]) = (d.lookup? place).bind (Entry.below? [name]) :=
    Entry.below?_append
  have hc : Entry.below? [name] = (·.child? name) := funext fun _ => Entry.below?_singleton
  rw [hb, hc]

theorem lists_iff (hl : d.locate dir = .ok place) :
    d.Lists dir name ↔ d.view (place ++ [name]) ≠ none := by
  rw [view, lookup?_concat]
  constructor
  · rintro ⟨names, hn, hm⟩
    obtain ⟨place', entries, hl', he, rfl⟩ := list_eq_ok.mp hn
    rw [hl] at hl'
    cases hl'
    rw [he]
    rw [Disk.names, mem_increasing] at hm
    obtain ⟨a, ha, rfl⟩ := List.mem_map.mp hm
    simp only [Option.bind_some, Entry.child?, ne_eq, Option.map_eq_none_iff,
      List.lookup_eq_none_iff]
    intro h
    simpa using h a ha
  · intro h
    cases he : d.lookup? place with
    | none =>
      rw [he] at h
      exact absurd rfl h
    | some e =>
      cases e with
      | file c =>
        rw [he] at h
        exact absurd rfl h
      | directory entries =>
        refine ⟨_, list_eq_ok.mpr ⟨place, entries, hl, he, rfl⟩, ?_⟩
        rw [he] at h
        simp only [Option.bind_some, Entry.child?, ne_eq, Option.map_eq_none_iff,
          List.lookup_eq_none_iff] at h
        push Not at h
        obtain ⟨a, ha, hn⟩ := h
        have he : name = a.1 := by simpa using hn
        rw [Disk.names, mem_increasing]
        exact List.mem_map.mpr ⟨a, ha, he.symm⟩

theorem lists_of_isDirectory_entry (hn : Path.IsName name) (hp : dir.text ≠ [])
    (h : d.isDirectory (dir.entry name) = true) : d.Lists dir name := by
  obtain ⟨place, hl, hv⟩ := isDirectory_iff.mp h
  obtain ⟨q, hq, -⟩ := isDirectory_iff.mp (isDirectory_of_locate_entry hn hp hl)
  obtain ⟨-, q', hr, -, -, rfl⟩ := (locate_entry hn).mp hl
  rw [reach_of_locate hq] at hr
  cases hr
  refine (lists_iff hq).mpr ?_
  rw [hv]
  simp

theorem Named.isName_of_lists (h : d.Named) (hn : d.Lists dir name) : Path.IsName name := by
  obtain ⟨names, hl, -⟩ := id hn
  obtain ⟨place, -, hl, -⟩ := list_eq_ok.mp hl
  exact h place name ((lists_iff hl).mp hn)

theorem depth_le_of_lookup? (h : d.lookup? place = some e) : e.depth ≤ d.depth :=
  Entry.depth_le_of_below? h

/-- A directory in which something stands is not the deepest entry. -/
theorem depth_pos_of_lists (hn : d.Lists dir name) :
    ∃ q e, d.locate dir = .ok q ∧ d.lookup? q = some e ∧ 0 < e.depth := by
  obtain ⟨names, hl, hm⟩ := hn
  obtain ⟨q, entries, hq, he, rfl⟩ := list_eq_ok.mp hl
  refine ⟨q, _, hq, he, ?_⟩
  cases entries with
  | nil => cases mem_of_mem_increasing hm
  | cons a entries =>
    rw [Entry.depth, Entry.depthOf]
    omega

/-- Whether a path below a directory leads to a markdown file or to nowhere, with no hidden name
on the way. -/
inductive Page (d : Disk) : Path → Path → Prop
  | here {dir : Path} {name : Text} (listed : d.Lists dir name)
    (visible : Text.startsWith name "." = false)
    (file : d.isDirectory (dir.entry name) = false)
    (markdown : (dir.entry name).isMarkdown = true) : Page d dir (dir.entry name)
  | deeper {dir p : Path} {name : Text} (listed : d.Lists dir name)
    (visible : Text.startsWith name "." = false) (page : Page d (dir.entry name) p) : Page d dir p

theorem Page.isDirectory (h : d.Page dir p) : d.isDirectory dir = true := by
  cases h with
  | here listed visible file markdown => exact isDirectory_of_lists listed
  | deeper listed visible page => exact isDirectory_of_lists listed

/-- Whether a path is that of an entry of a directory, a markdown file, or of a page below it. -/
def PageAt (d : Disk) (entry p : Path) : Prop :=
  d.isDirectory entry = true ∧ d.Page entry p ∨
    d.isDirectory entry = false ∧ entry.isMarkdown = true ∧ p = entry

theorem page_iff_of_list (h : d.list dir = .ok names) : d.Page dir p ↔
    ∃ name ∈ names.filter (!Text.startsWith · "."), d.PageAt (dir.entry name) p := by
  simp only [List.mem_filter, ← lists_of_ok h, Bool.not_eq_true']
  constructor
  · intro hp
    cases hp with
    | here listed visible file markdown =>
      exact ⟨_, ⟨listed, visible⟩, Or.inr ⟨file, markdown, rfl⟩⟩
    | deeper listed visible page => exact ⟨_, ⟨listed, visible⟩, Or.inl ⟨page.isDirectory, page⟩⟩
  · rintro ⟨name, ⟨listed, visible⟩, ⟨-, page⟩ | ⟨file, markdown, rfl⟩⟩
    · exact .deeper listed visible page
    · exact .here listed visible file markdown

/-- What stands in a directory is less deep than the directory. -/
theorem Named.depth_lt_of_lists (hd : d.Named) (hn : d.Lists dir name)
    (hl : d.locate (dir.entry name) = .ok place) (he : d.lookup? place = some e) :
    ∃ q e', d.locate dir = .ok q ∧ d.lookup? q = some e' ∧ e.depth < e'.depth := by
  obtain ⟨q, hq, -⟩ := isDirectory_iff.mp (isDirectory_of_lists hn)
  obtain ⟨-, q', hr, -, -, rfl⟩ := (locate_entry (hd.isName_of_lists hn)).mp hl
  rw [reach_of_locate hq] at hr
  cases hr
  rw [lookup?_concat] at he
  obtain ⟨e', he', hc⟩ := Option.bind_eq_some_iff.mp he
  exact ⟨q, e', hq, he', Entry.depth_lt_of_child? hc⟩

/-- Whether what a path leads to, if to anything, is less deep than some number. -/
def Shallow (d : Disk) (dir : Path) (depth : Nat) : Prop :=
  ∀ place e, d.locate dir = .ok place → d.lookup? place = some e → e.depth < depth

theorem shallow_of_depth_lt (h : d.depth < depth) (dir : Path) : d.Shallow dir depth := by
  intro place e _ he
  have hle := depth_le_of_lookup? he
  omega

theorem Shallow.not_isDirectory (h : d.Shallow dir 0) : d.isDirectory dir = false := by
  rw [Bool.eq_false_iff]
  intro hdir
  obtain ⟨place, hl, hv⟩ := isDirectory_iff.mp hdir
  obtain ⟨es, he⟩ := view_eq_directory.mp hv
  exact Nat.not_lt_zero _ (h place _ hl he)

section

variable (h : d.Shallow dir (depth + 1)) (hn : d.Lists dir name)

include h hn

theorem Shallow.pos_of_lists : 0 < depth := by
  obtain ⟨q, e, hq, he, hpos⟩ := depth_pos_of_lists hn
  have hlt := h q e hq he
  omega

theorem Named.shallow_entry (hd : d.Named) : d.Shallow (dir.entry name) depth := by
  intro place e hl he
  obtain ⟨q, e', hq, he', hlt⟩ := hd.depth_lt_of_lists hn hl he
  have hlt' := h q e' hq he'
  omega

end

end Disk

end DesignRecords
