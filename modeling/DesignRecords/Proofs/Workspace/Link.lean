import DesignRecords.Proofs.Disk.Removal
import DesignRecords.Workspace.Layout

namespace DesignRecords

namespace Path

variable {p : Path} {n : Text} {names : List Text}

/-- The pieces before the name in the path of an entry are those of the path itself, but for a last
one that is empty. -/
theorem inner_cases (p : Path) : p.text = [] ∧ p.inner = [] ∨ p.pieces = p.inner ∨
    p.pieces = p.inner ++ [[]] ∧ p.inner ≠ [] := by
  unfold inner
  split
  next h => exact Or.inl ⟨List.isEmpty_iff.mp h, rfl⟩
  next =>
    split
    next h =>
      obtain ⟨s, hs⟩ := List.isSuffixOf_iff_suffix.mp h
      have ht : p.text = s ++ '/' :: [] := hs.symm
      have hp : p.pieces = s.splitOn '/' ++ [[]] := by
        rw [pieces, ht, List.splitOn_append_cons_self, List.splitOn_nil]
      rw [hp, List.dropLast_concat]
      exact Or.inr (Or.inr ⟨rfl, List.splitOn_ne_nil _ _⟩)
    next => exact Or.inr (Or.inl rfl)

theorem partOfPiece?_name (h : IsName n) : partOfPiece? n = some (.name n) := by
  rw [partOfPiece?, h.idle, h.up]
  rfl

/-- The path of an entry has one part more. -/
theorem parts_entry (h : IsName n) : (p.entry n).parts = p.parts ++ [.name n] := by
  have hdot : (some n == some ".".toList) = false := by
    rw [beq_eq_false_iff_ne]
    rintro ⟨⟩
    exact absurd h.idle (by decide)
  have hname : [n].filterMap partOfPiece? = [.name n] := by
    rw [List.filterMap_cons, partOfPiece?_name h]
    rfl
  rw [parts, parts, absolute_entry h, pieces_entry h, List.filterMap_append, hname,
    ← List.append_assoc]
  congr 1
  rcases inner_cases p with ⟨ht, hi⟩ | hi | ⟨hi, hne⟩
  · rw [hi, pieces, ht]
    simp only [List.nil_append, List.head?_cons, hdot, List.splitOn_nil]
    rfl
  · obtain ⟨x, xs, hx⟩ := List.exists_cons_of_ne_nil (List.splitOn_ne_nil '/' p.text)
    rw [← hi, pieces, hx]
    rfl
  · obtain ⟨x, xs, hx⟩ := List.exists_cons_of_ne_nil hne
    rw [hi, hx, List.filterMap_append]
    simp [partOfPiece?, isIdle]

theorem parts_within (h : ∀ n ∈ names, IsName n) :
    (p.within names).parts = p.parts ++ names.map .name := by
  induction names generalizing p with
  | nil => simp [within]
  | cons n names ih =>
    have hn : IsName n := h n (by simp)
    have hw : p.within (n :: names) = (p.entry n).within names := rfl
    rw [hw, ih fun m hm => h m (List.mem_cons_of_mem n hm), parts_entry hn, List.append_assoc]
    rfl

theorem fileName?_entry (h : IsName n) : (p.entry n).fileName? = some n := by
  rw [fileName?, parts_entry h, List.getLast?_concat]

end Path

namespace Layout

section

variable {α : Type} [DecidableEq α] {as bs : List α}

theorem withoutShared_append (shared as bs : List α) :
    withoutShared (shared ++ as) (shared ++ bs) = withoutShared as bs := by
  induction shared with
  | nil => rfl
  | cons a shared ih => rw [List.cons_append, List.cons_append, withoutShared, if_pos rfl, ih]

theorem withoutShared_of_apart (h : ∀ a ∈ as.head?, ∀ b ∈ bs.head?, a ≠ b) :
    withoutShared as bs = (as, bs) := by
  cases as with
  | nil => rfl
  | cons a as =>
    cases bs with
    | nil => rfl
    | cons b bs => rw [withoutShared, if_neg (h a rfl b rfl)]

end

variable {l : Layout} {names shared up down : List Text}

theorem partsBelow_within (h : ∀ n ∈ names, Path.IsName n) :
    l.partsBelow (l.root.within names) = names.map .name := by
  have hb : l.root.below? (l.root.within names) = some (names.map .name) := by
    rw [Path.below?, Path.parts_within h]
    exact List.isPrefixOf?_eq_some_iff_append_eq.mpr rfl
  rw [partsBelow, hb]
  rfl

/-- A link climbs over the names on the way down to its start, as far as the way to the target does
not share them, and goes down from there. -/
theorem link_of_partsBelow {start target : Path}
    (hup : l.partsBelow start = (shared ++ up).map .name)
    (hdown : l.partsBelow target = (shared ++ down).map .name)
    (hne : ∀ m ∈ up.head?, ∀ n ∈ down.head?, m ≠ n) :
    l.link start target = Text.joined "/" (List.replicate up.length "..".toList ++ down) := by
  have hapart : ∀ a ∈ (up.map Path.Part.name).head?, ∀ b ∈ (down.map Path.Part.name).head?,
      a ≠ b := by
    intro a ha b hb he
    rw [List.head?_map] at ha hb
    obtain ⟨m, hm, rfl⟩ := Option.map_eq_some_iff.mp ha
    obtain ⟨n, hn, rfl⟩ := Option.map_eq_some_iff.mp hb
    exact hne m hm n hn (Path.Part.name.inj he)
  rw [link, hup, hdown, List.map_append, List.map_append, withoutShared_append,
    withoutShared_of_apart hapart]
  simp only [Path.ofParts, List.map_append, List.map_map, List.map_const', List.map_replicate,
    Function.comp_def, Path.Part.text, List.map_id']

theorem link_within (hup : ∀ n ∈ shared ++ up, Path.IsName n)
    (hdown : ∀ n ∈ shared ++ down, Path.IsName n)
    (hne : ∀ m ∈ up.head?, ∀ n ∈ down.head?, m ≠ n) :
    l.link (l.root.within (shared ++ up)) (l.root.within (shared ++ down)) =
      Text.joined "/" (List.replicate up.length "..".toList ++ down) :=
  link_of_partsBelow (partsBelow_within hup) (partsBelow_within hdown) hne

end Layout

end DesignRecords
