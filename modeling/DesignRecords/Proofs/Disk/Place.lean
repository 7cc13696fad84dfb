import DesignRecords.Disk.Basic
import Mathlib.Data.List.Basic
import Mathlib.Logic.Function.Basic

namespace DesignRecords

namespace Entry

variable {e : Entry} {new : Option Entry} {n m : Text} {p q : Place}
  {entries : List (Text × Entry)}

/-- What a file holds; nothing for a directory. -/
def contents? : Entry → Option Contents
  | file c => some c
  | directory _ => none

theorem lookup_filter_ne (h : m ≠ n) :
    (entries.filter (·.1 ≠ n)).lookup m = entries.lookup m := by
  induction entries with
  | nil => rfl
  | cons a entries ih =>
    obtain ⟨k, e⟩ := a
    by_cases hk : k = n
    · subst hk
      have hm : (m == k) = false := by simpa using h
      simpa [List.lookup_cons, hm] using ih
    · simp only [ne_eq, decide_not] at ih
      cases hm : m == k <;> simp [hk, List.lookup_cons, hm, ih]

theorem lookup_filter_self : (entries.filter (·.1 ≠ n)).lookup n = none := by
  rw [List.lookup_eq_none_iff]
  intro a ha
  have hn : a.1 ≠ n := of_decide_eq_true (List.mem_filter.mp ha).2
  exact bne_iff_ne.mpr hn.symm

/-- What stands in a directory once an entry has been put in or taken out. -/
theorem lookup_setBelow_last :
    (setBelow new [n] entries).lookup m = if m = n then new else entries.lookup m := by
  by_cases h : m = n
  · subst h
    cases new with
    | none => simpa [setBelow] using lookup_filter_self
    | some e => simp [setBelow]
  · have hm : (m == n) = false := by simpa using h
    cases new with
    | none => simpa [setBelow, h] using lookup_filter_ne h
    | some e => simpa [setBelow, h, List.lookup_cons, hm] using lookup_filter_ne h

theorem lookup_map_if (f : Entry → Entry) :
    (entries.map fun a => if a.1 = n then (a.1, f a.2) else a).lookup m =
      if m = n then (entries.lookup m).map f else entries.lookup m := by
  induction entries with
  | nil => simp
  | cons a entries ih =>
    obtain ⟨k, e⟩ := a
    by_cases hk : k = n
    · subst hk
      cases hm : m == k with
      | true =>
        have hmk : m = k := by simpa using hm
        simp [hmk]
      | false =>
        have hmk : m ≠ k := by simpa using hm
        simpa [List.lookup_cons, hm, hmk] using ih
    · cases hm : m == k with
      | true =>
        have hmk : m = k := by simpa using hm
        simp [hmk, hk]
      | false => simpa [List.lookup_cons, hm, hk] using ih

theorem lookup_setBelow_next (k : Text) :
    (setBelow new (n :: k :: p) entries).lookup m =
      if m = n then (entries.lookup m).map (mapEntries (setBelow new (k :: p)))
      else entries.lookup m := lookup_map_if _

theorem below?_cons : below? (n :: p) e = (e.child? n).bind (below? p) := rfl

theorem below?_singleton : below? [n] e = e.child? n := by
  rw [below?_cons]
  cases e.child? n <;> rfl

/-- A change at a place does not show anywhere but there and below. -/
theorem contents_setBelow (hp : ¬ p <+: q) :
    (below? q (directory (setBelow new p entries))).map contents? =
      (below? q (directory entries)).map contents? := by
  induction p generalizing q entries with
  | nil => exact absurd List.nil_prefix hp
  | cons n p ih =>
    cases q with
    | nil => rfl
    | cons m q =>
      rw [below?_cons, below?_cons]
      simp only [child?]
      cases p with
      | nil =>
        have hm : m ≠ n := by
          rintro rfl
          exact hp (by simp)
        rw [lookup_setBelow_last, if_neg hm]
      | cons k p =>
        rw [lookup_setBelow_next]
        split
        next hm =>
          subst hm
          have hq : ¬ (k :: p) <+: q := fun h => hp (by simpa using h)
          cases entries.lookup m with
          | none => rfl
          | some e =>
            cases e with
            | file c => rfl
            | directory es => exact ih hq
        next => rfl

theorem below?_setBelow_self {es : List (Text × Entry)}
    (h : below? q (directory entries) = some (directory es)) :
    below? (q ++ [n]) (directory (setBelow new (q ++ [n]) entries)) = new := by
  induction q generalizing entries with
  | nil =>
    have hl : (setBelow new [n] entries).lookup n = new := by
      rw [lookup_setBelow_last, if_pos rfl]
    rw [List.nil_append, below?_cons]
    simp only [child?, hl]
    cases new <;> rfl
  | cons m q ih =>
    obtain ⟨k, r, hr⟩ : ∃ k r, q ++ [n] = k :: r := List.exists_cons_of_ne_nil (by simp)
    rw [below?_cons] at h
    simp only [child?] at h
    rw [List.cons_append, below?_cons]
    cases hm : entries.lookup m with
    | none => rw [hm] at h; cases h
    | some e =>
      cases e with
      | file c =>
        rw [hm] at h
        cases q <;> cases h
      | directory es' =>
        rw [hm] at h
        have hl : (setBelow new (m :: (q ++ [n])) entries).lookup m =
            some (directory (setBelow new (q ++ [n]) es')) := by
          rw [hr, lookup_setBelow_next, if_pos rfl, hm]
          rfl
        simp only [child?, hl]
        exact ih h

theorem below?_append : below? (p ++ q) e = (below? p e).bind (below? q) := by
  induction p generalizing e with
  | nil => rfl
  | cons n p ih =>
    rw [List.cons_append, below?_cons, below?_cons]
    cases e.child? n with
    | none => rfl
    | some e => exact ih

end Entry

namespace Disk

variable {d : Disk} {e : Entry} {n : Text} {p q : Place}

/-- What can be seen at a place: nothing, a directory, or a file with its contents. -/
def view (d : Disk) (place : Place) : Option (Option Contents) :=
  (d.lookup? place).map Entry.contents?

theorem view_eq_directory : d.view p = some none ↔ ∃ es, d.lookup? p = some (.directory es) := by
  unfold view
  cases d.lookup? p with
  | none => simp
  | some e => cases e <;> simp [Entry.contents?]

theorem view_eq_file {c : Contents} : d.view p = some (some c) ↔ d.lookup? p = some (.file c) := by
  unfold view
  cases d.lookup? p with
  | none => simp
  | some e => cases e <;> simp [Entry.contents?]

/-- Nothing can be seen below a place where no directory stands. -/
theorem view_append (h : d.view p ≠ some none) (hq : q ≠ []) : d.view (p ++ q) = none := by
  have hb : d.lookup? (p ++ q) = (d.lookup? p).bind (Entry.below? q) := Entry.below?_append
  obtain ⟨n, q, rfl⟩ := List.exists_cons_of_ne_nil hq
  rw [view, hb]
  cases he : d.lookup? p with
  | none => rfl
  | some e =>
    cases e with
    | file c => rfl
    | directory es => exact absurd (view_eq_directory.mpr ⟨es, he⟩) h

/-- What stands above something is a directory. -/
theorem view_of_append (h : d.view (p ++ q) ≠ none) (hq : q ≠ []) : d.view p = some none := by
  by_contra hp
  exact h (view_append hp hq)

theorem view_below (h : d.lookup? p = some e) (q : Place) :
    d.view (p ++ q) = (e.below? q).map Entry.contents? := by
  have hb : d.lookup? (p ++ q) = (d.lookup? p).bind (Entry.below? q) := Entry.below?_append
  rw [view, hb, h]
  rfl

theorem view_put_elsewhere (hp : ¬ p <+: q) (e : Entry) : (d.put p e).view q = d.view q :=
  Entry.contents_setBelow hp

theorem view_erase_elsewhere (hp : ¬ p <+: q) : (d.erase p).view q = d.view q :=
  Entry.contents_setBelow hp

/-- What is put at a place in a directory can be seen there and below. -/
theorem view_put_below (hd : d.view q = some none) (e : Entry) (p : Place) :
    (d.put (q ++ [n]) e).view (q ++ [n] ++ p) = (e.below? p).map Entry.contents? := by
  obtain ⟨es, hq⟩ := view_eq_directory.mp hd
  have hself : Disk.lookup? (d.put (q ++ [n]) e) (q ++ [n]) = some e := Entry.below?_setBelow_self hq
  exact view_below hself p

/-- What is taken from a place in a directory can be seen neither there nor below. -/
theorem view_erase_below (hd : d.view q = some none) (p : Place) :
    (d.erase (q ++ [n])).view (q ++ [n] ++ p) = none := by
  obtain ⟨es, hq⟩ := view_eq_directory.mp hd
  have hself : Disk.lookup? (d.erase (q ++ [n])) (q ++ [n]) = none := Entry.below?_setBelow_self hq
  have hb : Disk.lookup? (d.erase (q ++ [n])) (q ++ [n] ++ p) =
      (Disk.lookup? (d.erase (q ++ [n])) (q ++ [n])).bind (Entry.below? p) := Entry.below?_append
  rw [view, hb, hself]
  rfl

/-- Putting a file or an empty directory in place of a file or of nothing changes what can be seen
at its place alone. -/
theorem view_put (hd : d.view q = some none) (hp : d.view (q ++ [n]) ≠ some none)
    (he : ∀ m, e.child? m = none) :
    (d.put (q ++ [n]) e).view = Function.update d.view (q ++ [n]) (some e.contents?) := by
  funext r
  by_cases hr : q ++ [n] <+: r
  · obtain ⟨r, rfl⟩ := hr
    rw [view_put_below hd]
    cases r with
    | nil => simp [Entry.below?]
    | cons m r =>
      have hne : q ++ [n] ++ m :: r ≠ q ++ [n] := by simp
      rw [Function.update_of_ne hne, view_append hp (by simp), Entry.below?_cons, he]
      rfl
  · have hne : r ≠ q ++ [n] := by
      rintro rfl
      exact hr (List.prefix_refl _)
    rw [Function.update_of_ne hne, view_put_elsewhere hr]

theorem view_erase (hd : d.view q = some none) (hp : d.view (q ++ [n]) ≠ some none) :
    (d.erase (q ++ [n])).view = Function.update d.view (q ++ [n]) none := by
  funext r
  by_cases hr : q ++ [n] <+: r
  · obtain ⟨r, rfl⟩ := hr
    rw [view_erase_below hd]
    cases r with
    | nil => simp
    | cons m r =>
      have hne : q ++ [n] ++ m :: r ≠ q ++ [n] := by simp
      rw [Function.update_of_ne hne, view_append hp (by simp)]
  · have hne : r ≠ q ++ [n] := by
      rintro rfl
      exact hr (List.prefix_refl _)
    rw [Function.update_of_ne hne, view_erase_elsewhere hr]

end Disk

end DesignRecords
