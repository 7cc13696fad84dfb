import DesignRecords.Proofs.Disk.Removal

namespace DesignRecords

namespace Disk

variable {d d' : Disk} {base p : Path} {names more : List Text} {n : Text} {r place : Place}

/-- Whether a disk takes the path that leads on from another one along some names. -/
structure Takes (base : Path) (names : List Text) : Prop where
  name : ∀ n ∈ names, Path.IsName n
  short : ∀ n ∈ names, isNameTooLong n = false
  checked : checked (base.within names) = .ok ()

/-- The names on the way to a directory can be followed to it. -/
theorem reach_within_of_view (hr : d.reach base = .ok r) (hn : ∀ n ∈ names, Path.IsName n)
    (hs : ∀ n ∈ names, isNameTooLong n = false) (hv : d.view (r ++ names) = some none) :
    d.reach (base.within names) = .ok (r ++ names) := by
  induction names using List.reverseRecOn with
  | nil => rwa [List.append_nil]
  | append_singleton names n ih =>
    rw [← List.append_assoc] at hv ⊢
    have hfront := view_of_append (q := [n]) (by rw [hv]; simp) (by simp)
    rw [Path.within_concat]
    exact reach_entry_of_ok (hn n (by simp)) (hs n (by simp))
      (ih (fun m hm => hn m (by simp [hm])) (fun m hm => hs m (by simp [hm])) hfront) hfront

theorem short_of_reach (hn : ∀ n ∈ names, Path.IsName n)
    (h : d.reach (base.within names) = .ok place) : ∀ n ∈ names, isNameTooLong n = false := by
  induction names using List.reverseRecOn generalizing place with
  | nil => simp
  | append_singleton names n ih =>
    rw [Path.within_concat] at h
    obtain ⟨q, hq, -, hshort, -⟩ := (reach_entry_eq_ok (hn n (by simp))).mp h
    intro m hm
    rcases List.mem_append.mp hm with hm | hm
    · exact ih (fun m hm => hn m (by simp [hm])) hq m hm
    · rwa [List.mem_singleton.mp hm]

/-- Where a path along names leads: to the end of the names, if all but the last are directories. -/
theorem locate_within (names : List Text) (hr : d.reach base = .ok r)
    (hn : ∀ m ∈ names ++ [n], Path.IsName m) :
    d.locate (base.within (names ++ [n])) = .ok place ↔ Takes base (names ++ [n]) ∧
      d.view (r ++ names) = some none ∧ place = r ++ (names ++ [n]) := by
  have hn' : ∀ m ∈ names, Path.IsName m := fun m hm => hn m (by simp [hm])
  constructor
  · intro h
    have hshort := short_of_reach hn (reach_of_locate h)
    rw [Path.within_concat] at h
    obtain ⟨hc, q, hq, hv, -, rfl⟩ := (locate_entry (hn n (by simp))).mp h
    obtain ⟨r', hr', rfl⟩ := reach_within hn' hq
    rw [hr] at hr'
    cases hr'
    exact ⟨⟨hn, hshort, by rwa [Path.within_concat]⟩, hv, List.append_assoc _ _ _⟩
  · rintro ⟨ht, hv, rfl⟩
    have hreach := reach_within_of_view hr hn' (fun m hm => ht.short m (by simp [hm])) hv
    have hc := ht.checked
    rw [Path.within_concat] at hc ⊢
    exact (locate_entry (hn n (by simp))).mpr
      ⟨hc, _, hreach, hv, ht.short n (by simp), (List.append_assoc _ _ _).symm⟩

theorem locate_of_view {v : Option Contents} (hr : d.reach base = .ok r)
    (ht : Takes base (names ++ [n])) (hv : d.view (r ++ (names ++ [n])) = some v) :
    d.locate (base.within (names ++ [n])) = .ok (r ++ (names ++ [n])) := by
  refine (locate_within names hr ht.name).mpr ⟨ht, ?_, rfl⟩
  rw [← List.append_assoc] at hv
  exact view_of_append (q := [n]) (by rw [hv]; simp) (by simp)

/-- What stands at the end of names shows all that stands on the way there. -/
theorem isDirectory_within (names : List Text) (hr : d.reach base = .ok r)
    (hn : ∀ m ∈ names ++ [n], Path.IsName m) :
    d.isDirectory (base.within (names ++ [n])) = true ↔
      Takes base (names ++ [n]) ∧ d.view (r ++ (names ++ [n])) = some none := by
  rw [isDirectory_iff]
  constructor
  · rintro ⟨place, hl, hv⟩
    obtain ⟨ht, -, rfl⟩ := (locate_within names hr hn).mp hl
    exact ⟨ht, hv⟩
  · rintro ⟨ht, hv⟩
    exact ⟨_, locate_of_view hr ht hv, hv⟩

/-- Whether two disks look alike on the way along some names, and in all that is below. -/
structure Alike (d d' : Disk) (base : Path) (r : Place) (names : List Text) : Prop where
  name : ∀ n ∈ names, Path.IsName n
  reach : d.reach base = .ok r
  reach' : d'.reach base = .ok r
  view : ∀ x, x <+: names ∨ names <+: x → d'.view (r ++ x) = d.view (r ++ x)

namespace Alike

theorem symm (h : d.Alike d' base r names) : d'.Alike d base r names :=
  ⟨h.name, h.reach', h.reach, fun x hx => (h.view x hx).symm⟩

theorem append (h : d.Alike d' base r names) (hm : ∀ n ∈ more, Path.IsName n) :
    d.Alike d' base r (names ++ more) where
  name := List.forall_mem_append.mpr ⟨h.name, hm⟩
  reach := h.reach
  reach' := h.reach'
  view x hx := h.view x <| hx.elim
    (fun hx => List.prefix_or_prefix_of_prefix hx (List.prefix_append _ _))
    fun hx => Or.inr ((List.prefix_append _ _).trans hx)

theorem concat (h : d.Alike d' base r names) (hn : Path.IsName n) :
    d.Alike d' base r (names ++ [n]) := h.append (by simpa using hn)

theorem locate (h : d.Alike d' base r (names ++ [n])) :
    d'.locate (base.within (names ++ [n])) = d.locate (base.within (names ++ [n])) := by
  refine locate_within_congr h.name (h.reach'.trans h.reach.symm) fun front m hm q hq => ?_
  have hp : front <+: names ++ [n] := (List.prefix_append _ _).trans hm
  obtain ⟨r', hbase, rfl⟩ := reach_within (fun m hm => h.name m (hp.subset hm)) hq
  rw [h.reach] at hbase
  cases hbase
  exact h.view front (Or.inl hp)

theorem view_of_locate (h : d.Alike d' base r (names ++ [n]))
    (hl : d.locate (base.within (names ++ [n])) = .ok place) (x : Place) :
    d'.view (place ++ x) = d.view (place ++ x) := by
  obtain ⟨-, -, rfl⟩ := (locate_within names h.reach h.name).mp hl
  rw [List.append_assoc]
  exact h.view _ (Or.inr (List.prefix_append _ _))

theorem isDirectory (h : d.Alike d' base r (names ++ [n])) :
    d'.isDirectory (base.within (names ++ [n])) = d.isDirectory (base.within (names ++ [n])) := by
  rw [Bool.eq_iff_iff, isDirectory_within _ h.reach' h.name, isDirectory_within _ h.reach h.name,
    h.view _ (Or.inl List.prefix_rfl)]

theorem readText (h : d.Alike d' base r (names ++ [n])) :
    d'.readText (base.within (names ++ [n])) = d.readText (base.within (names ++ [n])) :=
  readText_congr h.locate fun q hl => by simpa only [List.append_nil] using h.view_of_locate hl []

theorem lists_of_lists {m : Text} (h : d.Alike d' base r (names ++ [n]))
    (hm : d.Lists (base.within (names ++ [n])) m) : d'.Lists (base.within (names ++ [n])) m := by
  obtain ⟨place, hl, -⟩ := isDirectory_iff.mp (isDirectory_of_lists hm)
  rw [lists_iff hl] at hm
  rwa [lists_iff (h.locate.trans hl), h.view_of_locate hl]

/-- The pages below a directory are there on a disk that looks alike, and have the same texts. -/
theorem page {dir : Path} (h : d.Alike d' base r (names ++ [n])) (hd : d.Named)
    (hp : d.Page dir p) (hdir : dir = base.within (names ++ [n])) :
    d'.Page dir p ∧ d'.readText p = d.readText p := by
  induction hp generalizing names n with
  | here listed visible file markdown =>
    subst hdir
    have h' := h.concat (hd.isName_of_lists listed)
    have hfile := h'.isDirectory
    have hread := h'.readText
    rw [Path.within_concat] at hfile hread
    exact ⟨.here (h.lists_of_lists listed) visible (hfile.trans file) markdown, hread⟩
  | deeper listed visible page ih =>
    subst hdir
    have h' := h.concat (hd.isName_of_lists listed)
    have hlisted := h.lists_of_lists listed
    exact (ih h' (Path.within_concat _ _ _).symm).imp_left (.deeper hlisted visible)

end Alike

end Disk

end DesignRecords
