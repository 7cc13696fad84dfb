import DesignRecords.Disk.Tree
import DesignRecords.Proofs.Disk.Listing

namespace DesignRecords.Disk

variable {d d' : Disk} {p p' : Path} {place goal q q' r : Place} {n n' : Text} {e : Entry}
  {pieces : List Text}

/-- Whether a disk is what another one is with all that stood at a place, and below it, at another
place instead. -/
structure Shifted (d d' : Disk) (place goal : Place) : Prop where
  current : d'.current = d.current
  moved : ∀ x, d'.view (goal ++ x) = d.view (place ++ x)
  gone : ∀ x, d'.view (place ++ x) = none
  kept : ∀ x, ¬ place <+: x → ¬ goal <+: x → d'.view x = d.view x

/-- An entry that is moved is seen at its new place with all that is below it. -/
theorem shifted_shift (he : d.lookup? (q ++ [n]) = some e) (hq' : d.view q' = some none)
    (hpg : ¬ q ++ [n] <+: q' ++ [n']) (hgp : ¬ q' ++ [n'] <+: q ++ [n]) :
    Shifted d (d.shift (q ++ [n]) (q' ++ [n']) e) (q ++ [n]) (q' ++ [n']) := by
  have hv : d.view (q ++ [n]) ≠ none := by simp [view, he]
  have hq : d.view q = some none := view_of_append hv (by simp)
  have hq'' : (d.erase (q ++ [n])).view q' = some none := by
    rw [view_erase_elsewhere fun h => hpg (h.trans (List.prefix_append _ _)), hq']
  refine ⟨rfl, fun x => ?_, fun x => ?_, fun x hx hx' => ?_⟩
  · rw [shift, view_put_below hq'', view_below he]
  · rw [shift, view_put_elsewhere, view_erase_below hq]
    intro h
    rcases List.prefix_or_prefix_of_prefix h (List.prefix_append (q ++ [n]) x) with h | h
    · exact hgp h
    · exact hpg h
  · rw [shift, view_put_elsewhere hx', view_erase_elsewhere hx]

/-- A directory that is moved to where nothing stands goes there with all that is in it. -/
theorem shifted_of_move (h : d.move p p' = .ok d') (hp : d.locate p = .ok place)
    (hv : d.view place = some none) (hp' : d.locate p' = .ok goal) (hv' : d.view goal = none) :
    d.Shifted d' place goal := by
  obtain ⟨es, he⟩ := view_eq_directory.mp hv
  have hnone : d.lookup? goal = none := Option.map_eq_none_iff.mp hv'
  have hne : place ≠ goal := by
    rintro rfl
    rw [hv] at hv'
    cases hv'
  unfold move at h
  rw [find_eq_ok.mpr ⟨hp, he⟩, resolve_eq, hp'] at h
  simp only [bind, Except.bind, Except.map, hnone, if_neg hne] at h
  split at h
  · cases h
  next hpg =>
    have hpg : ¬ place <+: goal := fun hx => hpg (List.isPrefixOf_iff_prefix.mpr hx)
    cases h
    obtain ⟨q', n', rfl, hq'⟩ := exists_parent hp' (by rw [hv']; simp)
    obtain ⟨q, n, rfl⟩ : ∃ q n, place = q ++ [n] := by
      rcases List.eq_nil_or_concat place with rfl | ⟨q, n, rfl⟩
      · exact absurd List.nil_prefix hpg
      · exact ⟨q, n, List.concat_eq_append⟩
    refine shifted_shift he hq' hpg fun ⟨x, hx⟩ => ?_
    -- Something stands at the place, so it cannot lie below the goal, where nothing stands.
    have hx' : d.view (q ++ [n]) = none := by
      rw [← hx]
      cases x with
      | nil => rwa [List.append_nil]
      | cons m x => exact view_append (by rw [hv']; simp) (by simp)
    rw [hv] at hx'
    cases hx'

theorem Shifted.named (h : d.Shifted d' place (q ++ [n])) (hd : d.Named) (hn : Path.IsName n) :
    d'.Named := by
  intro x m hv
  by_cases hp : place <+: x ++ [m]
  · obtain ⟨y, hy⟩ := hp
    rw [← hy, h.gone] at hv
    exact absurd rfl hv
  by_cases hg : q ++ [n] <+: x ++ [m]
  · obtain ⟨y, hy⟩ := hg
    rcases List.eq_nil_or_concat y with rfl | ⟨y, m', rfl⟩
    · rw [List.append_nil] at hy
      rwa [← (List.cons.inj (List.append_inj' hy rfl).2).1]
    · rw [List.concat_eq_append, ← List.append_assoc] at hy
      obtain rfl := (List.cons.inj (List.append_inj' hy rfl).2).1
      rw [← hy, List.append_assoc, h.moved, ← List.append_assoc] at hv
      exact hd _ _ hv
  · rw [h.kept _ hp hg] at hv
    exact hd x m hv

theorem prefix_of_next (h : d.next q n = .ok r) (hn : n ≠ "..") : q <+: r := by
  unfold next at h
  rw [(next_eq_ok h).1] at h
  simp only [beq_eq_false_iff_ne.mpr hn, Bool.false_eq_true, if_false] at h
  split at h
  · cases h
    exact List.prefix_rfl
  · split at h
    · cases h
    · cases h
      exact List.prefix_append _ _

/-- A way without steps up that ends above what is moved, or beside it, stays as it is. -/
theorem Shifted.foldlM_next (h : d.Shifted d' place goal) (hgoal : d.view goal = none)
    (hup : (".." : Text) ∉ pieces) (hr : ¬ place <+: r) (hf : pieces.foldlM d.next q = .ok r) :
    q <+: r ∧ pieces.foldlM d'.next q = .ok r := by
  induction pieces generalizing q with
  | nil =>
    cases hf
    exact ⟨List.prefix_rfl, rfl⟩
  | cons n pieces ih =>
    rw [List.foldlM_cons] at hf ⊢
    cases hn : d.next q n with
    | error f =>
      rw [hn] at hf
      cases hf
    | ok q' =>
      rw [hn] at hf
      obtain ⟨hq', hf'⟩ := ih (fun hm => hup (List.mem_cons_of_mem _ hm)) hf
      have hq : q <+: r :=
        (prefix_of_next hn fun he => hup (he ▸ List.mem_cons_self)).trans hq'
      have hv : d'.view q = d.view q := by
        refine h.kept q (fun hp => hr (hp.trans hq)) ?_
        rintro ⟨x, rfl⟩
        have hdir := (next_eq_ok hn).1
        rw [view_of_append (q := x) (by rw [hdir]; simp) (by rintro rfl; simp [hgoal] at hdir)]
          at hgoal
        cases hgoal
      refine ⟨hq, ?_⟩
      rw [show d'.next q n = d.next q n by rw [next, next, hv], hn]
      exact hf'

theorem Shifted.reach (h : d.Shifted d' place goal) (hgoal : d.view goal = none)
    (hup : (".." : Text) ∉ p.inner) (hr : ¬ place <+: r) (hp : d.reach p = .ok r) :
    d'.reach p = .ok r := by
  have hs : d'.start p = d.start p := by simp [start, h.current]
  rw [Disk.reach, hs]
  exact (h.foldlM_next hgoal hup hr hp).2

end DesignRecords.Disk
