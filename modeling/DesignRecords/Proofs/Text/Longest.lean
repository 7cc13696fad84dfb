import DesignRecords.Proofs.Text.Run
import Mathlib.Data.List.Sort

namespace DesignRecords.Text

variable {p : Char → Bool} {g r s t : Text} {rs : List Text} {i j k m : Nat}

/-- Whether the character at a place is there and no separator. -/
def Inside (p : Char → Bool) (t : Text) (k : Nat) : Prop := ∃ c, t[k]? = some c ∧ p c = false

/-- Whether the places from `i` on and before `j` are inside, and those next to them are not. -/
structure LongestAt (p : Char → Bool) (t : Text) (i j : Nat) : Prop where
  lt : i < j
  inside : ∀ k, i ≤ k → k < j → Inside p t k
  start : ∀ k, k + 1 = i → ¬ Inside p t k
  stop : ¬ Inside p t j

/-- The list has the longest pieces of a text without separators, each at its place in order. -/
def HasRuns (p : Char → Bool) (t : Text) (rs : List Text) : Prop :=
  ∃ places : List (Nat × Nat), places.Pairwise (·.1 < ·.1) ∧
    (∀ a, a ∈ places ↔ LongestAt p t a.1 a.2) ∧
    rs = places.map fun a => (t.take a.2).drop a.1

theorem not_inside_of_forall (h : ∀ c ∈ t, p c = true) (k : Nat) : ¬ Inside p t k := by
  rintro ⟨c, hc, hp⟩
  rw [h c (List.mem_of_getElem? hc)] at hp
  cases hp

theorem not_inside_zero (h : ∀ c ∈ s.head?, p c = true) : ¬ Inside p s 0 := by
  rintro ⟨c, hc, hp⟩
  rw [h c (List.head?_eq_getElem? ▸ hc)] at hp
  cases hp

theorem inside_append_left (h : k < s.length) : Inside p (s ++ t) k ↔ Inside p s k := by
  rw [Inside, List.getElem?_append_left h, Inside]

theorem inside_append_right : Inside p (s ++ t) (s.length + k) ↔ Inside p t k := by
  rw [Inside, List.getElem?_append_right (Nat.le_add_right _ _), Nat.add_sub_cancel_left, Inside]

theorem le_of_inside (hg : ∀ c ∈ g, p c = true) (h : Inside p (g ++ t) k) : g.length ≤ k := by
  by_contra hk
  exact not_inside_of_forall hg k ((inside_append_left (Nat.lt_of_not_le hk)).mp h)

theorem inside_run (hr : ∀ c ∈ r, p c = false) (hk : g.length ≤ k)
    (hk' : k < g.length + r.length) : Inside p (g ++ (r ++ s)) k := by
  obtain ⟨m, rfl⟩ := Nat.exists_eq_add_of_le hk
  have hm : m < r.length := Nat.lt_of_add_lt_add_left hk'
  rw [inside_append_right, inside_append_left hm]
  exact ⟨r[m], List.getElem?_eq_getElem hm, hr _ (List.getElem_mem hm)⟩

theorem inside_behind_run :
    Inside p (g ++ (r ++ s)) (g.length + r.length + m) ↔ Inside p s m := by
  rw [Nat.add_assoc, inside_append_right, inside_append_right]

section

variable (hg : ∀ c ∈ g, p c = true) (hn : r ≠ []) (hr : ∀ c ∈ r, p c = false)
  (hs : ∀ c ∈ s.head?, p c = true)

include hs

theorem LongestAt.behind_run (h : LongestAt p s i j) :
    LongestAt p (g ++ (r ++ s)) (g.length + r.length + i) (g.length + r.length + j) where
  lt := Nat.add_lt_add_left h.lt _
  inside k hk hk' := by
    obtain ⟨m, rfl⟩ := Nat.exists_eq_add_of_le (Nat.le_trans (Nat.le_add_right _ i) hk)
    exact inside_behind_run.mpr (h.inside m (by omega) (by omega))
  start k hk hin := by
    cases i with
    | zero => exact not_inside_zero hs (h.inside 0 (Nat.le_refl 0) h.lt)
    | succ i =>
      have he : k = g.length + r.length + i := by omega
      exact h.start i rfl (inside_behind_run.mp (he ▸ hin))
  stop hin := h.stop (inside_behind_run.mp hin)

include hg hn hr

theorem longestAt_first_run :
    LongestAt p (g ++ (r ++ s)) g.length (g.length + r.length) where
  lt := Nat.lt_add_of_pos_right (List.length_pos_iff.mpr hn)
  inside _ hk hk' := inside_run hr hk hk'
  start k hk hin := by
    have hle := le_of_inside hg hin
    omega
  stop hin := not_inside_zero hs (inside_behind_run.mp hin)

/-- A longest piece is the first run, or a longest piece of the text behind that run. -/
theorem longestAt_append_run : LongestAt p (g ++ (r ++ s)) i j ↔
    (i = g.length ∧ j = g.length + r.length) ∨
      ∃ i' j', i = g.length + r.length + i' ∧ j = g.length + r.length + j' ∧
        LongestAt p s i' j' := by
  constructor
  · intro h
    by_cases hi : i < g.length + r.length
    · have hle : g.length ≤ i := le_of_inside hg (h.inside i (Nat.le_refl i) h.lt)
      have heq : i = g.length := by
        by_contra hne
        exact h.start (i - 1) (by omega) (inside_run hr (by omega) (by omega))
      refine Or.inl ⟨heq, ?_⟩
      rcases Nat.lt_trichotomy j (g.length + r.length) with hj | hj | hj
      · exact absurd (inside_run hr (Nat.le_trans hle (Nat.le_of_lt h.lt)) hj) h.stop
      · exact hj
      · have hin := h.inside _ (Nat.le_of_lt hi) hj
        exact absurd (inside_behind_run.mp hin) (not_inside_zero hs)
    · have hle : g.length + r.length ≤ i := Nat.le_of_not_lt hi
      obtain ⟨i, rfl⟩ := Nat.exists_eq_add_of_le hle
      obtain ⟨j, rfl⟩ := Nat.exists_eq_add_of_le (Nat.le_trans hle (Nat.le_of_lt h.lt))
      refine Or.inr ⟨i, j, rfl, rfl, Nat.lt_of_add_lt_add_left h.lt, fun k hk hk' => ?_,
        fun k hk hin => ?_, fun hin => h.stop (inside_behind_run.mpr hin)⟩
      · exact inside_behind_run.mp (h.inside _ (by omega) (by omega))
      · exact h.start _ (by omega) (inside_behind_run.mpr hin)
  · rintro (⟨rfl, rfl⟩ | ⟨i, j, rfl, rfl, h⟩)
    · exact longestAt_first_run hg hn hr hs
    · exact h.behind_run hs

theorem HasRuns.append_run (h : HasRuns p s rs) : HasRuns p (g ++ (r ++ s)) (r :: rs) := by
  obtain ⟨places, hp, hm, rfl⟩ := h
  refine ⟨(g.length, g.length + r.length) :: places.map fun a =>
    (g.length + r.length + a.1, g.length + r.length + a.2), ?_, fun a => ?_, ?_⟩
  · refine List.pairwise_cons.mpr ⟨fun a ha => ?_, List.pairwise_map.mpr ?_⟩
    · obtain ⟨b, _, rfl⟩ := List.mem_map.mp ha
      have hlen : 0 < r.length := List.length_pos_iff.mpr hn
      change g.length < g.length + r.length + b.1
      omega
    · exact hp.imp fun hlt => Nat.add_lt_add_left hlt _
  · rw [longestAt_append_run hg hn hr hs, List.mem_cons, List.mem_map, Prod.ext_iff]
    refine or_congr_right ⟨?_, ?_⟩
    · rintro ⟨b, hb, rfl⟩
      exact ⟨b.1, b.2, rfl, rfl, (hm b).mp hb⟩
    · rintro ⟨i, j, hi, hj, h⟩
      exact ⟨(i, j), (hm (i, j)).mpr h, Prod.ext hi.symm hj.symm⟩
  · rw [List.map_cons, List.map_map, ← List.append_assoc, ← List.length_append]
    congr 1
    · rw [List.take_left, List.drop_left]
    · refine List.map_congr_left fun a _ => ?_
      simp only [Function.comp_apply, List.take_length_add_append, List.drop_length_add_append]

end

theorem hasRuns_runs (p : Char → Bool) (t : Text) : HasRuns p t (runs p t) := by
  induction t using run_induction p with
  | gap t ht =>
    rw [runs_eq_nil.mpr ht]
    refine ⟨[], .nil, fun a => iff_of_false (List.not_mem_nil) fun h => ?_, rfl⟩
    exact not_inside_of_forall ht a.1 (h.inside a.1 (Nat.le_refl _) h.lt)
  | run g r s hg hn hr hs ih =>
    rw [runs_append_run hg hn hr hs]
    exact ih.append_run hg hn hr hs

theorem hasRuns_iff : HasRuns p t rs ↔ rs = runs p t := by
  constructor
  · rintro ⟨places, hp, hm, rfl⟩
    obtain ⟨places', hp', hm', he⟩ := hasRuns_runs p t
    have hirrefl : Std.Irrefl fun a b : Nat × Nat => a.1 < b.1 := ⟨fun a => Nat.lt_irrefl a.1⟩
    have hanti : Std.Antisymm fun a b : Nat × Nat => a.1 < b.1 :=
      ⟨fun a b hab hba => absurd hba (Nat.lt_asymm hab)⟩
    rw [he, hp.eq_of_mem_iff hp' fun a => (hm a).trans (hm' a).symm]
  · rintro rfl
    exact hasRuns_runs p t

end DesignRecords.Text
