import DesignRecords.Document.Diagram
import Mathlib.Data.List.Induction
import Mathlib.Data.Nat.Init

namespace DesignRecords

variable {α β : Type} {key : α → β} {xs ys : List α} {x y : α} {i : Nat}

/-- Whether the item at a place is the first of the list with its key. -/
def FirstAt (key : α → β) (xs : List α) (i : Nat) : Prop :=
  ∃ x, xs[i]? = some x ∧ key x ∉ (xs.take i).map key

theorem FirstAt.lt_length (h : FirstAt key xs i) : i < xs.length := by
  obtain ⟨x, hx, _⟩ := h
  exact (List.getElem?_eq_some_iff.mp hx).1

/-- An item put at the end changes no place before it. -/
theorem firstAt_concat :
    FirstAt key (xs ++ [x]) i ↔ FirstAt key xs i ∨ i = xs.length ∧ key x ∉ xs.map key := by
  rcases Nat.lt_trichotomy i xs.length with hlt | rfl | hgt
  · have hne : i ≠ xs.length := Nat.ne_of_lt hlt
    simp [FirstAt, List.getElem?_append_left hlt, List.take_append_of_le_length (Nat.le_of_lt hlt),
      hne]
  · simp [FirstAt]
  · have hn : ¬ FirstAt key xs i := fun h => Nat.lt_asymm hgt h.lt_length
    have hout : ¬ FirstAt key (xs ++ [x]) i := fun h => by
      have hlt := h.lt_length
      rw [List.length_append, List.length_singleton] at hlt
      omega
    exact iff_of_false hout fun h => h.elim hn fun he => Nat.ne_of_gt hgt he.1

/-- The second list has the items of the first whose key no item before them has, each once and in
the order of their places. -/
def FirstsBy (key : α → β) (xs ys : List α) : Prop :=
  ∃ places : List Nat, places.Pairwise (· < ·) ∧ (∀ i, i ∈ places ↔ FirstAt key xs i) ∧
    places.map (xs[·]?) = ys.map some

namespace FirstsBy

variable (h : FirstsBy key xs ys)

include h

theorem mem (hy : y ∈ ys) : y ∈ xs := by
  obtain ⟨places, _, _, he⟩ := h
  have hm : some y ∈ places.map (xs[·]?) := he ▸ List.mem_map_of_mem hy
  obtain ⟨i, _, hi⟩ := List.mem_map.mp hm
  exact List.mem_of_getElem? hi

theorem nodup : (ys.map key).Nodup := by
  obtain ⟨places, hs, hm, he⟩ := h
  have hp : places.Pairwise fun i j =>
      ∀ x y, xs[i]? = some x → xs[j]? = some y → key x ≠ key y := by
    refine hs.imp_of_mem fun {i j} _ hj hlt x y hx hy hk => ?_
    obtain ⟨y', hy', hfirst⟩ := (hm j).mp hj
    cases Option.some.inj (hy.symm.trans hy')
    have hxt : x ∈ xs.take j := List.mem_of_getElem? (by rw [List.getElem?_take_of_lt hlt, hx])
    exact hfirst (hk ▸ List.mem_map_of_mem hxt)
  have hq : (ys.map some).Pairwise fun o o' =>
      ∀ x y, o = some x → o' = some y → key x ≠ key y := by
    rw [← he, List.pairwise_map]
    exact hp
  rw [List.pairwise_map] at hq
  exact List.pairwise_map.mpr (hq.imp fun hxy => hxy _ _ rfl rfl)

/-- The induction is on the place of `x`: an item in front of it with its key leads to a smaller
place. -/
theorem exists_key_eq (hx : x ∈ xs) : ∃ y ∈ ys, key y = key x := by
  obtain ⟨places, _, hm, he⟩ := h
  obtain ⟨i, hi⟩ := List.mem_iff_getElem?.mp hx
  induction i using Nat.strong_induction_on generalizing x with
  | _ i ih =>
    by_cases hk : key x ∈ (xs.take i).map key
    · obtain ⟨x', hx', hkey⟩ := List.mem_map.mp hk
      obtain ⟨j, hj⟩ := List.mem_iff_getElem?.mp hx'
      have hji : j < i := by
        have := (List.getElem?_eq_some_iff.mp hj).1
        rw [List.length_take] at this
        omega
      rw [List.getElem?_take_of_lt hji] at hj
      obtain ⟨y, hy, hyx⟩ := ih j hji (List.mem_of_getElem? hj) hj
      exact ⟨y, hy, hyx.trans hkey⟩
    · have hplace : i ∈ places := (hm i).mpr ⟨x, hi, hk⟩
      have hy : some x ∈ ys.map some := by
        rw [← he, ← hi]
        exact List.mem_map_of_mem hplace
      exact ⟨x, by simpa using hy, rfl⟩

end FirstsBy

variable [DecidableEq β]

/-- What one more item adds: nothing where its key has been seen, and itself otherwise. -/
theorem distinctBy_concat (key : α → β) (xs : List α) (x : α) :
    distinctBy key (xs ++ [x]) =
      distinctBy key xs ++ if key x ∈ xs.map key then [] else [x] := by
  induction xs with
  | nil => rfl
  | cons a xs ih =>
    rw [List.cons_append, distinctBy, ih, List.filter_append, distinctBy, List.cons_append]
    congr 2
    by_cases hm : key x ∈ xs.map key
    · have hm' : key x ∈ (a :: xs).map key := List.mem_cons_of_mem _ hm
      rw [if_pos hm, if_pos hm', List.filter_nil]
    · by_cases ha : key x = key a
      · simp [ha]
      · simp [hm, ha]

theorem firstsBy_distinctBy (key : α → β) (xs : List α) : FirstsBy key xs (distinctBy key xs) := by
  induction xs using List.reverseRecOn with
  | nil => exact ⟨[], .nil, by simp [FirstAt], rfl⟩
  | append_singleton xs x ih =>
    obtain ⟨places, hs, hm, he⟩ := ih
    have hlt : ∀ i ∈ places, i < xs.length := fun i hi => ((hm i).mp hi).lt_length
    have hkeep : places.map ((xs ++ [x])[·]?) = (distinctBy key xs).map some := by
      rw [← he]
      exact List.map_congr_left fun i hi => List.getElem?_append_left (hlt i hi)
    rw [distinctBy_concat]
    by_cases hx : key x ∈ xs.map key
    · refine ⟨places, hs, fun i => ?_, ?_⟩
      · rw [firstAt_concat, hm]
        exact ⟨Or.inl, fun h => h.resolve_right fun hr => hr.2 hx⟩
      · rw [if_pos hx, List.append_nil, hkeep]
    · refine ⟨places ++ [xs.length], ?_, fun i => ?_, ?_⟩
      · refine List.pairwise_append.mpr ⟨hs, List.pairwise_singleton _ _, fun i hi j hj => ?_⟩
        rw [List.mem_singleton.mp hj]
        exact hlt i hi
      · rw [firstAt_concat, List.mem_append, hm, List.mem_singleton]
        exact or_congr_right (and_iff_left hx).symm
      · rw [if_neg hx, List.map_append, List.map_append, hkeep]
        simp

end DesignRecords
