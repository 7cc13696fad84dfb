import DesignRecords.Text.Increasing
import Mathlib.Data.List.Basic
import Mathlib.Data.List.Destutter
import Mathlib.Data.List.Perm.Subperm

namespace DesignRecords

variable {α : Type} [Ord α] {x y : α} {xs ys : List α}

theorem mem_of_mem_insertIncreasing (h : y ∈ insertIncreasing x ys) : y = x ∨ y ∈ ys := by
  induction ys with
  | nil => simpa [insertIncreasing] using h
  | cons z ys ih =>
    unfold insertIncreasing at h
    split at h
    · simpa using h
    · exact Or.inr h
    · rcases List.mem_cons.mp h with rfl | h
      · simp
      · exact (ih h).imp_right (List.mem_cons_of_mem z)

theorem mem_insertIncreasing_of_mem (h : y ∈ ys) : y ∈ insertIncreasing x ys := by
  induction ys with
  | nil => cases h
  | cons z ys ih =>
    unfold insertIncreasing
    split
    · exact List.mem_cons_of_mem x h
    · exact h
    · rcases List.mem_cons.mp h with rfl | h
      · simp
      · exact List.mem_cons_of_mem z (ih h)

theorem mem_of_mem_increasing (h : y ∈ increasing xs) : y ∈ xs := by
  induction xs with
  | nil => cases h
  | cons x xs ih =>
    rcases mem_of_mem_insertIncreasing h with rfl | h
    · simp
    · exact List.mem_cons_of_mem x (ih h)

theorem exists_mem_insertIncreasing [Std.ReflOrd α] (x : α) (ys : List α) :
    ∃ y ∈ insertIncreasing x ys, compare x y = .eq := by
  induction ys with
  | nil => exact ⟨x, by simp [insertIncreasing], Std.ReflCmp.compare_self⟩
  | cons z ys ih =>
    unfold insertIncreasing
    split
    · exact ⟨x, by simp, Std.ReflCmp.compare_self⟩
    next h => exact ⟨z, by simp, h⟩
    · obtain ⟨y, hy, h⟩ := ih
      exact ⟨y, List.mem_cons_of_mem z hy, h⟩

/-- No member of a list is lost, but an equal one may stand for it. -/
theorem exists_mem_increasing [Std.ReflOrd α] (h : x ∈ xs) :
    ∃ y ∈ increasing xs, compare x y = .eq := by
  induction xs with
  | nil => cases h
  | cons z xs ih =>
    rcases List.mem_cons.mp h with rfl | h
    · exact exists_mem_insertIncreasing x (increasing xs)
    · obtain ⟨y, hy, he⟩ := ih h
      exact ⟨y, mem_insertIncreasing_of_mem hy, he⟩

@[simp]
theorem mem_increasing [Std.LawfulEqOrd α] : x ∈ increasing xs ↔ x ∈ xs := by
  refine ⟨mem_of_mem_increasing, fun h => ?_⟩
  obtain ⟨y, hy, he⟩ := exists_mem_increasing h
  rwa [Std.LawfulEqCmp.eq_of_compare he]

/-- Whether each member of a list is smaller than those after it. -/
def Ascending (xs : List α) : Prop := xs.Pairwise (compare · · = .lt)

theorem ascending_insertIncreasing [Std.TransOrd α] (h : Ascending ys) (x : α) :
    Ascending (insertIncreasing x ys) := by
  induction ys with
  | nil => exact List.pairwise_singleton _ x
  | cons z ys ih =>
    obtain ⟨hz, hys⟩ := List.pairwise_cons.mp h
    unfold insertIncreasing
    split
    next hx =>
      refine List.pairwise_cons.mpr ⟨fun y hy => ?_, h⟩
      rcases List.mem_cons.mp hy with rfl | hy
      · exact hx
      · exact Std.TransCmp.lt_trans hx (hz y hy)
    · exact h
    next hx =>
      refine List.pairwise_cons.mpr ⟨fun y hy => ?_, ih hys⟩
      rcases mem_of_mem_insertIncreasing hy with rfl | hy
      · exact Std.OrientedCmp.gt_iff_lt.mp hx
      · exact hz y hy

theorem ascending_increasing [Std.TransOrd α] (xs : List α) : Ascending (increasing xs) := by
  induction xs with
  | nil => exact List.Pairwise.nil
  | cons x xs ih => exact ascending_insertIncreasing ih x

theorem Ascending.filter (h : Ascending xs) (p : α → Bool) : Ascending (xs.filter p) :=
  List.Pairwise.filter p h

/-- Two increasing lists with the same members are the same. -/
theorem Ascending.eq_of_mem_iff [Std.TransOrd α] (hx : Ascending xs) (hy : Ascending ys)
    (h : ∀ a, a ∈ xs ↔ a ∈ ys) : xs = ys := by
  induction xs generalizing ys with
  | nil =>
    cases ys with
    | nil => rfl
    | cons y ys => exact absurd ((h y).mpr (by simp)) (by simp)
  | cons x xs ih =>
    cases ys with
    | nil => exact absurd ((h x).mp (by simp)) (by simp)
    | cons y ys =>
      obtain ⟨hx', hxs⟩ := List.pairwise_cons.mp hx
      obtain ⟨hy', hys⟩ := List.pairwise_cons.mp hy
      have irrefl : ∀ a : α, compare a a ≠ .lt := by simp [Std.ReflCmp.compare_self]
      have head : x = y := by
        by_contra hne
        have hxy : x ∈ ys := ((List.mem_cons.mp ((h x).mp (by simp))).resolve_left hne)
        have hyx : y ∈ xs := ((List.mem_cons.mp ((h y).mpr (by simp))).resolve_left (Ne.symm hne))
        exact irrefl x (Std.TransCmp.lt_trans (hx' y hyx) (hy' x hxy))
      subst head
      refine congrArg (x :: ·) (ih hxs hys fun a => ⟨fun ha => ?_, fun ha => ?_⟩)
      · rcases List.mem_cons.mp ((h a).mp (List.mem_cons_of_mem x ha)) with rfl | h
        · exact absurd (hx' a ha) (irrefl a)
        · exact h
      · rcases List.mem_cons.mp ((h a).mpr (List.mem_cons_of_mem x ha)) with rfl | h
        · exact absurd (hy' a ha) (irrefl a)
        · exact h

theorem Ascending.nodup [Std.ReflOrd α] (h : Ascending xs) : xs.Nodup := by
  refine h.imp fun {x y} hlt he => ?_
  rw [he, Std.ReflOrd.compare_self] at hlt
  cases hlt

theorem Ascending.length_le [Std.ReflOrd α] (h : Ascending xs) (hs : xs ⊆ ys) :
    xs.length ≤ ys.length := (List.Nodup.subperm h.nodup hs).length_le

/-- Whether the order tells any two members of a list apart. -/
def Separated (xs : List α) : Prop := ∀ x ∈ xs, ∀ y ∈ xs, compare x y = .eq → x = y

theorem Separated.mem_increasing [Std.ReflOrd α] (h : Separated xs) :
    x ∈ increasing xs ↔ x ∈ xs := by
  refine ⟨mem_of_mem_increasing, fun hx => ?_⟩
  obtain ⟨y, hy, he⟩ := exists_mem_increasing hx
  rwa [h x hx y (mem_of_mem_increasing hy) he]

/-- What a list comes to in increasing order depends on its members alone. -/
theorem Separated.increasing_eq [Std.TransOrd α] (h : Separated xs) (hy : Ascending ys)
    (hm : ∀ a, a ∈ ys ↔ a ∈ xs) : increasing xs = ys :=
  (ascending_increasing xs).eq_of_mem_iff hy fun a => h.mem_increasing.trans (hm a).symm

/-- The members of a list in order; of equal neighbours only one is left. -/
def sortedOnce [DecidableEq α] (xs : List α) : List α :=
  (xs.mergeSort fun x y => (compare x y).isLE).destutter (· ≠ ·)

/-- Where the order tells members apart, no repetition is left when neighbours are compared. -/
theorem Separated.increasing_eq_sortedOnce [Std.TransOrd α] [DecidableEq α] (h : Separated xs) :
    increasing xs = sortedOnce xs := by
  -- A list in this relation repeats a member only at once after it.
  let r : α → α → Prop := fun x y => (compare x y).isLE = true ∧ (compare x y = .eq → x = y)
  have hanti : Std.Antisymm r :=
    ⟨fun x y hxy hyx => hxy.2 (Std.OrientedCmp.isLE_antisymm hxy.1 hyx.1)⟩
  have hsorted : (xs.mergeSort fun x y => (compare x y).isLE).Pairwise r := by
    refine (List.pairwise_mergeSort (fun _ _ _ => Std.TransCmp.isLE_trans) ?_ xs).imp_of_mem ?_
    · intro x y
      rw [Std.OrientedOrd.eq_swap (a := y)]
      cases compare x y <;> rfl
    · intro x y hx hy hle
      exact ⟨hle, h x (List.mem_mergeSort.mp hx) y (List.mem_mergeSort.mp hy)⟩
  rw [sortedOnce, hsorted.destutter_eq_dedup]
  refine h.increasing_eq ?_ fun a => by rw [List.mem_dedup, List.mem_mergeSort]
  have hstrict := (hsorted.sublist (List.dedup_sublist _)).and (List.nodup_dedup _)
  refine hstrict.imp fun {x y} ⟨⟨hle, heq⟩, hne⟩ => ?_
  cases hc : compare x y with
  | lt => rfl
  | eq => exact absurd (heq hc) hne
  | gt =>
    rw [hc] at hle
    cases hle

end DesignRecords
