import DesignRecords.Proofs.Text.Line
import Mathlib.Data.List.Flatten

namespace DesignRecords.Text

variable {l s t : Text} {ls ps : List Text}

/-- The number of characters of a text that are not blank. -/
def ink (t : Text) : Nat := t.countP (!isBlank ·)

@[simp] theorem ink_nil : ink [] = 0 := rfl

@[simp] theorem ink_append : ink (s ++ t) = ink s + ink t := List.countP_append

@[simp] theorem ink_cons_feed : ink ('\n' :: t) = ink t := rfl

theorem ink_of_blank (h : t.blank = true) : ink t = 0 := by
  rw [ink, List.countP_eq_zero]
  intro c hc
  simp [blank_iff.mp h c hc]

theorem ink_trimEnd (t : Text) : ink t.trimEnd = ink t := by
  obtain ⟨s, hs, ht⟩ := exists_end_margin t
  conv_rhs => rw [ht, ink_append, ink_of_blank hs, Nat.add_zero]

theorem ink_trimStart (t : Text) : ink t.trimStart = ink t := by
  obtain ⟨s, hs, ht⟩ := exists_margin t
  conv_rhs => rw [ht, ink_append, ink_of_blank hs, Nat.zero_add]

@[simp] theorem ink_trim (t : Text) : ink t.trim = ink t := by
  rw [trim, ink_trimEnd, ink_trimStart]

theorem ink_dropReturn (l : Text) : ink (dropReturn l) = ink l := by
  rcases dropReturn_cases l with h | h
  · rw [h]
  · conv_rhs => rw [h, ink_append]
    rfl

/-- Line feeds count for nothing. -/
@[simp] theorem ink_ofLines (ls : List Text) : ink (ofLines ls) = ink ls.flatten := by
  induction ls with
  | nil => rfl
  | cons l ls ih =>
    by_cases hn : ls = []
    · simp [hn]
    · rw [ofLines_cons l hn, ink_append, ink_cons_feed, ih, List.flatten_cons, ink_append]

theorem ink_flatten_map_dropReturn (ls : List Text) :
    ink (ls.map dropReturn).flatten = ink ls.flatten := by
  induction ls with
  | nil => rfl
  | cons l ls ih => simp only [List.map_cons, List.flatten_cons, ink_append, ink_dropReturn, ih]

theorem ink_flatten_splitOn (t : Text) : ink (t.splitOn '\n').flatten = ink t := by
  rw [← ink_ofLines, ofLines_splitOn]

theorem ink_flatten_broken (t : Text) : ink (broken t).flatten = ink t := by
  rw [broken, ink_flatten_map_dropReturn, ink_flatten_splitOn]

theorem ink_flatten_linesOfPieces (ps : List Text) :
    ink (linesOfPieces ps).flatten = ink ps.flatten := by
  induction ps with
  | nil => rfl
  | cons p ps ih =>
    cases ps with
    | nil => by_cases hp : p = [] <;> simp [linesOfPieces, hp]
    | cons q ps =>
      have hl : linesOfPieces (p :: q :: ps) = dropReturn p :: linesOfPieces (q :: ps) := rfl
      have hp : ink (p :: q :: ps).flatten = ink p + ink (q :: ps).flatten := ink_append
      rw [hl, List.flatten_cons, ink_append, ink_dropReturn, ih, hp]

theorem ink_flatten_lines (t : Text) : ink t.lines.flatten = ink t := by
  rw [lines, ink_flatten_linesOfPieces, ink_flatten_splitOn]

theorem ink_flatten_le (h : ls.Sublist ps) : ink ls.flatten ≤ ink ps.flatten :=
  (List.Sublist.flatten h).countP_le

end DesignRecords.Text
