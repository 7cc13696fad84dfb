import DesignRecords.Text.Blank
import DesignRecords.Text.Line
import Mathlib.Data.List.DropRight

namespace DesignRecords.Text

variable {s t : Text} {c : Char}

/-- What is said of all characters of a text is checked for one after the other. -/
instance (priority := high) decidableForallMem {p : Char → Prop} [DecidablePred p] (t : Text) :
    Decidable (∀ c ∈ t, p c) := List.decidableBAll p t

theorem blank_iff : t.blank = true ↔ ∀ c ∈ t, isBlank c = true := List.all_eq_true

@[simp] theorem blank_nil : blank [] = true := rfl

@[simp] theorem blank_cons : blank (c :: t) = (isBlank c && t.blank) := rfl

@[simp] theorem blank_append : blank (s ++ t) = (s.blank && t.blank) := List.all_append

@[simp] theorem trimStart_nil : trimStart [] = [] := rfl

@[simp] theorem trimEnd_nil : trimEnd [] = [] := rfl

theorem trimStart_cons_of_not (h : isBlank c = false) : trimStart (c :: t) = c :: t := by
  simp [trimStart, h]

theorem trim_of_forall (h : ∀ c ∈ t, isBlank c = false) : t.trim = t := by
  have he : ∀ s : Text, (∀ c ∈ s, isBlank c = false) → s.trimStart = s := by
    intro s hs
    cases s with
    | nil => rfl
    | cons c s => exact trimStart_cons_of_not (hs c (by simp))
  have hr : trimStart t.reverse = t.reverse := he _ (by simpa using h)
  rw [trim, he t h]
  simpa [trimEnd, trimStart] using congrArg List.reverse hr

theorem trimStart_append_of_blank (h : s.blank = true) : trimStart (s ++ t) = t.trimStart :=
  List.dropWhile_append_of_pos (blank_iff.mp h)

theorem trimStart_append_of_not (h : s.blank = false) :
    trimStart (s ++ t) = s.trimStart ++ t := by
  induction s with
  | nil => simp at h
  | cons c s ih =>
    cases hc : isBlank c with
    | false => simp [trimStart, hc]
    | true =>
      have hs : blank s = false := by simpa [hc] using h
      simpa [trimStart, hc] using ih hs

theorem trimEnd_append_of_blank (h : t.blank = true) : trimEnd (s ++ t) = s.trimEnd := by
  have hr : blank t.reverse = true := by simpa [blank] using h
  simpa [trimEnd, trimStart] using
    congrArg List.reverse (trimStart_append_of_blank (t := s.reverse) hr)

theorem trimEnd_append_of_not (h : t.blank = false) : trimEnd (s ++ t) = s ++ t.trimEnd := by
  have hr : blank t.reverse = false := by simpa [blank] using h
  simpa [trimEnd, trimStart] using
    congrArg List.reverse (trimStart_append_of_not (t := s.reverse) hr)

theorem trimStart_eq_nil : t.trimStart = [] ↔ t.blank = true := by
  simp [trimStart, blank]

theorem trimEnd_eq_nil : t.trimEnd = [] ↔ t.blank = true := by
  simp [trimEnd, blank]

theorem blank_trimStart : t.trimStart.blank = t.blank := by
  induction t with
  | nil => rfl
  | cons c t ih => cases hc : isBlank c <;> simp_all [trimStart]

/-- A text is a blank margin followed by what is left without it. -/
theorem exists_margin (t : Text) : ∃ s, s.blank = true ∧ t = s ++ t.trimStart := by
  refine ⟨t.takeWhile isBlank, ?_, (List.takeWhile_append_dropWhile).symm⟩
  exact blank_iff.mpr fun c hc => List.mem_takeWhile_imp hc

theorem exists_end_margin (t : Text) : ∃ s, s.blank = true ∧ t = t.trimEnd ++ s := by
  obtain ⟨s, hs, ht⟩ := exists_margin t.reverse
  refine ⟨s.reverse, by simpa [blank] using hs, ?_⟩
  simpa [trimEnd, trimStart] using congrArg List.reverse ht

theorem mem_of_mem_trimEnd (h : c ∈ t.trimEnd) : c ∈ t := by
  obtain ⟨s, -, ht⟩ := exists_end_margin t
  rw [ht]
  exact List.mem_append_left _ h

theorem trimEnd_cons_of_not (h : isBlank c = false) (t : Text) :
    ∃ s, trimEnd (c :: t) = c :: s := by
  cases hb : t.blank with
  | true => exact ⟨[], by simpa [trimEnd, h] using trimEnd_append_of_blank (s := [c]) hb⟩
  | false => exact ⟨t.trimEnd, trimEnd_append_of_not (s := [c]) hb⟩

theorem blank_trimEnd : t.trimEnd.blank = t.blank := by
  obtain ⟨s, hs, ht⟩ := exists_end_margin t
  conv_rhs => rw [ht]
  simp [hs]

theorem trimStart_trimStart : t.trimStart.trimStart = t.trimStart := by
  simp only [trimStart]
  exact List.dropWhile_idempotent ..

theorem trimEnd_trimEnd : t.trimEnd.trimEnd = t.trimEnd := List.rdropWhile_idempotent ..

theorem trimStart_trimEnd (t : Text) : t.trimEnd.trimStart = t.trimStart.trimEnd := by
  obtain ⟨s, hs, ht⟩ := exists_margin t
  cases hb : t.trimStart.blank with
  | true =>
    have h0 : t.blank = true := by rw [← blank_trimStart]; exact hb
    rw [trimEnd_eq_nil.mpr h0, trimEnd_eq_nil.mpr hb, trimStart_nil]
  | false =>
    have h1 : t.trimEnd = s ++ t.trimStart.trimEnd := by
      conv_lhs => rw [ht]
      exact trimEnd_append_of_not hb
    rw [h1, trimStart_append_of_blank hs]
    have h2 : t.trimStart.trimStart = t.trimStart := trimStart_trimStart
    obtain ⟨e, he, ht'⟩ := exists_end_margin t.trimStart
    have h3 : t.trimStart.trimEnd.blank = false := by rw [blank_trimEnd]; exact hb
    rw [ht', trimStart_append_of_not h3] at h2
    exact List.append_cancel_right h2

theorem trim_eq (t : Text) : t.trim = t.trimEnd.trimStart := (trimStart_trimEnd t).symm

@[simp] theorem trim_nil : trim [] = [] := rfl

theorem trim_eq_nil : t.trim = [] ↔ t.blank = true := by
  rw [trim, trimEnd_eq_nil, blank_trimStart]

theorem blank_trim : t.trim.blank = t.blank := by rw [trim, blank_trimEnd, blank_trimStart]

theorem trim_append_of_blank (h : s.blank = true) : trim (s ++ t) = t.trim := by
  rw [trim, trimStart_append_of_blank h, trim]

theorem trim_append_of_blank_right (h : t.blank = true) : trim (s ++ t) = s.trim := by
  rw [trim_eq, trimEnd_append_of_blank h, trim_eq]

theorem trimStart_trim : t.trim.trimStart = t.trim := by
  rw [trim_eq, trimStart_trimStart]

theorem trimEnd_trim : t.trim.trimEnd = t.trim := trimEnd_trimEnd

theorem trim_trim : t.trim.trim = t.trim := by
  rw [trim, trimStart_trim, trimEnd_trim]

theorem trim_trimEnd : t.trimEnd.trim = t.trim := by rw [trim_eq, trimEnd_trimEnd, trim_eq]

theorem trim_cons_of_not (h : isBlank c = false) (t : Text) : ∃ s, trim (c :: t) = c :: s := by
  rw [trim, trimStart_cons_of_not h]
  exact trimEnd_cons_of_not h t

theorem trim_cons_concat {e : Char} (hc : isBlank c = false) (he : isBlank e = false) (s : Text) :
    trim (c :: (s ++ [e])) = c :: (s ++ [e]) := by
  have hb : blank [e] = false := by simp [he]
  rw [trim, trimStart_cons_of_not hc, ← List.cons_append, trimEnd_append_of_not hb]
  simp [trimEnd, he]

/-- A label with no blanks around it stays as it is before what follows it. -/
theorem trim_label {k : Text} (hb : k.blank = false) (hk : k.trim = k) (t : Text) :
    trim (k ++ ' ' :: t) = k ++ trimEnd (' ' :: t) := by
  have hs : k.trimStart = k := by rw [← hk, trimStart_trim]
  have he : k.trimEnd = k := by rw [← hk, trimEnd_trim]
  rw [trim, trimStart_append_of_not hb, hs]
  cases ht : blank (' ' :: t) with
  | true => rw [trimEnd_append_of_blank ht, trimEnd_eq_nil.mpr ht, he, List.append_nil]
  | false => rw [trimEnd_append_of_not ht]

theorem trim_trimEnd_cons (t : Text) : trim (trimEnd (' ' :: t)) = t.trim := by
  rw [trim_trimEnd]
  exact trim_append_of_blank (s := [' ']) rfl

/-- A text is its trimmed form between two blank margins. -/
theorem exists_margins (t : Text) :
    ∃ a b, a.blank = true ∧ b.blank = true ∧ t = a ++ t.trim ++ b := by
  obtain ⟨a, ha, hs⟩ := exists_margin t
  obtain ⟨b, hb, he⟩ := exists_end_margin t.trimStart
  exact ⟨a, b, ha, hb, by rw [List.append_assoc, trim, ← he]; exact hs⟩

theorem trim_mono {p : Char → Prop} (h : ∀ c ∈ t, p c) : ∀ c ∈ t.trim, p c := by
  obtain ⟨a, b, -, -, ht⟩ := exists_margins t
  intro c hc
  apply h
  rw [ht]
  simp [hc]

theorem mem_of_mem_trim (h : c ∈ t.trim) : c ∈ t := trim_mono (p := (· ∈ t)) (fun _ hc => hc) c h

end DesignRecords.Text
