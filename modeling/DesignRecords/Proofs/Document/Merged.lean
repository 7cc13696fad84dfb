import DesignRecords.Proofs.Document.Stable
import DesignRecords.Proofs.Text.Run

namespace DesignRecords

namespace Text

variable {t : Text}

theorem words_flat (t : Text) : t.flat.words = t.words := by
  rw [words_eq_runs, flat, runs_trim fun _ h => h, runs_singleLine fun _ h => h, words_eq_runs]

theorem isBlank_singleLine (c : Char) :
    isBlank (if c = '\r' ∨ c = '\n' then ' ' else c) = isBlank c := by
  by_cases h : c = '\r' ∨ c = '\n'
  · rw [if_pos h]
    rcases h with rfl | rfl <;> rfl
  · rw [if_neg h]

theorem trimStart_singleLine (t : Text) : (singleLine t).trimStart = singleLine t.trimStart := by
  induction t with
  | nil => rfl
  | cons c t ih =>
    have hs : singleLine (c :: t) = (if c = '\r' ∨ c = '\n' then ' ' else c) :: singleLine t := by
      simp [singleLine]
    rw [hs]
    cases hb : isBlank c with
    | true =>
      rw [trimStart, trimStart, List.dropWhile_cons, List.dropWhile_cons, isBlank_singleLine, hb]
      exact ih
    | false =>
      rw [trimStart_cons_of_not hb, trimStart_cons_of_not (by rw [isBlank_singleLine, hb]), hs]

theorem flat_eq (t : Text) : t.flat = singleLine t.trim := by
  have hr : ∀ s : Text, (singleLine s).reverse = singleLine s.reverse := by
    intro s
    exact (List.map_reverse ..).symm
  have he : ∀ s : Text, (singleLine s).trimEnd = singleLine s.trimEnd := by
    intro s
    change (trimStart (singleLine s).reverse).reverse = singleLine (trimStart s.reverse).reverse
    rw [hr, trimStart_singleLine, hr]
  rw [flat, trim, trimStart_singleLine, he, trim]

/-- Whether a text says something and has no blanks around it. -/
def Neat (t : Text) : Prop := t ≠ [] ∧ t.trim = t

instance (t : Text) : Decidable t.Neat := inferInstanceAs (Decidable (_ ∧ _))

theorem Neat.solid (h : t.Neat) : t.blank = false := by
  rw [Bool.eq_false_iff]
  intro hb
  exact h.1 (h.2 ▸ trim_eq_nil.mpr hb)

theorem Neat.flat (h : t.Neat) : t.flat = singleLine t := by rw [flat_eq, h.2]

theorem length_trim_le (t : Text) : t.trim.length ≤ t.length := by
  obtain ⟨a, b, -, -, h⟩ := exists_margins t
  have hl := congrArg List.length h
  simp only [List.length_append] at hl
  omega

theorem trim_of_length (h : t.trim.length = t.length) : t.trim = t := by
  obtain ⟨a, b, -, -, ht⟩ := exists_margins t
  have hl := congrArg List.length ht
  simp only [List.length_append] at hl
  have ha : a = [] := List.length_eq_zero_iff.mp (by omega)
  have hb : b = [] := List.length_eq_zero_iff.mp (by omega)
  rw [ha, hb, List.nil_append, List.append_nil] at ht
  exact ht.symm

end Text

section

variable {α : Type} {words : α → List Text} {known : List (List Text)} {x : α} {xs : List α}

theorem newBy_eq_nil : newBy words known xs = [] ↔ ∀ x ∈ xs, words x ∈ known := by
  induction xs with
  | nil => simp [newBy]
  | cons x xs ih =>
    unfold newBy
    simp only
    split
    next h => simp [ih, List.contains_iff_mem.mp h]
    next h =>
      have hx : words x ∉ known := fun hm => h (List.contains_iff_mem.mpr hm)
      simp [hx]

/-- What is merged in is known from then on, by its words. -/
theorem words_mem_newBy (words : α → List Text) (known : List (List Text)) (h : x ∈ xs) :
    words x ∈ known ∨ ∃ y ∈ newBy words known xs, words y = words x := by
  induction xs generalizing known with
  | nil => cases h
  | cons z xs ih =>
    unfold newBy
    simp only
    split
    next hz =>
      rcases List.mem_cons.mp h with rfl | h
      · exact Or.inl (List.contains_iff_mem.mp hz)
      · exact ih known h
    next =>
      rcases List.mem_cons.mp h with rfl | h
      · exact Or.inr ⟨x, List.mem_cons_self, rfl⟩
      · rcases ih (words z :: known) h with hk | ⟨y, hy, he⟩
        · rcases List.mem_cons.mp hk with he | hk
          · exact Or.inr ⟨z, List.mem_cons_self, he.symm⟩
          · exact Or.inl hk
        · exact Or.inr ⟨y, List.mem_cons_of_mem z hy, he⟩

theorem words_mem_mergedBy (words : α → List Text) (old : List α) (h : x ∈ xs) :
    ∃ y ∈ mergedBy words old xs, words y = words x := by
  rcases words_mem_newBy words (old.map words) h with hk | ⟨y, hy, he⟩
  · obtain ⟨y, hy, he⟩ := List.mem_map.mp hk
    exact ⟨y, List.mem_append_left _ hy, he⟩
  · exact ⟨y, List.mem_append_right _ hy, he⟩

end

/-- Entries as they are once they have been written and read back; those that say nothing are
lost. -/
def settledBy {α : Type} (text : α → Text) (settle : α → α) (xs : List α) : List α :=
  (xs.map settle).filter (text · ≠ [])

theorem settledList_eq (items : List Text) :
    Text.settledList items = settledBy id Text.flat items := rfl

theorem settledTable_eq (ds : List Decision) :
    Decision.settledTable ds = settledBy (·.decision) Decision.settled ds := rfl

section

variable {α : Type} {text : α → Text} {settle : α → α}

/-- Once entries have been merged and written, merging them again finds all of them known but those
that say nothing. -/
theorem newBy_settledBy_eq_nil (old new : List α) (hs : ∀ x, text (settle x) = (text x).flat) :
    newBy (fun x => (text x).words) ((settledBy text settle
      (mergedBy (fun x => (text x).words) old new)).map fun x => (text x).words) new = [] ↔
      ∀ x ∈ new, (text x).blank = false := by
  rw [newBy_eq_nil]
  refine forall₂_congr fun x hx => ⟨fun h => ?_, fun h => ?_⟩
  · obtain ⟨y, hy, he⟩ := List.mem_map.mp h
    obtain ⟨hm, hn⟩ := List.mem_filter.mp hy
    obtain ⟨z, -, rfl⟩ := List.mem_map.mp hm
    have hz : (text z).blank = false := by
      rw [Bool.eq_false_iff]
      intro hb
      rw [hs, Text.flat_eq_nil.mpr hb] at hn
      simp at hn
    rw [Bool.eq_false_iff]
    intro hb
    rw [Text.words_eq_nil.mpr hb, hs, Text.words_flat, Text.words_eq_nil, hz] at he
    cases he
  · obtain ⟨y, hy, he⟩ := words_mem_mergedBy (fun x => (text x).words) old hx
    have hne : (text y).flat ≠ [] := by
      rw [Ne, Text.flat_eq_nil, ← Text.words_eq_nil, he, Text.words_eq_nil, h]
      simp
    refine List.mem_map.mpr ⟨settle y, List.mem_filter.mpr ⟨List.mem_map_of_mem hy, ?_⟩, ?_⟩
    · simpa [hs] using hne
    · simp only [hs, Text.words_flat, he]

end

end DesignRecords
