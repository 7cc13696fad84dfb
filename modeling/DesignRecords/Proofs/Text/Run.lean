import DesignRecords.Conflict.Term
import DesignRecords.Proofs.Text.Content

namespace DesignRecords.Text

variable {p : Char → Bool} {c : Char} {g r s t w : Text} {rs : List Text}

/-- The longest pieces of a text without the characters that `p` holds of, in order. -/
def runs (p : Char → Bool) (t : Text) : List Text := (t.splitOnP p).filter (· ≠ [])

theorem words_eq_runs (t : Text) : t.words = runs isBlank t := rfl

theorem tokens_eq_runs (t : Text) : t.tokens = (runs (!isAlphanumeric ·) t).map lowercase := rfl

theorem mem_of_mem_runs (hw : w ∈ runs p t) (hc : c ∈ w) : c ∈ t ∧ p c = false :=
  mem_of_mem_splitOnP (List.mem_filter.mp hw).1 hc

theorem first_break_cases (p : Char → Bool) (t : Text) : (∀ c ∈ t, p c = false) ∨
    ∃ l c s, (∀ x ∈ l, p x = false) ∧ p c = true ∧ t = l ++ c :: s := by
  induction t with
  | nil => exact Or.inl (by simp)
  | cons x t ih =>
    cases hx : p x with
    | true => exact Or.inr ⟨[], x, t, by simp, hx, rfl⟩
    | false =>
      refine ih.imp (fun h => List.forall_mem_cons.mpr ⟨hx, h⟩) ?_
      rintro ⟨l, c, s, hl, hc, rfl⟩
      exact ⟨x :: l, c, s, List.forall_mem_cons.mpr ⟨hx, hl⟩, hc, rfl⟩

/-- A piece of a text stands in it with separators, or nothing at all, on both sides. -/
theorem exists_margins_of_mem_splitOnP (h : w ∈ t.splitOnP p) :
    ∃ a b, t = a ++ w ++ b ∧ (∀ c ∈ a.getLast?, p c = true) ∧ ∀ c ∈ b.head?, p c = true := by
  induction hn : t.length using Nat.strong_induction_on generalizing t with
  | _ n ih =>
    rcases first_break_cases p t with ht | ⟨l, c, s, hl, hc, rfl⟩
    · rw [List.splitOnP_eq_singleton ht, List.mem_singleton] at h
      exact ⟨[], [], by simp [h], by simp, by simp⟩
    · rw [List.splitOnP_append_cons_of_forall_mem hl c hc] at h
      rcases List.mem_cons.mp h with rfl | h
      · exact ⟨[], c :: s, rfl, by simp, by simpa using hc⟩
      · have hlt : s.length < n := by
          rw [← hn, List.length_append, List.length_cons]
          omega
        obtain ⟨a, b, rfl, ha, hb⟩ := ih s.length hlt h rfl
        refine ⟨l ++ c :: a, b, by simp, ?_, hb⟩
        rw [List.getLast?_append_cons]
        cases a with
        | nil => simpa using hc
        | cons x a => simpa using ha

/-- The pieces of a text are its longest runs without separators. -/
theorem mem_splitOnP_iff : w ∈ t.splitOnP p ↔ (∀ c ∈ w, p c = false) ∧
    ∃ a b, t = a ++ w ++ b ∧ (∀ c ∈ a.getLast?, p c = true) ∧ ∀ c ∈ b.head?, p c = true := by
  constructor
  · exact fun h => ⟨fun c hc => (mem_of_mem_splitOnP h hc).2, exists_margins_of_mem_splitOnP h⟩
  · rintro ⟨hw, a, b, rfl, ha, hb⟩
    have hback : w ∈ (w ++ b).splitOnP p := by
      cases b with
      | nil => simp [List.splitOnP_eq_singleton hw]
      | cons c b =>
        rw [List.splitOnP_append_cons_of_forall_mem hw c (hb c rfl)]
        exact List.mem_cons_self
    rcases a.eq_nil_or_concat' with rfl | ⟨a, c, rfl⟩
    · exact hback
    · have hc : p c = true := ha c (by simp)
      rw [List.append_assoc, List.append_assoc, List.singleton_append,
        List.splitOnP_append_cons _ _ hc]
      exact List.mem_append_right _ hback

theorem runs_append_cons (h : p c = true) (s t : Text) :
    runs p (s ++ c :: t) = runs p s ++ runs p t := by
  rw [runs, List.splitOnP_append_cons s t h, List.filter_append, runs, runs]

theorem runs_cons (h : p c = true) (t : Text) : runs p (c :: t) = runs p t :=
  runs_append_cons h [] t

theorem runs_concat (h : p c = true) (t : Text) : runs p (t ++ [c]) = runs p t := by
  rw [runs_append_cons h]
  exact List.append_nil _

theorem runs_append_of_forall (h : ∀ c ∈ s, p c = true) (t : Text) :
    runs p (s ++ t) = runs p t := by
  induction s with
  | nil => rfl
  | cons c s ih =>
    rw [List.cons_append, runs_cons (h c (by simp)), ih fun x hx => h x (by simp [hx])]

theorem runs_of_forall_append (h : ∀ c ∈ t, p c = true) (s : Text) :
    runs p (s ++ t) = runs p s := by
  induction t generalizing s with
  | nil => rw [List.append_nil]
  | cons c t ih =>
    have ht : runs p ([] ++ t) = [] := ih (fun x hx => h x (by simp [hx])) []
    rw [runs_append_cons (h c (by simp)), ← List.nil_append t, ht, List.append_nil]

theorem runs_eq_nil : runs p t = [] ↔ ∀ c ∈ t, p c = true := by
  constructor
  · induction t with
    | nil => simp
    | cons c t ih =>
      intro h
      cases hp : p c with
      | true =>
        rw [runs_cons hp] at h
        simpa [hp] using ih h
      | false =>
        obtain ⟨x, xs, hx⟩ := List.exists_cons_of_ne_nil (List.splitOnP_ne_nil p t)
        simp [runs, List.splitOnP_cons_eq_if_modifyHead, hp, hx] at h
  · intro h
    have ht := runs_append_of_forall h []
    rw [List.append_nil] at ht
    rw [ht]
    rfl

theorem runs_of_forall_not (hr : r ≠ []) (h : ∀ c ∈ r, p c = false) : runs p r = [r] := by
  rw [runs, List.splitOnP_eq_singleton h]
  simp [hr]

/-- The first run of a text is the longest one behind the separators at its start. -/
theorem runs_append_run (hg : ∀ c ∈ g, p c = true) (hr : r ≠ []) (h : ∀ c ∈ r, p c = false)
    (hs : ∀ c ∈ s.head?, p c = true) : runs p (g ++ (r ++ s)) = r :: runs p s := by
  rw [runs_append_of_forall hg]
  cases s with
  | nil =>
    rw [List.append_nil, runs_of_forall_not hr h]
    rfl
  | cons c s =>
    have hc : p c = true := hs c rfl
    rw [runs_append_cons hc, runs_of_forall_not hr h, runs_cons hc]
    rfl

/-- Induction on the runs of a text: it has separators alone, or its first run stands between
separators and a text that the run does not reach into. -/
@[elab_as_elim]
theorem run_induction (p : Char → Bool) {motive : Text → Prop}
    (gap : ∀ t, (∀ c ∈ t, p c = true) → motive t)
    (run : ∀ g r s, (∀ c ∈ g, p c = true) → r ≠ [] → (∀ c ∈ r, p c = false) →
      (∀ c ∈ s.head?, p c = true) → motive s → motive (g ++ (r ++ s)))
    (t : Text) : motive t := by
  induction hn : t.length using Nat.strong_induction_on generalizing t with
  | _ n ih =>
    rcases first_break_cases (!p ·) t with ht | ⟨g, c, s, hg, hc, rfl⟩
    · exact gap t (by simpa using ht)
    · have hg : ∀ x ∈ g, p x = true := by simpa using hg
      have hc : p c = false := by simpa using hc
      rcases first_break_cases p s with hs | ⟨l, d, s, hl, hd, rfl⟩
      · have hrun := run g (c :: s) [] hg (List.cons_ne_nil c s)
          (List.forall_mem_cons.mpr ⟨hc, hs⟩) (by simp) (gap [] (by simp))
        rwa [List.append_nil] at hrun
      · have hlt : (d :: s).length < n := by
          simp only [← hn, List.length_append, List.length_cons]
          omega
        exact run g (c :: l) (d :: s) hg (List.cons_ne_nil c l)
          (List.forall_mem_cons.mpr ⟨hc, hl⟩) (by simpa using hd) (ih _ hlt (d :: s) rfl)

/-- Runs with a separator between each two are read back. -/
theorem runs_joined (hc : p c = true) (h : ∀ r ∈ rs, r ≠ [] ∧ ∀ x ∈ r, p x = false) :
    runs p (joined [c] rs) = rs := by
  induction rs with
  | nil => rfl
  | cons r rs ih =>
    have hr : runs p r = [r] := runs_of_forall_not (h r (by simp)).1 (h r (by simp)).2
    have ih := ih fun x hx => h x (List.mem_cons_of_mem r hx)
    cases rs with
    | nil => simpa [joined] using hr
    | cons r' rs =>
      have he : joined [c] (r :: r' :: rs) = r ++ c :: joined [c] (r' :: rs) := by simp [joined]
      rw [he, runs_append_cons hc, hr, ih]
      rfl

/-- Blanks around a text do not matter where blanks separate the pieces. -/
theorem runs_trim (h : ∀ c, isBlank c = true → p c = true) (t : Text) :
    runs p t.trim = runs p t := by
  obtain ⟨a, b, ha, hb, ht⟩ := exists_margins t
  conv_rhs => rw [ht]
  rw [List.append_assoc, runs_append_of_forall fun c hc => h c (blank_iff.mp ha c hc),
    runs_of_forall_append fun c hc => h c (blank_iff.mp hb c hc)]

theorem splitOnP_map {f : Char → Char} (h : ∀ c, p (f c) = p c)
    (hf : ∀ c, p c = false → f c = c) (t : Text) : (t.map f).splitOnP p = t.splitOnP p := by
  induction t with
  | nil => rfl
  | cons c t ih =>
    rw [List.map_cons, List.splitOnP_cons_eq_if_modifyHead, List.splitOnP_cons_eq_if_modifyHead,
      h, ih]
    cases hp : p c with
    | true => rfl
    | false => rw [hf c hp]

/-- Line breaks may become spaces where both separate the pieces. -/
theorem runs_singleLine (h : ∀ c, isBlank c = true → p c = true) (t : Text) :
    runs p (singleLine t) = runs p t := by
  have hf : p '\n' = true := h '\n' rfl
  have hr : p '\r' = true := h '\r' rfl
  have hs : p ' ' = true := h ' ' rfl
  rw [runs, singleLine, splitOnP_map, runs]
  · intro c
    by_cases hc : c = '\r' ∨ c = '\n'
    · rcases hc with rfl | rfl
      · simp [hs, hr]
      · simp [hs, hf]
    · simp [hc]
  · intro c hc
    have h1 : c ≠ '\r' := by
      rintro rfl
      simp [hr] at hc
    have h2 : c ≠ '\n' := by
      rintro rfl
      simp [hf] at hc
    simp [h1, h2]

theorem not_isAlphanumeric_of_isBlank (h : isBlank c = true) : isAlphanumeric c = false := by
  have hall : ∀ n ∈ List.range' 9 5 ++ List.range' 0x2000 11 ++
      [0x20, 0x85, 0xA0, 0x1680, 0x2028, 0x2029, 0x202F, 0x205F, 0x3000],
      alphanumericRanges.has n = false := by decide +kernel
  apply hall
  simp only [isBlank, Bool.or_eq_true, Bool.and_eq_true, decide_eq_true_eq, beq_iff_eq] at h
  simp only [List.mem_append, List.mem_range'_1, List.mem_cons, List.not_mem_nil, or_false]
  omega

/-- The tokens of a text are those of what is written of it on one line. -/
theorem tokens_singleLine_trim (t : Text) : (singleLine t).trim.tokens = t.tokens := by
  have hb : ∀ c, isBlank c = true → (!isAlphanumeric c) = true := fun c hc => by
    rw [not_isAlphanumeric_of_isBlank hc]
    rfl
  rw [tokens_eq_runs, tokens_eq_runs, runs_trim hb, runs_singleLine hb]

/-- A line feed at the end of a text is part of no token. -/
theorem tokens_append_feed (t : Text) : (t ++ ['\n']).tokens = t.tokens := by
  rw [tokens_eq_runs, tokens_eq_runs, runs_concat (by decide)]

theorem tokens_eq_nil_of_blank (h : t.blank = true) : t.tokens = [] := by
  have hr : runs (!isAlphanumeric ·) t = [] := runs_eq_nil.mpr fun c hc => by
    rw [not_isAlphanumeric_of_isBlank (blank_iff.mp h c hc)]
    rfl
  rw [tokens_eq_runs, hr]
  rfl

theorem words_eq_nil : t.words = [] ↔ t.blank = true := by
  rw [words_eq_runs, runs_eq_nil, blank_iff]

end DesignRecords.Text
