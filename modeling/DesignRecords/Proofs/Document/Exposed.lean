import DesignRecords.Proofs.Document.Shelter

namespace DesignRecords

namespace Section

variable {l x : Text} {ls ls' rest : List Text} {n : Nat}

/-- Whether all headers among some lines stand before the first fence, and that one closes the block
that they stand in. -/
def Sheltered : List Text → Prop
  | [] => True
  | l :: ls =>
    if isFence l then isBareFence l = true ∧ ∀ x ∈ ls, isHeader x = false else Sheltered ls

theorem sheltered_cons_of_not (h : isFence l = false) : Sheltered (l :: ls) ↔ Sheltered ls := by
  rw [Sheltered, h]
  simp

theorem sheltered_cons_of_fence (h : isFence l = true) : Sheltered (l :: ls) ↔
    isBareFence l = true ∧ ∀ x ∈ ls, isHeader x = false := by
  rw [Sheltered, h]
  simp

/-- Whether lines start no section once they stand in a block of code. -/
def Tame (ls : List Text) : Prop := (∀ l ∈ ls, isHeader l = false) ∨ Sheltered ls

theorem Sheltered.of_append (h : Sheltered (ls ++ rest)) : Sheltered ls := by
  induction ls with
  | nil => trivial
  | cons l ls ih =>
    rw [List.cons_append] at h
    cases hf : isFence l with
    | true =>
      obtain ⟨hb, hh⟩ := (sheltered_cons_of_fence hf).mp h
      exact (sheltered_cons_of_fence hf).mpr ⟨hb, fun x hx => hh x (List.mem_append_left _ hx)⟩
    | false => exact (sheltered_cons_of_not hf).mpr (ih ((sheltered_cons_of_not hf).mp h))

theorem Tame.of_append (h : Tame (ls ++ rest)) : Tame ls :=
  h.imp (fun h l hl => h l (List.mem_append_left _ hl)) Sheltered.of_append

theorem Sheltered.dropWhile_blank (h : Sheltered ls) : Sheltered (ls.dropWhile Text.blank) := by
  induction ls with
  | nil => exact h
  | cons l ls ih =>
    rw [List.dropWhile_cons]
    split
    next hb => exact ih ((sheltered_cons_of_not (isFence_of_blank hb)).mp h)
    · exact h

theorem Tame.dropWhile_blank (h : Tame ls) : Tame (ls.dropWhile Text.blank) :=
  h.imp (fun h l hl => h l ((List.dropWhile_suffix _).subset hl)) Sheltered.dropWhile_blank

theorem Sheltered.of_milder (hm : List.Forall₂ Milder ls ls') (h : Sheltered ls) :
    Sheltered ls' := by
  induction hm with
  | nil => trivial
  | @cons l l' ls ls' hl hls ih =>
    cases hf : isFence l with
    | true =>
      obtain ⟨hb, hh⟩ := (sheltered_cons_of_fence hf).mp h
      refine (sheltered_cons_of_fence (hl.fence.trans hf)).mpr ⟨hl.bare.trans hb, ?_⟩
      exact unmarked_prose.mp (Unmarked.of_milder hls (unmarked_prose.mpr hh))
    | false =>
      exact (sheltered_cons_of_not (hl.fence.trans hf)).mpr
        (ih ((sheltered_cons_of_not hf).mp h))

theorem Tame.of_milder (hm : List.Forall₂ Milder ls ls') (h : Tame ls) : Tame ls' :=
  h.imp (fun h => unmarked_prose.mp (Unmarked.of_milder hm (unmarked_prose.mpr h)))
    (Sheltered.of_milder hm)

/-- What a block of code that is closed hides is sheltered by its end. -/
theorem sheltered_of_unmarked (hn : fencedLines? ls = some n) (h : Unmarked (.fenced n) ls) :
    Sheltered ls := by
  induction ls generalizing n with
  | nil => trivial
  | cons l ls ih =>
    obtain ⟨-, hrest⟩ := unmarked_cons.mp h
    rw [fencedLines?] at hn
    cases hf : isFence l with
    | true =>
      rw [hf] at hn
      cases hb : isBareFence l with
      | true =>
        rw [hb] at hn
        cases hn
        exact (sheltered_cons_of_fence hf).mpr ⟨hb, unmarked_fenced_zero.mp hrest⟩
      | false =>
        rw [hb] at hn
        cases hn
    | false =>
      rw [hf] at hn
      obtain ⟨m, hm, rfl⟩ := Option.map_eq_some_iff.mp hn
      exact (sheltered_cons_of_not hf).mpr (ih hm hrest)

theorem sheltered_of_fencedLines? {fence : Text}
    (hn : (fencedLines? (ls ++ [fence])).isSome = true)
    (hh : ∀ l ∈ ls, isHeader l = false) : Sheltered ls := by
  induction ls with
  | nil => trivial
  | cons l ls ih =>
    obtain ⟨-, hrest⟩ := List.forall_mem_cons.mp hh
    rw [List.cons_append, fencedLines?] at hn
    cases hl : isFence l with
    | true =>
      rw [hl] at hn
      cases hb : isBareFence l with
      | true => exact (sheltered_cons_of_fence hl).mpr ⟨hb, hrest⟩
      | false =>
        rw [hb] at hn
        cases hn
    | false =>
      rw [hl] at hn
      exact (sheltered_cons_of_not hl).mpr (ih (by simpa using hn) hrest)

theorem after_opening_of_fence (hh : isHeader x = false) (hf : isFence x = true)
    (ls : List Text) : Place.after x ls .opening =
      ((fencedLines? ls).map Place.fenced).getD .prose := by
  have hb := not_blank_of_isFence hf
  simp [Place.after, hh, hb, hf]

/-- Of lines that start no section those behind a fence at their start start none either once they
stand in a block of their own. -/
theorem Quiet.tame_of_fence (hf : isFence x = true) (h : Quiet (x :: rest)) : Tame rest := by
  obtain ⟨hh, hrest⟩ := unmarked_cons.mp h
  rw [after_opening_of_fence hh hf] at hrest
  cases hn : fencedLines? rest with
  | none =>
    rw [hn] at hrest
    exact Or.inl (unmarked_prose.mp hrest)
  | some n =>
    rw [hn] at hrest
    exact Or.inr (sheltered_of_unmarked hn hrest)

/-- Of lines that start no section and no block of code those behind the first one that is not blank
have no headers. -/
theorem Quiet.unheaded_of_not_fence (hb : Text.blank x = false) (hf : isFence x = false)
    (h : Quiet (x :: rest)) : ∀ l ∈ rest, isHeader l = false := by
  obtain ⟨hh, hrest⟩ := unmarked_cons.mp h
  have hh : isHeader x = false := hh
  have ha : Place.after x rest .opening = .prose := by simp [Place.after, hh, hb, hf]
  rw [ha] at hrest
  exact unmarked_prose.mp hrest

theorem isHeader_of_isBareFence (h : isBareFence l = true) : isHeader l = false := by
  rw [← Bool.not_eq_true]
  intro hh
  have hf := isFence_of_isHeader hh
  rw [isFence_of_isBareFence h] at hf
  cases hf

section

variable {fence : Text} (hf : isBareFence fence = true)

include hf

/-- A block of code around sheltered lines is closed, and starts no section. -/
theorem Sheltered.exists_unmarked (h : Sheltered ls) :
    ∃ n, fencedLines? (ls ++ [fence, []]) = some n ∧
      Unmarked (.fenced n) (ls ++ [fence, []]) := by
  have hfence := isFence_of_isBareFence hf
  have hend : ∀ x ∈ [fence, []], isHeader x = false := by
    simpa using ⟨isHeader_of_isBareFence hf, isHeader_of_blank rfl⟩
  induction ls with
  | nil =>
    refine ⟨1, by simp [fencedLines?, hfence, hf], unmarked_cons.mpr ⟨rfl, ?_⟩⟩
    exact unmarked_fenced_zero.mpr (List.forall_mem_of_forall_mem_cons hend)
  | cons l ls ih =>
    cases hl : isFence l with
    | true =>
      obtain ⟨hb, hh⟩ := (sheltered_cons_of_fence hl).mp h
      refine ⟨1, by simp [fencedLines?, hl, hb], unmarked_cons.mpr ⟨rfl, ?_⟩⟩
      exact unmarked_fenced_zero.mpr (List.forall_mem_append.mpr ⟨hh, hend⟩)
    | false =>
      obtain ⟨n, hn, hu⟩ := ih ((sheltered_cons_of_not hl).mp h)
      refine ⟨n + 1, by simp [fencedLines?, hl, hn], unmarked_cons.mpr ⟨rfl, hu⟩⟩

/-- Tame lines in a block of code start no section. -/
theorem Tame.quiet {head : Text} (hh : isHeader head = false) (hhead : isFence head = true)
    (h : Tame ls) : Quiet ([] :: head :: ls ++ [fence, []]) := by
  have ho : Quiet (head :: (ls ++ [fence, []])) := by
    rcases h with h | h
    · apply quiet_of_forall
      intro l hl
      simp only [List.mem_append, List.mem_cons, List.not_mem_nil, or_false] at hl
      rcases hl with rfl | hl | rfl | rfl
      · exact hh
      · exact h l hl
      · exact isHeader_of_isBareFence hf
      · rfl
    · obtain ⟨n, hn, hu⟩ := h.exists_unmarked hf
      intro m hm
      rw [marked_opening_fence hh hhead hn] at hm
      rcases List.mem_cons.mp hm with rfl | hm
      · rfl
      · exact hu m hm
  exact (quiet_cons_of_blank rfl).mpr ho

end

end Section

end DesignRecords
