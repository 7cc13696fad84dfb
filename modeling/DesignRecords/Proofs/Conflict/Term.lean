import DesignRecords.Conflict.Score
import DesignRecords.Proofs.Text.Increasing
import DesignRecords.Proofs.Text.Run

namespace DesignRecords

variable {c e : Char} {before t u : Text}

/-- Whether a character is a letter, a number or something that a capital becomes in lower case. -/
def TermLetter (c : Char) : Prop := isAlphanumeric c = true ∨ c = '\x00' ∨ 97 ≤ c.toNat

theorem lowercaseShift_cases (n : Nat) (runs : List (Nat × Nat × Nat × Int)) :
    lowercaseShift n runs = 0 ∨
      ∃ r ∈ runs, r.1 ≤ n ∧ n ≤ r.2.1 ∧ lowercaseShift n runs = r.2.2.2 := by
  induction runs with
  | nil => exact Or.inl rfl
  | cons r rest ih =>
    unfold lowercaseShift
    split
    · exact Or.inl rfl
    next h =>
      split
      next hlast =>
        have hlast := (Bool.and_eq_true_iff.mp hlast).1
        exact Or.inr ⟨r, by simp, Nat.le_of_not_lt h, of_decide_eq_true hlast, rfl⟩
      · refine ih.imp_right ?_
        rintro ⟨r', hr, hn, he⟩
        exact ⟨r', List.mem_cons_of_mem r hr, hn, he⟩

/-- No capital becomes a character before the small letters. -/
theorem lowercaseRuns_above : ∀ r ∈ lowercaseRuns, 97 ≤ (r.1 : Int) + r.2.2.2 := by decide +kernel

theorem termLetter_ofNat {n : Nat} (h : 97 ≤ n) : TermLetter (Char.ofNat n) := by
  right
  by_cases hv : n.isValidChar
  · right
    rw [Char.ofNat, dif_pos hv]
    exact h
  · left
    rw [Char.ofNat, dif_neg hv]
    rfl

theorem termLetter_lowercaseOf (hc : isAlphanumeric c = true) (h : e ∈ lowercaseOf c) :
    TermLetter e := by
  unfold lowercaseOf at h
  split at h
  · rcases List.mem_cons.mp h with rfl | h
    · exact Or.inr (Or.inr (by decide))
    · rcases List.mem_singleton.mp h with rfl
      exact Or.inr (Or.inr (by decide))
  · simp only at h
    split at h
    · rcases List.mem_singleton.mp h with rfl
      exact Or.inl hc
    next hs =>
      rcases List.mem_singleton.mp h with rfl
      apply termLetter_ofNat
      obtain ⟨r, hr, hn, -, he⟩ := (lowercaseShift_cases c.toNat lowercaseRuns).resolve_left hs
      have hb := lowercaseRuns_above r hr
      omega

theorem termLetter_lowercaseAfter (ht : ∀ c ∈ t, isAlphanumeric c = true)
    (h : e ∈ lowercaseAfter before t) : TermLetter e := by
  induction t generalizing before with
  | nil => cases h
  | cons c t ih =>
    rw [lowercaseAfter] at h
    rcases List.mem_append.mp h with h | h
    · split at h
      · rcases List.mem_singleton.mp h with rfl
        split
        · exact Or.inr (Or.inr (by decide))
        · exact Or.inr (Or.inr (by decide))
      · exact termLetter_lowercaseOf (ht c (by simp)) h
    · exact ih (fun x hx => ht x (by simp [hx])) h

theorem termLetter_of_mem_tokens (hu : u ∈ t.tokens) (h : e ∈ u) : TermLetter e := by
  rw [Text.tokens_eq_runs] at hu
  obtain ⟨w, hw, rfl⟩ := List.mem_map.mp hu
  refine termLetter_lowercaseAfter (fun c hc => ?_) h
  simpa using (Text.mem_of_mem_runs hw hc).2

/-- No letter of a term is one of the marks that stand around terms in a description. -/
theorem not_termLetter_mark : ∀ m ∈ ['"', ',', ' ', ':'], ¬ TermLetter m := by
  have hm : ∀ m ∈ ['"', ',', ' ', ':'],
      isAlphanumeric m = false ∧ m ≠ '\x00' ∧ m.toNat < 97 := by decide +kernel
  rintro m h (ha | h0 | hn)
  · rw [(hm m h).1] at ha
    cases ha
  · exact (hm m h).2.1 h0
  · exact absurd (hm m h).2.2 (Nat.not_lt.mpr hn)

namespace Thresholds

variable {th : Thresholds} {files : List Path} {r : Request} {matched : List Text}

/-- Whether a text has a term. -/
def Term (th : Thresholds) (t u : Text) : Prop := u ∈ t.tokens ∧ th.isTerm u = true

@[simp]
theorem mem_terms : u ∈ th.terms t ↔ th.Term t u := by
  rw [terms, mem_increasing, List.mem_filter, Term]

/-- Whether a request has a term, in its changes or in the path of one of its files. -/
def Proposes (th : Thresholds) (r : Request) (u : Text) : Prop :=
  th.Term r.changes u ∨ ∃ p ∈ r.files, ∃ segment ∈ segments p, th.Term segment u

theorem mem_proposal : u ∈ th.proposal r ↔ th.Proposes r u := by
  simp only [proposal, pathTerms, mem_increasing, List.mem_append, List.mem_flatMap, mem_terms,
    Proposes]
  refine or_congr_right ⟨?_, ?_⟩
  · rintro ⟨segment, ⟨p, hp, hs⟩, hu⟩
    exact ⟨p, hp, segment, hs, hu⟩
  · rintro ⟨p, hp, segment, hs, hu⟩
    exact ⟨segment, ⟨p, hp, hs⟩, hu⟩

theorem mem_shared : u ∈ th.shared (th.proposal r) t ↔ th.Term t u ∧ th.Proposes r u := by
  rw [shared, List.mem_filter, mem_terms, List.contains_iff_mem, mem_proposal]

/-- Whether a request and a text have enough in common, and in common just these terms. -/
structure Overlap (th : Thresholds) (r : Request) (t : Text) (matched : List Text) : Prop where
  sorted : Ascending matched
  mem : ∀ u, u ∈ matched ↔ th.Term t u ∧ th.Proposes r u
  enough : max 1 th.sharedTerms ≤ matched.length

/-- The terms that a request and a text have in common are found in order. -/
theorem overlap_iff : th.Overlap r t matched ↔
    matched = th.shared (th.proposal r) t ∧ th.flagged matched.length = true := by
  constructor
  · intro h
    refine ⟨h.sorted.eq_of_mem_iff (Ascending.filter (ascending_increasing _) _) fun u => ?_, ?_⟩
    · rw [h.mem, mem_shared]
    · simpa [flagged] using h.enough
  · rintro ⟨rfl, hf⟩
    exact ⟨Ascending.filter (ascending_increasing _) _, fun u => mem_shared,
      by simpa [flagged] using hf⟩

theorem Overlap.congr {t' : Text} (h : th.Overlap r t matched) (ht : t'.tokens = t.tokens) :
    th.Overlap r t' matched := by
  have hterm : ∀ u, th.Term t' u ↔ th.Term t u := fun u => by rw [Term, Term, ht]
  exact { h with mem := fun u => by rw [h.mem, hterm] }

theorem Overlap.not_blank (h : th.Overlap r t matched) : t.blank = false := by
  rw [Bool.eq_false_iff]
  intro hb
  have hm : matched = [] := by
    rw [List.eq_nil_iff_forall_not_mem]
    intro u hu
    have hu := ((h.mem u).mp hu).1.1
    rw [Text.tokens_eq_nil_of_blank hb] at hu
    cases hu
  have he := h.enough
  rw [hm] at he
  exact absurd he (by simp)

theorem Overlap.proposal_ne_nil (h : th.Overlap r t matched) : th.proposal r ≠ [] := by
  intro hp
  obtain ⟨rfl, hf⟩ := overlap_iff.mp h
  rw [hp] at hf
  have hs : th.shared [] t = [] := List.filter_eq_nil_iff.mpr (by simp)
  rw [hs] at hf
  simp [flagged] at hf

end Thresholds

end DesignRecords
