import DesignRecords.Proofs.Conflict.Term

namespace DesignRecords

variable {sep : Char} {s s' t t' u : Text} {us vs matched matched' : List Text}

namespace Text

/-- A text is cut in one way only at its first separator. -/
theorem first_piece_unique (hs : sep ∉ s) (hs' : sep ∉ s') (h : s ++ sep :: t = s' ++ sep :: t') :
    s = s' ∧ t = t' := by
  have hp := congrArg (List.splitOn sep) h
  rw [List.splitOn_append_cons_self, List.splitOn_append_cons_self, List.splitOn_eq_singleton hs,
    List.splitOn_eq_singleton hs'] at hp
  obtain ⟨rfl, -⟩ := List.cons.inj hp
  exact ⟨rfl, (List.cons.inj (List.append_cancel_left h)).2⟩

theorem last_piece_unique (ht : sep ∉ t) (ht' : sep ∉ t') (h : s ++ sep :: t = s' ++ sep :: t') :
    t = t' := by
  have hr := congrArg List.reverse h
  simp only [List.reverse_append, List.reverse_cons, List.append_assoc, List.singleton_append] at hr
  have hu := first_piece_unique (by simpa using ht) (by simpa using ht') hr
  exact List.reverse_injective hu.1

/-- What follows the last of some marks is known where the mark and what follows it up to there
are. -/
theorem append_cancel_of_mark {z : Text} (hz : sep ∈ z) (ht : sep ∉ t) (ht' : sep ∉ t')
    (h : s ++ z ++ t = s' ++ z ++ t') : t = t' := by
  obtain ⟨a, b, hb, rfl⟩ := (last_piece_cases sep z).resolve_left (not_not_intro hz)
  have he : s ++ a ++ sep :: (b ++ t) = s' ++ a ++ sep :: (b ++ t') := by simpa using h
  exact List.append_cancel_left (last_piece_unique (by simp [hb, ht]) (by simp [hb, ht']) he)

theorem joined_cons (u : Text) (h : us ≠ []) :
    joined ", " (u :: us) = u ++ ',' :: ' ' :: joined ", " us := by
  rw [joined, List.intercalate_cons_of_ne_nil h]
  simp [joined]

/-- A list of words without commas can be told from the words with commas between them. -/
theorem joined_injective (hu : ∀ u ∈ us, u ≠ [] ∧ ',' ∉ u) (hv : ∀ v ∈ vs, v ≠ [] ∧ ',' ∉ v)
    (h : joined ", " us = joined ", " vs) : us = vs := by
  have single : ∀ w : Text, joined ", " [w] = w := fun w => List.intercalate_singleton
  have filled : ∀ (w : Text) (ws : List Text), w ≠ [] → joined ", " (w :: ws) ≠ [] := by
    intro w ws hw
    cases ws with
    | nil => rwa [single]
    | cons w' ws =>
      rw [joined_cons w (by simp)]
      simp
  induction us generalizing vs with
  | nil =>
    cases vs with
    | nil => rfl
    | cons v vs => exact absurd h.symm (filled v vs (hv v (by simp)).1)
  | cons u us ih =>
    cases vs with
    | nil => exact absurd h (filled u us (hu u (by simp)).1)
    | cons v vs =>
      have hcu := (hu u (by simp)).2
      have hcv := (hv v (by simp)).2
      rcases us with _ | ⟨u', us⟩
      · rcases vs with _ | ⟨v', vs⟩
        · rw [single, single] at h
          rw [h]
        · rw [single, joined_cons v (by simp)] at h
          exact absurd (by simp [h]) hcu
      · rcases vs with _ | ⟨v', vs⟩
        · rw [single, joined_cons u (by simp)] at h
          exact absurd (by simp [← h]) hcv
        · rw [joined_cons u (by simp), joined_cons v (by simp)] at h
          obtain ⟨rfl, ht⟩ := first_piece_unique hcu hcv h
          have hrest := ih (fun w hw => hu w (List.mem_cons_of_mem u hw))
            (fun w hw => hv w (List.mem_cons_of_mem u hw)) (List.cons.inj ht).2
          rw [hrest]

end Text

namespace Thresholds

variable {th : Thresholds}

/-- Whether each of some texts can be a term. -/
def Terms (us : List Text) : Prop := ∀ u ∈ us, u ≠ [] ∧ ∀ e ∈ u, TermLetter e

theorem terms_shared (proposal : List Text) (t : Text) : Terms (th.shared proposal t) := by
  intro u hu
  obtain ⟨ht, hl⟩ := mem_terms.mp (List.mem_filter.mp hu).1
  refine ⟨?_, fun e => termLetter_of_mem_tokens ht⟩
  rintro rfl
  simp [isTerm] at hl

theorem Terms.not_mark (h : Terms us) {m : Char} (hm : m ∈ ['"', ',', ' ', ':']) (hu : u ∈ us) :
    m ∉ u := fun he => not_termLetter_mark m hm ((h u hu).2 m he)

theorem Terms.quote_not_mem_joined (h : Terms us) : '"' ∉ Text.joined ", " us := by
  induction us with
  | nil => simp [Text.joined]
  | cons u us ih =>
    have hu : '"' ∉ u := h.not_mark (by simp) (by simp)
    cases us with
    | nil => simpa [Text.joined] using hu
    | cons v us =>
      have hr := ih fun w hw => h w (List.mem_cons_of_mem u hw)
      rw [Text.joined_cons u (by simp), List.mem_append, List.mem_cons, List.mem_cons]
      rintro (hq | hq | hq | hq)
      · exact hu hq
      · cases hq
      · cases hq
      · exact hr hq

theorem Terms.eq_of_joined (h : Terms us) (h' : Terms vs)
    (he : Text.joined ", " us = Text.joined ", " vs) : us = vs :=
  Text.joined_injective (fun u hu => ⟨(h u hu).1, h.not_mark (by simp) hu⟩)
    (fun v hv => ⟨(h' v hv).1, h'.not_mark (by simp) hv⟩) he

end Thresholds

namespace Candidate

variable {c c' : Candidate}

/-- What stands between the label of a candidate and the terms that it shares. -/
def close (kind : ConflictKind) (source : Text) : Text :=
  match kind with
  | .adrViolation => "\"".toList ++ " on: ".toList
  | .previousDecision => "\" recorded in ".toList ++ source ++ " on: ".toList
  | .stakeholderRequirement => "\" from ".toList ++ source ++ " on: ".toList

theorem quote_mem_close (kind : ConflictKind) (source : Text) : '"' ∈ close kind source := by
  cases kind with
  | adrViolation => exact List.mem_append_left _ (by decide)
  | previousDecision => exact List.mem_append_left _ (List.mem_append_left _ (by decide))
  | stakeholderRequirement => exact List.mem_append_left _ (List.mem_append_left _ (by decide))

theorem description_conflict (c : Candidate) (matched : List Text) :
    ∃ front, (c.conflict matched).description =
      front ++ close c.kind c.source ++ Text.joined ", " matched := by
  unfold conflict overlap close
  cases c.kind with
  | adrViolation =>
    exact ⟨"Proposal overlaps ".toList ++ c.source ++ " \"".toList ++ shortLabel c.label,
      by simp only [List.append_assoc]⟩
  | previousDecision =>
    exact ⟨"Proposal overlaps decision \"".toList ++ shortLabel c.label,
      by simp only [List.append_assoc]⟩
  | stakeholderRequirement =>
    exact ⟨"Proposal touches requirement \"".toList ++ shortLabel c.label,
      by simp only [List.append_assoc]⟩

/-- The description of a conflict tells which terms are shared, whatever the label says. -/
theorem matched_of_description (hk : c.kind = c'.kind) (hs : c.source = c'.source)
    (hm : Thresholds.Terms matched) (hm' : Thresholds.Terms matched')
    (h : (c.conflict matched).description = (c'.conflict matched').description) :
    matched = matched' := by
  obtain ⟨front, hf⟩ := description_conflict c matched
  obtain ⟨front', hf'⟩ := description_conflict c' matched'
  rw [hf, hf', ← hk, ← hs] at h
  exact hm.eq_of_joined hm' (Text.append_cancel_of_mark (quote_mem_close c.kind c.source)
    hm.quote_not_mem_joined hm'.quote_not_mem_joined h)

end Candidate

theorem compare_conflict {x y : Conflict} : compare x y = .eq ↔
    x.kind = y.kind ∧ x.source = y.source ∧ x.description = y.description := by
  have severity : ∀ k k' : ConflictKind, compare k.severity k'.severity = .eq ↔ k = k' := by
    intro k k'
    cases k <;> cases k' <;> decide
  change ((compare x.kind.severity y.kind.severity).then
    ((compare x.source y.source).then (compare x.description y.description))) = .eq ↔ _
  rw [Ordering.then_eq_eq, Ordering.then_eq_eq, severity, Std.LawfulEqCmp.compare_eq_iff_eq,
    Std.LawfulEqCmp.compare_eq_iff_eq]

instance : Std.TransOrd Severity where
  eq_swap {a b} := by cases a <;> cases b <;> rfl
  isLE_trans {a b c} := by cases a <;> cases b <;> cases c <;> decide

instance : Std.TransOrd Conflict :=
  inferInstanceAs (Std.TransCmp (compareLex (compareOn fun x : Conflict => x.kind.severity)
    (compareLex (compareOn Conflict.source) (compareOn Conflict.description))))

/-- Conflicts of one rank are the same. -/
theorem Candidate.eq_of_compare {c c' : Candidate} (hm : Thresholds.Terms matched)
    (hm' : Thresholds.Terms matched')
    (h : compare (c.conflict matched) (c'.conflict matched') = .eq) :
    c.conflict matched = c'.conflict matched' := by
  obtain ⟨hk, hs, hd⟩ := compare_conflict.mp h
  have hkind : c.kind = c'.kind := hk
  have hsource : c.source = c'.source := hs
  have hmatched := matched_of_description hkind hsource hm hm' hd
  have hadvice : c.advice = c'.advice := by rw [advice, advice, hkind, hsource]
  rw [Conflict.mk.injEq]
  exact ⟨hk, hs, hd, hadvice, hmatched⟩

namespace Thresholds

variable {th : Thresholds} {r : Request} {cs : List Candidate} {x : Conflict}
  {kind : ConflictKind} {source : Text}

theorem score_eq_some {c : Candidate} : th.score (th.proposal r) c = some x ↔
    ∃ matched, th.Overlap r c.text matched ∧ x = c.conflict matched := by
  simp only [overlap_iff, score]
  constructor
  · intro h
    split at h
    next hf => exact ⟨_, ⟨rfl, hf⟩, (Option.some.inj h).symm⟩
    next => cases h
  · rintro ⟨matched, ⟨rfl, hf⟩, rfl⟩
    exact if_pos hf

theorem Overlap.terms {t : Text} (h : th.Overlap r t matched) : Terms matched := by
  rw [(overlap_iff.mp h).1]
  exact terms_shared _ _

/-- The order tells the conflicts of one request apart. -/
theorem separated_score (th : Thresholds) (r : Request) (cs : List Candidate) :
    Separated (cs.filterMap (th.score (th.proposal r))) := by
  intro x hx y hy he
  obtain ⟨c, -, hs⟩ := List.mem_filterMap.mp hx
  obtain ⟨c', -, hs'⟩ := List.mem_filterMap.mp hy
  obtain ⟨matched, ho, rfl⟩ := score_eq_some.mp hs
  obtain ⟨matched', ho', rfl⟩ := score_eq_some.mp hs'
  exact Candidate.eq_of_compare ho.terms ho'.terms he

/-- What is found are the conflicts with the candidates that have enough in common with the request;
none hides another one. -/
theorem mem_conflicts_iff : x ∈ th.conflicts (th.proposal r) cs ↔
    ∃ c ∈ cs, ∃ matched, th.Overlap r c.text matched ∧ x = c.conflict matched := by
  rw [conflicts, (separated_score th r cs).mem_increasing, List.mem_filterMap]
  simp only [score_eq_some]

theorem mem_conflicts :
    (∃ x ∈ th.conflicts (th.proposal r) cs, x.kind = kind ∧ x.source = source ∧
      x.matched = matched) ↔
    ∃ c ∈ cs, c.kind = kind ∧ c.source = source ∧ th.Overlap r c.text matched := by
  simp only [mem_conflicts_iff]
  constructor
  · rintro ⟨_, ⟨c, hc, matched, ho, rfl⟩, rfl, rfl, rfl⟩
    exact ⟨c, hc, rfl, rfl, ho⟩
  · rintro ⟨c, hc, rfl, rfl, ho⟩
    exact ⟨_, ⟨c, hc, matched, ho, rfl⟩, rfl, rfl, rfl⟩

end Thresholds

end DesignRecords
