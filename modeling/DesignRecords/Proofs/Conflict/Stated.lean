import DesignRecords.Proofs.Conflict.Wording
import Mathlib.Algebra.Group.Nat.Even
import Mathlib.Data.List.Forall2

namespace DesignRecords.Requirement

/-- Whether a line opens or closes a block of code. -/
def Fence (line : Text) : Prop := Text.startsWith line.trim "```" = true

/-- Whether a line reads as a heading. -/
def Headline (line : Text) : Prop := Text.startsWith line.trim "#" = true

instance {line : Text} : Decidable (Fence line) := inferInstanceAs (Decidable (_ = _))

instance {line : Text} : Decidable (Headline line) := inferInstanceAs (Decidable (_ = _))

/-- Whether line `i` stands outside blocks of code: an even number of fences is above it. -/
def Outside (ls : List Text) (i : Nat) : Prop := Even ((ls.take i).countP fun l => Fence l)

instance {ls : List Text} {i : Nat} : Decidable (Outside ls i) :=
  inferInstanceAs (Decidable (Even _))

/-- Whether line `i` is a heading outside blocks of code. -/
def HeadingAt (ls : List Text) (i : Nat) : Prop :=
  Outside ls i ∧ ∃ l ∈ ls[i]?, Headline l

/-- Whether the last heading above line `i` is about requirements. -/
def UnderTopic (ls : List Text) (i : Nat) : Prop :=
  ∃ j < i, HeadingAt ls j ∧ (∃ l ∈ ls[j]?, Mentions l.trim) ∧ ∀ k, j < k → k < i → ¬ HeadingAt ls k

/-- Whether line `i` states a requirement: a line of prose that uses a keyword, or that is a list
item under a heading about requirements. -/
def Counts (ls : List Text) (i : Nat) : Prop :=
  Outside ls i ∧ ∃ l ∈ ls[i]?, l.trim ≠ [] ∧ ¬ Fence l ∧ ¬ Headline l ∧
    ((∃ word ∈ keywords, Uses l.trim word) ∨ UnderTopic ls i ∧ ∃ rest, IsItem l.trim rest)

/-- What line `i` says if it counts. -/
def SaysAt (ls : List Text) (i : Nat) (s : Text) : Prop := s.Neat ∧ ∃ l ∈ ls[i]?, Says l.trim s

/-- What a scan knows when it reaches line `n`. -/
structure Standing (ls : List Text) (n : Nat) (fenced under : Bool) : Prop where
  outside : fenced = false ↔ Outside ls n
  under : under = true ↔ UnderTopic ls n

variable {ls rest inner : List Text} {l s : Text} {n : Nat} {fenced under : Bool}

/-- Whether the lines behind `l` stand in a block of code. -/
def fencedAfter (fenced : Bool) (l : Text) : Bool := if Fence l then !fenced else fenced

/-- Whether a line is a heading, given whether it stands in a block of code. -/
def isHeading (fenced : Bool) (l : Text) : Bool := !fenced && decide (Headline l)

/-- Whether the lines behind `l` stand under a heading about requirements. -/
def underAfter (fenced under : Bool) (l : Text) : Bool :=
  if isHeading fenced l then isTopic l.trim else under

/-- The requirement that line `l` states. -/
def stated? (fenced under : Bool) (l : Text) : Option Text :=
  if Fence l ∨ fenced = true ∨ l.trim = [] ∨ Headline l then none
  else statement? under l.trim

theorem not_headline_of_fence (h : Fence l) : ¬ Headline l := by
  obtain ⟨t, ht⟩ := List.isPrefixOf_iff_prefix.mp h
  rw [Headline, ← ht]
  exact Bool.false_ne_true

theorem not_headline_of_blank (h : l.trim = []) : ¬ Headline l := by
  rw [Headline, h]
  exact Bool.false_ne_true

theorem ofLines_cons (fenced under : Bool) (l : Text) (rest : List Text) :
    ofLines fenced under (l :: rest) = (stated? fenced under l).toList ++
      ofLines (fencedAfter fenced l) (underAfter fenced under l) rest := by
  have hfence : Text.startsWith l.trim Label.fence = decide (Fence l) :=
    Bool.eq_iff_iff.mpr decide_eq_true_iff.symm
  have hhead : Text.startsWith l.trim "#" = decide (Headline l) :=
    Bool.eq_iff_iff.mpr decide_eq_true_iff.symm
  simp only [ofLines, hfence, hhead, stated?, fencedAfter, underAfter, isHeading]
  by_cases hf : Fence l
  · simp [hf, not_headline_of_fence hf]
  · cases fenced with
    | true => simp [hf]
    | false =>
      by_cases hn : l.trim = []
      · simp [hf, hn, not_headline_of_blank hn]
      · by_cases hh : Headline l <;> simp [hf, hn, hh]

theorem outside_succ (hl : ls[n]? = some l) :
    Outside ls (n + 1) ↔ (Fence l ↔ ¬ Outside ls n) := by
  rw [Outside, Outside, List.take_add_one, hl, List.countP_append]
  by_cases hf : Fence l
  · simp [hf, Nat.even_add_one]
  · simp [hf]

theorem underTopic_succ_of_not (h : ¬ HeadingAt ls n) :
    UnderTopic ls (n + 1) ↔ UnderTopic ls n := by
  constructor
  · rintro ⟨j, hj, hh, hm, hlast⟩
    obtain hjn | rfl := Nat.lt_succ_iff_lt_or_eq.mp hj
    · exact ⟨j, hjn, hh, hm, fun k hjk hkn => hlast k hjk (by omega)⟩
    · exact absurd hh h
  · rintro ⟨j, hj, hh, hm, hlast⟩
    refine ⟨j, by omega, hh, hm, fun k hjk hkn => ?_⟩
    obtain hk | rfl := Nat.lt_succ_iff_lt_or_eq.mp hkn
    · exact hlast k hjk hk
    · exact h

theorem underTopic_succ_of_heading (h : HeadingAt ls n) (hl : ls[n]? = some l) :
    UnderTopic ls (n + 1) ↔ Mentions l.trim := by
  constructor
  · rintro ⟨j, hj, -, ⟨l', hl', hm⟩, hlast⟩
    obtain hjn | rfl := Nat.lt_succ_iff_lt_or_eq.mp hj
    · exact absurd h (hlast n hjn n.lt_succ_self)
    · cases hl.symm.trans hl'
      exact hm
  · exact fun hm => ⟨n, n.lt_succ_self, h, ⟨l, hl, hm⟩, fun k hnk hkn => by omega⟩

section

variable (h : Standing ls n fenced under) (hl : ls[n]? = some l)

include h hl

theorem Standing.isHeading_iff : isHeading fenced l = true ↔ HeadingAt ls n := by
  rw [isHeading, Bool.and_eq_true, Bool.not_eq_true', h.outside, HeadingAt, hl]
  simp

theorem Standing.after :
    Standing ls (n + 1) (fencedAfter fenced l) (underAfter fenced under l) := by
  constructor
  · rw [outside_succ hl, ← h.outside, fencedAfter]
    by_cases hf : Fence l
    · cases fenced <;> simp [hf]
    · cases fenced <;> simp [hf]
  · rw [underAfter]
    by_cases hh : HeadingAt ls n
    · rw [underTopic_succ_of_heading hh hl, if_pos ((h.isHeading_iff hl).mpr hh), isTopic_iff]
    · rw [underTopic_succ_of_not hh, if_neg (mt (h.isHeading_iff hl).mp hh), h.under]

theorem Standing.stated?_eq_some_iff :
    stated? fenced under l = some s ↔ Counts ls n ∧ Says l.trim s := by
  have hstate : l.trim ≠ [] → (statement? under l.trim = some s ↔
      ((∃ word ∈ keywords, Uses l.trim word) ∨ UnderTopic ls n ∧ ∃ rest, IsItem l.trim rest) ∧
        Says l.trim s) := fun hn => by
    rw [← h.under]
    exact statement?_eq_some_iff ⟨hn, Text.trim_trim⟩
  rw [stated?, Counts, hl, ← h.outside, Option.ite_none_left_eq_some]
  simp only [not_or, Bool.not_eq_true, Option.mem_def, Option.some.injEq, exists_eq_left']
  constructor
  · rintro ⟨⟨hf, ho, hn, hh⟩, hs⟩
    obtain ⟨hw, hsaid⟩ := (hstate hn).mp hs
    exact ⟨⟨ho, hn, hf, hh, hw⟩, hsaid⟩
  · rintro ⟨⟨ho, hn, hf, hh, hw⟩, hsaid⟩
    exact ⟨⟨hf, ho, hn, hh⟩, (hstate hn).mpr ⟨hw, hsaid⟩⟩

end

theorem Standing.exists_positions (h : Standing ls n fenced under) (hr : ls.drop n = rest) :
    ∃ lines : List Nat, lines.Pairwise (· < ·) ∧ (∀ i, i ∈ lines ↔ n ≤ i ∧ Counts ls i) ∧
      List.Forall₂ (SaysAt ls) lines (ofLines fenced under rest) := by
  induction rest generalizing n fenced under with
  | nil =>
    refine ⟨[], List.Pairwise.nil, fun i => iff_of_false (by simp) ?_, List.Forall₂.nil⟩
    rintro ⟨hni, -, l, hl, -⟩
    have hle := List.drop_eq_nil_iff.mp hr
    rw [List.getElem?_eq_none (hle.trans hni)] at hl
    cases hl
  | cons l rest ih =>
    have hl := Text.getElem?_of_drop hr
    obtain ⟨lines, hsorted, hmem, hlines⟩ := ih (h.after hl) (Text.drop_succ_of_drop hr)
    rw [ofLines_cons]
    cases hs : stated? fenced under l with
    | none =>
      have hn : ¬ Counts ls n := fun hc => by
        cases hs.symm.trans ((h.stated?_eq_some_iff hl).mpr ⟨hc, says_iff.mpr rfl⟩)
      refine ⟨lines, hsorted, fun i => ?_, hlines⟩
      rw [hmem]
      refine and_congr_left fun hc => ⟨fun hi => by omega, fun hi => ?_⟩
      exact Nat.lt_of_le_of_ne hi fun he => hn (he ▸ hc)
    | some s =>
      obtain ⟨hc, hsaid⟩ := (h.stated?_eq_some_iff hl).mp hs
      have habove : ∀ i ∈ lines, n < i := fun i hi => ((hmem i).mp hi).1
      refine ⟨n :: lines, List.pairwise_cons.mpr ⟨habove, hsorted⟩, fun i => ?_, ?_⟩
      · rw [List.mem_cons, hmem]
        constructor
        · rintro (rfl | ⟨hi, hci⟩)
          · exact ⟨le_rfl, hc⟩
          · exact ⟨by omega, hci⟩
        · rintro ⟨hi, hci⟩
          exact (Nat.eq_or_lt_of_le hi).imp Eq.symm fun hi => ⟨hi, hci⟩
      · obtain ⟨-, l', hl', hn, -⟩ := hc
        cases hl.symm.trans hl'
        exact List.Forall₂.cons ⟨hsaid.neat ⟨hn, Text.trim_trim⟩, l, hl, hsaid⟩ hlines

theorem fencedAfter_of_not (h : ¬ Fence l) (fenced : Bool) : fencedAfter fenced l = fenced := by
  rw [fencedAfter, if_neg h]

theorem fencedAfter_of_fence (h : Fence l) (fenced : Bool) : fencedAfter fenced l = !fenced := by
  rw [fencedAfter, if_pos h]

/-- Lines in a block of code state nothing, and leave the heading above them as it was. -/
theorem ofLines_inside (h : ∀ l ∈ inner, ¬ Fence l) (under : Bool) (rest : List Text) :
    ofLines true under (inner ++ rest) = ofLines true under rest := by
  induction inner with
  | nil => rfl
  | cons l inner ih =>
    obtain ⟨hl, hinner⟩ := List.forall_mem_cons.mp h
    rw [List.cons_append, ofLines_cons, fencedAfter_of_not hl]
    simpa [stated?, underAfter, isHeading] using ih hinner

theorem ofLines_fence (h : Fence l) (fenced under : Bool) (rest : List Text) :
    ofLines fenced under (l :: rest) = ofLines (!fenced) under rest := by
  rw [ofLines_cons, fencedAfter_of_fence h]
  simp [stated?, underAfter, isHeading, h, not_headline_of_fence h]

theorem ofLines_block {last : Text} (hl : Fence l) (hlast : Fence last)
    (h : ∀ l ∈ inner, ¬ Fence l) (under : Bool) (rest : List Text) :
    ofLines false under (l :: inner ++ last :: rest) = ofLines false under rest := by
  rw [List.cons_append, ofLines_fence hl, Bool.not_false, ofLines_inside h, ofLines_fence hlast,
    Bool.not_true]

/-- What follows lines that end outside a block of code may be replaced by what states the same. -/
theorem ofLines_append_congr {front back back' : List Text}
    (hf : fenced = false ↔ Even (front.countP fun l => Fence l))
    (h : ∀ under, ofLines false under back = ofLines false under back') :
    ofLines fenced under (front ++ back) = ofLines fenced under (front ++ back') := by
  induction front generalizing fenced under with
  | nil =>
    obtain rfl : fenced = false := hf.mpr (by simp)
    exact h under
  | cons l front ih =>
    rw [List.cons_append, List.cons_append, ofLines_cons, ofLines_cons, ih]
    rw [List.countP_cons] at hf
    by_cases hl : Fence l
    · rw [fencedAfter_of_fence hl]
      cases fenced <;> simpa [hl, Nat.even_add_one] using hf
    · rw [fencedAfter_of_not hl]
      simpa [hl] using hf

/-- The requirements of a text are what the lines say that count, in the order of the lines; a block
of code between two lines of prose changes nothing. -/
theorem ofText_stated (t : Text) :
    (∃ lines : List Nat, lines.Pairwise (· < ·) ∧ (∀ i, i ∈ lines ↔ Counts t.lines i) ∧
      List.Forall₂ (SaysAt t.lines) lines (ofText t)) ∧
    ∀ n, Outside t.lines n → ∀ (first last : Text) (inner : List Text) (t' : Text),
      Fence first → Fence last → (∀ l ∈ inner, ¬ Fence l) →
      t'.lines = t.lines.take n ++ (first :: inner ++ last :: t.lines.drop n) →
      ofText t' = ofText t := by
  constructor
  · have hstart : Standing t.lines 0 false false :=
      ⟨by simp [Outside], by simp [UnderTopic]⟩
    obtain ⟨lines, hsorted, hmem, hlines⟩ := hstart.exists_positions rfl
    exact ⟨lines, hsorted, fun i => by simpa using hmem i, hlines⟩
  · intro n hn first last inner t' hfirst hlast hinner ht
    have hblock : ∀ under, ofLines false under (first :: inner ++ last :: t.lines.drop n) =
        ofLines false under (t.lines.drop n) := fun under =>
      ofLines_block hfirst hlast hinner under _
    rw [ofText, ht, ofLines_append_congr (iff_of_true rfl hn) hblock, List.take_append_drop, ofText]

theorem ofText_stated_block : Outside (Text.lines "# Notes\n- It MUST run.") 1 ∧
    ofText "# Notes\n```sh\n# Requirements\n```\n- It MUST run." =
      ofText "# Notes\n- It MUST run." :=
  ⟨by decide, (ofText_stated "# Notes\n- It MUST run.").2 1 (by decide) "```sh" "```"
    ["# Requirements"] _ (by decide) (by decide) (by decide) (by decide)⟩

end DesignRecords.Requirement
