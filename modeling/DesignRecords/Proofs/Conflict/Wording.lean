import DesignRecords.Conflict.Requirement
import DesignRecords.Proofs.Conflict.Term
import DesignRecords.Proofs.Document.Merged

namespace DesignRecords

variable {c e x : Char} {before t u w : Text}

/-- A small letter of ASCII that no capital outside ASCII becomes by itself. -/
def Unshared (x : Char) : Prop := 97 ≤ x.toNat ∧ x.toNat ≤ 122 ∧ x ≠ 'k'

instance : Decidable (Unshared x) := inferInstanceAs (Decidable (_ ∧ _ ∧ _))

/-- Outside ASCII the Kelvin sign alone becomes a character of ASCII by itself. -/
theorem lowercaseRuns_beyond : ∀ r ∈ lowercaseRuns,
    r.2.1 < 128 ∨ (r.1 = 0x212A ∧ r.2.1 = 0x212A ∧ r.2.2.2 = -8383) ∨
      128 ≤ (r.1 : Int) + r.2.2.2 := by decide +kernel

theorem not_unshared_ofNat {n : Nat} (h : 128 ≤ n) : ¬ Unshared (Char.ofNat n) := by
  rintro ⟨hl, hu, -⟩
  by_cases hv : n.isValidChar
  · rw [Char.ofNat, dif_pos hv] at hu
    have : n ≤ 122 := hu
    omega
  · rw [Char.ofNat, dif_neg hv] at hl
    revert hl
    decide

theorem lowercaseOf_of_ascii (h : c.toNat < 128) : lowercaseOf c = [c.toLower] := by
  have hall : ∀ n : Fin 128, lowercaseOf (Char.ofNat n) = [(Char.ofNat n).toLower] := by
    decide +kernel
  have hc := hall ⟨c.toNat, h⟩
  rwa [Char.ofNat_toNat] at hc

theorem toLower_of_not_ascii (h : 128 ≤ c.toNat) : c.toLower = c := by
  have hn : ¬ (c.val ≥ 'A'.val ∧ c.val ≤ 'Z'.val) := by
    rintro ⟨-, hz⟩
    have : c.toNat ≤ 90 := hz
    omega
  exact dif_neg hn

theorem exists_lowercaseOf_of_not_ascii (h : 128 ≤ c.toNat) (hi : c ≠ 'İ') :
    ∃ e, lowercaseOf c = [e] ∧ ¬ Unshared e := by
  rw [lowercaseOf, if_neg hi]
  simp only
  split
  · refine ⟨c, rfl, ?_⟩
    rintro ⟨-, hu, -⟩
    omega
  next hs =>
    refine ⟨_, rfl, ?_⟩
    obtain ⟨r, hr, hn, hlast, he⟩ := (lowercaseShift_cases c.toNat lowercaseRuns).resolve_left hs
    rcases lowercaseRuns_beyond r hr with ha | ⟨hfirst, hend, hk⟩ | hb
    · omega
    · have hc : c.toNat = 0x212A := by omega
      rw [he, hk, hc]
      decide
    · exact not_unshared_ofNat (by omega)

/-- What a character outside ASCII becomes: the dotted capital `I` two characters, every other one a
character that shares no letter with ASCII but `k`. -/
theorem lowercaseAfter_cons_of_not_ascii (h : 128 ≤ c.toNat) (before t : Text) :
    c = 'İ' ∧ lowercaseAfter before (c :: t) =
      'i' :: '\u0307' :: lowercaseAfter (c :: before) t ∨
    ∃ e, ¬ Unshared e ∧ lowercaseAfter before (c :: t) = e :: lowercaseAfter (c :: before) t := by
  rw [lowercaseAfter]
  by_cases hs : c = 'Σ'
  · right
    rw [if_pos hs]
    refine ⟨_, ?_, rfl⟩
    split
    · decide
    · decide
  · rw [if_neg hs]
    by_cases hi : c = 'İ'
    · subst hi
      exact Or.inl ⟨rfl, rfl⟩
    · obtain ⟨e, he, hu⟩ := exists_lowercaseOf_of_not_ascii h hi
      exact Or.inr ⟨e, hu, by rw [he]; rfl⟩

theorem lowercaseAfter_cons_of_ascii (h : c.toNat < 128) (before t : Text) :
    lowercaseAfter before (c :: t) = c.toLower :: lowercaseAfter (c :: before) t := by
  have hs : c ≠ 'Σ' := by
    rintro rfl
    revert h
    decide
  rw [lowercaseAfter, if_neg hs, lowercaseOf_of_ascii h]
  rfl

/-- A word that the lowercase of a text shows only where it stands in the text in some case of
letters. -/
structure Distinct (w : Text) : Prop where
  unshared : ∀ x ∈ w, Unshared x
  last : w.getLast? ≠ some 'i'

theorem Distinct.tail (h : Distinct (x :: w)) : Distinct w := by
  refine ⟨fun y hy => h.unshared y (List.mem_cons_of_mem x hy), ?_⟩
  cases w with
  | nil => simp
  | cons y w => simpa using h.last

theorem not_unshared_of_not_ascii (h : 128 ≤ c.toNat) : ¬ Unshared c := by
  rintro ⟨-, hu, -⟩
  omega

theorem Distinct.not_prefix_of_not_ascii (h : Distinct (x :: w)) (hc : 128 ≤ c.toNat)
    (before t : Text) : ¬ x :: w <+: lowercaseAfter before (c :: t) := by
  have hx : Unshared x := h.unshared x (by simp)
  rcases lowercaseAfter_cons_of_not_ascii hc before t with ⟨-, he⟩ | ⟨e, hu, he⟩
  · rw [he, List.cons_prefix_cons]
    rintro ⟨rfl, hw⟩
    -- the dot above is no letter, and the word does not end with the `i`
    cases w with
    | nil => exact h.last rfl
    | cons y w =>
      obtain ⟨rfl, -⟩ := List.cons_prefix_cons.mp hw
      exact absurd (h.unshared '\u0307' (by simp)) (by decide)
  · rw [he, List.cons_prefix_cons]
    rintro ⟨rfl, -⟩
    exact hu hx

theorem Distinct.prefix_lowercaseAfter_iff (h : Distinct w) :
    w <+: lowercaseAfter before t ↔ ∃ u, u <+: t ∧ u.map Char.toLower = w := by
  induction w generalizing before t with
  | nil => simp
  | cons x w ih =>
    cases t with
    | nil =>
      refine iff_of_false (by simp [lowercaseAfter]) ?_
      rintro ⟨u, hu, hw⟩
      rw [List.prefix_nil.mp hu] at hw
      cases hw
    | cons c t =>
      by_cases hc : c.toNat < 128
      · rw [lowercaseAfter_cons_of_ascii hc, List.cons_prefix_cons, ih h.tail]
        constructor
        · rintro ⟨rfl, u, hu, rfl⟩
          exact ⟨c :: u, List.cons_prefix_cons.mpr ⟨rfl, hu⟩, rfl⟩
        · rintro ⟨u, hu, hw⟩
          cases u with
          | nil => cases hw
          | cons d u =>
            obtain ⟨rfl, hut⟩ := List.cons_prefix_cons.mp hu
            obtain ⟨hx, hw⟩ := List.cons.inj hw
            exact ⟨hx.symm, u, hut, hw⟩
      · have hc : 128 ≤ c.toNat := Nat.le_of_not_lt hc
        refine iff_of_false (h.not_prefix_of_not_ascii hc before t) ?_
        rintro ⟨u, hu, hw⟩
        cases u with
        | nil => cases hw
        | cons d u =>
          obtain ⟨rfl, -⟩ := List.cons_prefix_cons.mp hu
          have hx : Unshared x := h.unshared x (by simp)
          rw [← (List.cons.inj hw).1, toLower_of_not_ascii hc] at hx
          exact not_unshared_of_not_ascii hc hx

theorem Distinct.infix_cons_iff (h : Distinct w) (hw : w ≠ []) :
    w <:+: lowercaseAfter before (c :: t) ↔
      w <+: lowercaseAfter before (c :: t) ∨ w <:+: lowercaseAfter (c :: before) t := by
  by_cases hc : c.toNat < 128
  · rw [lowercaseAfter_cons_of_ascii hc, List.infix_cons_iff]
  · rcases lowercaseAfter_cons_of_not_ascii (Nat.le_of_not_lt hc) before t with
      ⟨-, he⟩ | ⟨e, -, he⟩
    · have hdot : ¬ w <+: '\u0307' :: lowercaseAfter (c :: before) t := by
        obtain ⟨x, w, rfl⟩ := List.exists_cons_of_ne_nil hw
        rw [List.cons_prefix_cons]
        rintro ⟨rfl, -⟩
        exact absurd (h.unshared '\u0307' (by simp)) (by decide)
      rw [he, List.infix_cons_iff, List.infix_cons_iff, or_iff_right hdot]
    · rw [he, List.infix_cons_iff]

/-- A distinct word stands in the lowercase of a text where it stands in the text in some case of
letters. -/
theorem Distinct.infix_lowercaseAfter_iff (h : Distinct w) (hw : w ≠ []) :
    w <:+: lowercaseAfter before t ↔ ∃ u, u <:+: t ∧ u.map Char.toLower = w := by
  induction t generalizing before with
  | nil => simp [lowercaseAfter, eq_comm]
  | cons c t ih =>
    rw [h.infix_cons_iff hw, h.prefix_lowercaseAfter_iff, ih]
    simp only [List.infix_cons_iff, or_and_right, exists_or]

namespace Text

theorem occursIn_iff : occursIn w t = true ↔ w <:+: t := by
  induction t with
  | nil => simp [occursIn]
  | cons c t ih =>
    rw [occursIn, Bool.or_eq_true, List.isPrefixOf_iff_prefix, ih, List.infix_cons_iff]

end Text

namespace Requirement

variable {line rest s : Text} {under : Bool}

/-- Whether a word stands in a line as a longest run of letters. -/
def Uses (line word : Text) : Prop :=
  (∀ c ∈ word, c.isAlpha = true) ∧ ∃ a b, line = a ++ word ++ b ∧
    (∀ c ∈ a.getLast?, c.isAlpha = false) ∧ ∀ c ∈ b.head?, c.isAlpha = false

/-- The mark of a list item, without the space behind it. -/
inductive Mark : Text → Prop where
  | dash : Mark "-"
  | star : Mark "*"
  | plus : Mark "+"
  | number (digits : Text) (hn : digits ≠ []) (hd : ∀ c ∈ digits, c.isDigit = true) :
      Mark (digits ++ ".")

/-- Whether a line is a list item that says `rest`. -/
def IsItem (line rest : Text) : Prop := ∃ mark, Mark mark ∧ line = mark ++ ' ' :: rest

/-- Whether a line has the word for a requirement in it, in any case of letters. -/
def Mentions (line : Text) : Prop :=
  ∃ a word b, line = a ++ word ++ b ∧ Text.sameIgnoringCase word "requirement" = true

/-- Whether `s` is what a line says, its list mark aside. -/
def Says (line s : Text) : Prop :=
  ∃ rest, s = Text.trim rest ∧ (IsItem line rest ∨ rest = line ∧ ∀ r, ¬ IsItem line r)

theorem mem_splitOnP_iff_uses {word : Text} :
    word ∈ line.splitOnP (!Char.isAlpha ·) ↔ Uses line word := by
  simp [Text.mem_splitOnP_iff, Uses]

theorem isNormative_iff : isNormative line = true ↔ ∃ word ∈ keywords, Uses line word := by
  simp only [isNormative, List.any_eq_true, List.contains_iff_mem, mem_splitOnP_iff_uses, and_comm]

theorem distinct_requirement : Distinct "requirement" := ⟨by decide, by decide⟩

theorem isTopic_iff : isTopic line = true ↔ Mentions line := by
  have hsmall : (("requirement" : Text).map Char.toLower) = "requirement" := by decide
  rw [isTopic, Text.occursIn_iff, Text.lowercase,
    distinct_requirement.infix_lowercaseAfter_iff (by decide)]
  simp only [Mentions, Text.sameIgnoringCase, hsmall, beq_iff_eq]
  constructor
  · rintro ⟨u, ⟨a, b, rfl⟩, hu⟩
    exact ⟨a, u, b, rfl, hu⟩
  · rintro ⟨a, u, b, rfl, hu⟩
    exact ⟨u, ⟨a, b, rfl⟩, hu⟩

theorem numberedItem?_eq_some_iff : numberedItem? line = some rest ↔
    ∃ digits, digits ≠ [] ∧ (∀ c ∈ digits, c.isDigit = true) ∧
      line = digits ++ '.' :: ' ' :: rest := by
  have hdrop := @List.drop_left _ (line.takeWhile Char.isDigit) (line.dropWhile Char.isDigit)
  rw [List.takeWhile_append_dropWhile] at hdrop
  simp only [numberedItem?, hdrop]
  constructor
  · intro h
    split at h
    · cases h
    next hd =>
      have hline := List.isPrefixOf?_eq_some_iff_append_eq.mp h
      refine ⟨line.takeWhile Char.isDigit, by simpa using hd, fun c hc => ?_, ?_⟩
      · exact List.mem_takeWhile_imp hc
      · conv_lhs => rw [← @List.takeWhile_append_dropWhile _ Char.isDigit line, ← hline]
        rfl
  · rintro ⟨digits, hn, hd, rfl⟩
    have hpoint : Char.isDigit '.' = false := by decide
    rw [List.takeWhile_append_of_pos hd, List.dropWhile_append_of_pos hd,
      List.takeWhile_cons_of_neg (by simp [hpoint]), List.dropWhile_cons_of_neg (by simp [hpoint]),
      List.append_nil, if_neg (by simpa using hn)]
    exact List.isPrefixOf?_eq_some_iff_append_eq.mpr rfl

/-- A line that starts with a digit has no list mark of one character. -/
theorem after?_eq_none_of_isDigit (hd : c.isDigit = true) (hx : x.isDigit = false) (s k : Text) :
    Text.after? (x :: k) (c :: s) = none := by
  have hne : (x == c) = false := by
    rw [beq_eq_false_iff_ne]
    rintro rfl
    cases hd.symm.trans hx
  simp [Text.after?, List.isPrefixOf?, hne]

theorem item?_eq_some_iff : item? line = some rest ↔ IsItem line rest := by
  rw [item?, Bullet.item?]
  constructor
  · intro h
    rcases Option.or_eq_some_iff.mp h with h | ⟨-, h⟩
    · rcases Option.or_eq_some_iff.mp h with h | ⟨-, h⟩
      · rcases Option.or_eq_some_iff.mp h with h | ⟨-, h⟩
        · exact ⟨_, Mark.dash, (List.isPrefixOf?_eq_some_iff_append_eq.mp h).symm⟩
        · exact ⟨_, Mark.star, (List.isPrefixOf?_eq_some_iff_append_eq.mp h).symm⟩
      · exact ⟨_, Mark.plus, (List.isPrefixOf?_eq_some_iff_append_eq.mp h).symm⟩
    · obtain ⟨digits, hn, hd, rfl⟩ := numberedItem?_eq_some_iff.mp h
      exact ⟨_, Mark.number digits hn hd, by simp⟩
  · rintro ⟨mark, hmark, rfl⟩
    cases hmark with
    | dash => rfl
    | star => rfl
    | plus => rfl
    | number digits hn hd =>
      have hnumber : numberedItem? (digits ++ "." ++ ' ' :: rest) = some rest :=
        numberedItem?_eq_some_iff.mpr ⟨digits, hn, hd, by simp⟩
      obtain ⟨d, ds, rfl⟩ := List.exists_cons_of_ne_nil hn
      have hmark : ∀ x, Char.isDigit x = false →
          Text.after? [x, ' '] (d :: ds ++ "." ++ ' ' :: rest) = none :=
        fun x hx => after?_eq_none_of_isDigit (hd d (by simp)) hx _ [' ']
      change (((Text.after? ['-', ' '] _).or (Text.after? ['*', ' '] _)).or
        (Text.after? ['+', ' '] _)).or (numberedItem? _) = _
      rw [hmark '-' rfl, hmark '*' rfl, hmark '+' rfl, hnumber]
      rfl

theorem isSome_item?_iff : (item? line).isSome = true ↔ ∃ rest, IsItem line rest := by
  simp only [Option.isSome_iff_exists, item?_eq_some_iff]

theorem says_iff : Says line s ↔ s = Text.trim ((item? line).getD line) := by
  cases h : item? line with
  | none =>
    have hnone : ∀ r, ¬ IsItem line r := fun r hr => by
      cases h.symm.trans (item?_eq_some_iff.mpr hr)
    constructor
    · rintro ⟨rest, rfl, hr | ⟨rfl, -⟩⟩
      · exact absurd hr (hnone rest)
      · rfl
    · exact fun hs => ⟨line, hs, Or.inr ⟨rfl, hnone⟩⟩
  | some r =>
    have hr := item?_eq_some_iff.mp h
    constructor
    · rintro ⟨rest, rfl, hrest | ⟨-, hnone⟩⟩
      · cases h.symm.trans (item?_eq_some_iff.mpr hrest)
        rfl
      · exact absurd hr (hnone r)
    · exact fun hs => ⟨r, hs, Or.inl hr⟩

/-- What a line says that is not blank is not blank either. -/
theorem Says.neat (h : Says line s) (hl : line.Neat) : s.Neat := by
  obtain ⟨rest, rfl, ⟨mark, -, rfl⟩ | ⟨rfl, -⟩⟩ := h
  · refine ⟨fun hr => ?_, Text.trim_trim⟩
    have hb : Text.blank (' ' :: rest) = true := by
      rw [Text.trim_eq_nil] at hr
      simpa [show isBlank ' ' = true from rfl] using hr
    have ht := hl.2
    rw [Text.trim_append_of_blank_right hb] at ht
    have hlen := Text.length_trim_le mark
    rw [ht, List.length_append, List.length_cons] at hlen
    omega
  · rwa [hl.2]

theorem statement?_eq_some_iff (hl : line.Neat) : statement? under line = some s ↔
    ((∃ word ∈ keywords, Uses line word) ∨ under = true ∧ ∃ rest, IsItem line rest) ∧
      Says line s := by
  have hsaid : Says line (Text.trim ((item? line).getD line)) := says_iff.mpr rfl
  have hs : ¬ (Text.trim ((item? line).getD line)).isEmpty = true := by
    simpa using (hsaid.neat hl).1
  rw [← isNormative_iff, ← isSome_item?_iff, says_iff, statement?, if_neg hs]
  simp only [Bool.or_eq_true, Bool.and_eq_true, Option.ite_none_right_eq_some, Option.some.injEq,
    @eq_comm _ s]

end Requirement

end DesignRecords
