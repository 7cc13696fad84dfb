import DesignRecords.Proofs.Document.Outline

namespace DesignRecords.Section

/-- Whether the lines behind line `j` and above line `n` are blank. -/
def BlankBetween (ls : List Text) (j n : Nat) : Prop :=
  ∀ k, j < k → k < n → ∀ l ∈ ls[k]?, Text.blank l = true

/-- The fence that the section whose header is line `j` opens with: its first line that is not blank
is the fence line `o`, and the next fence line, `c`, names no language. -/
structure LeadingFence (ls : List Text) (j o c : Nat) : Prop where
  below : j < o
  blank : BlankBetween ls j o
  opens : ∃ l ∈ ls[o]?, isFence l = true
  after : o < c
  inside : ∀ k, o < k → k < c → ∀ l ∈ ls[k]?, isFence l = false
  closes : ∃ l ∈ ls[c]?, isBareFence l = true

/-- Whether line `i` starts a section: it is a header, and the fence that an earlier section opens
with does not hide it. -/
def Starts (ls : List Text) (i : Nat) : Prop :=
  (∃ l ∈ ls[i]?, isHeader l = true) ∧
    ∀ j, j < i → Starts ls j → ∀ o c, LeadingFence ls j o c → ¬ (o ≤ i ∧ i ≤ c)
termination_by i

/-- Whether the fences that the sections above line `n` open with end above it as well. -/
def Settled (ls : List Text) (n : Nat) : Prop :=
  ∀ j < n, Starts ls j → ∀ o c, LeadingFence ls j o c → c < n

/-- What a place says of the lines above line `n`. -/
def Place.Follows (ls : List Text) (n : Nat) : Place → Prop
  | .preamble => ∀ j < n, ¬ Starts ls j
  | .opening => ∃ j < n, Starts ls j ∧ BlankBetween ls j n
  | .fenced (left + 1) => ∃ j o, Starts ls j ∧ LeadingFence ls j o (n + left) ∧ o < n
  | .fenced 0 | .prose => Settled ls n

/-- The numbers of the head lines of some groups, the first of which is line `n`. -/
def headLines {α β : Type} (n : Nat) : List (α × List β) → List Nat
  | [] => []
  | g :: groups => n :: headLines (n + 1 + g.2.length) groups

variable {ls rest : List Text} {l : Text} {i j k n o o' c c' : Nat} {place : Place}

theorem BlankBetween.succ (h : BlankBetween ls j n) (hl : ls[n]? = some l)
    (hb : Text.blank l = true) : BlankBetween ls j (n + 1) := by
  intro k hjk hkn x hx
  obtain hk | rfl := Nat.lt_succ_iff_lt_or_eq.mp hkn
  · exact h k hjk hk x hx
  · cases hx.symm.trans hl
    exact hb

theorem Starts.isHeader (h : Starts ls i) (hl : ls[i]? = some l) : isHeader l = true := by
  rw [Starts] at h
  obtain ⟨⟨l', hl', hh⟩, -⟩ := h
  cases hl.symm.trans hl'
  exact hh

theorem Starts.not_blank (h : Starts ls i) : ¬ ∀ l ∈ ls[i]?, Text.blank l = true := by
  intro hb
  rw [Starts] at h
  obtain ⟨⟨l, hl, hh⟩, -⟩ := h
  have hn := not_blank_of_isHeader hh
  rw [hb l hl] at hn
  cases hn

/-- The fence that a section opens with ends before the next section starts. -/
theorem LeadingFence.lt_of_starts (hf : LeadingFence ls j o c) (hj : Starts ls j)
    (hi : Starts ls i) (hji : j < i) : c < i := by
  have hio : o ≤ i := by
    by_contra hlt
    exact hi.not_blank (hf.blank i hji (by omega))
  rw [Starts] at hi
  have hout := hi.2 j hji hj o c hf
  omega

theorem LeadingFence.le_opens (hf : LeadingFence ls j o c) (hb : BlankBetween ls j n) :
    n ≤ o := by
  by_contra hlt
  obtain ⟨l, hl, hfence⟩ := hf.opens
  have hn := not_blank_of_isFence hfence
  rw [hb o hf.below (by omega) l hl] at hn
  cases hn

/-- The fence that a section opens with starts at the section's first line that is not blank. -/
theorem LeadingFence.opens_eq (hf : LeadingFence ls j o c) (hb : BlankBetween ls j n) (hjn : j < n)
    (hl : ls[n]? = some l) (hblank : Text.blank l = false) : o = n := by
  refine le_antisymm ?_ (hf.le_opens hb)
  by_contra hlt
  have hn := hf.blank n hjn (by omega) l hl
  rw [hblank] at hn
  cases hn

theorem LeadingFence.closes_le (hf : LeadingFence ls j o c) (hf' : LeadingFence ls j o c') :
    c' ≤ c := by
  by_contra hlt
  obtain ⟨l, hl, hbare⟩ := hf.closes
  have hn := isFence_of_isBareFence hbare
  rw [hf'.inside c hf.after (by omega) l hl] at hn
  cases hn

/-- A section opens with one fence at most. -/
theorem LeadingFence.unique (hf : LeadingFence ls j o c) (hf' : LeadingFence ls j o' c') :
    o = o' ∧ c = c' := by
  obtain rfl : o = o' := le_antisymm (hf'.le_opens hf.blank) (hf.le_opens hf'.blank)
  exact ⟨rfl, le_antisymm (hf'.closes_le hf) (hf.closes_le hf')⟩

theorem LeadingFence.settled (hf : LeadingFence ls j o c) (hj : Starts ls j) :
    Settled ls (c + 1) := by
  have hjc : j < c := hf.below.trans hf.after
  intro i hi hstart o' c' hf'
  rcases lt_trichotomy i j with hij | rfl | hji
  · have := hf'.lt_of_starts hstart hj hij
    omega
  · obtain ⟨-, rfl⟩ := hf.unique hf'
    omega
  · have := hf.lt_of_starts hj hstart hji
    omega

/-- Of the sections above line `n`, with blank lines alone between the header of one of them and
that line, only this one can open with a fence that ends behind its header. -/
theorem Starts.eq_or_lt (hj : Starts ls j) (hb : BlankBetween ls j n) (hi : Starts ls i)
    (hin : i < n) (hf : LeadingFence ls i o c) : i = j ∨ c < j := by
  rcases lt_trichotomy i j with hij | rfl | hji
  · exact Or.inr (hf.lt_of_starts hi hj hij)
  · exact Or.inl rfl
  · exact absurd (hb i hji hin) hi.not_blank

theorem Settled.succ (h : Settled ls n) (hn : ¬ Starts ls n) : Settled ls (n + 1) := by
  intro j hj hs o c hf
  obtain hjn | rfl := Nat.lt_succ_iff_lt_or_eq.mp hj
  · exact (h j hjn hs o c hf).trans n.lt_succ_self
  · exact absurd hs hn

theorem LeadingFence.isFence (hf : LeadingFence ls j o c) (hl : ls[o]? = some l) :
    isFence l = true := by
  obtain ⟨l', hl', hfence⟩ := hf.opens
  cases hl.symm.trans hl'
  exact hfence

theorem starts_iff (hl : ls[n]? = some l) (hout : Section.isHeader l = true → ∀ j < n,
    Starts ls j → ∀ o c, LeadingFence ls j o c → ¬ (o ≤ n ∧ n ≤ c)) :
    Starts ls n ↔ Section.isHeader l = true := by
  refine ⟨fun hs => hs.isHeader hl, fun hh => ?_⟩
  rw [Starts]
  exact ⟨⟨l, hl, hh⟩, hout hh⟩

theorem Settled.starts_iff (h : Settled ls n) (hl : ls[n]? = some l) :
    Starts ls n ↔ Section.isHeader l = true := by
  refine Section.starts_iff hl fun _ j hj hs o c hf => ?_
  have := h j hj hs o c hf
  omega

/-- A line is marked exactly if it starts a section. -/
theorem Place.Follows.marks_iff (h : place.Follows ls n) (hl : ls[n]? = some l) :
    place.marks l = true ↔ Starts ls n := by
  match place, h with
  | .preamble, h => exact (starts_iff hl fun _ j hj hs => absurd hs (h j hj)).symm
  | .fenced 0, h | .prose, h => exact (Settled.starts_iff h hl).symm
  | .fenced (left + 1), ⟨j, o, hj, hf, hon⟩ =>
    have hjo := hf.below
    have hn : ¬ Starts ls n := fun hs => by
      have := hf.lt_of_starts hj hs (by omega)
      omega
    exact iff_of_false Bool.false_ne_true hn
  | .opening, ⟨j, hjn, hj, hb⟩ =>
    refine (starts_iff hl fun hh i hin hs o c hf hon => ?_).symm
    obtain rfl | hcj := hj.eq_or_lt hb hs hin hf
    · -- the header would be the fence itself
      obtain rfl : o = n := le_antisymm hon.1 (hf.le_opens hb)
      cases (isFence_of_isHeader hh).symm.trans (hf.isFence hl)
    · omega

theorem fencedLines?_pos (h : fencedLines? ls = some n) : 0 < n := by
  cases ls with
  | nil => cases h
  | cons l ls =>
    rw [fencedLines?] at h
    split at h
    · split at h
      · cases h
        exact Nat.one_pos
      · cases h
    · obtain ⟨m, -, rfl⟩ := Option.map_eq_some_iff.mp h
      exact m.succ_pos

/-- A block of code ends with the first fence behind its start, which is to name no language. -/
theorem fencedLines?_eq_some_succ : fencedLines? ls = some (n + 1) ↔
    (∃ l ∈ ls[n]?, isBareFence l = true) ∧ ∀ k < n, ∀ l ∈ ls[k]?, isFence l = false := by
  induction ls generalizing n with
  | nil => simp [fencedLines?]
  | cons l ls ih =>
    rw [fencedLines?]
    cases hf : isFence l with
    | true =>
      cases n with
      | zero => cases hb : isBareFence l <;> simp [hb]
      | succ n =>
        refine iff_of_false (by cases hb : isBareFence l <;> simp) ?_
        rintro ⟨-, hnone⟩
        exact Bool.noConfusion ((hnone 0 n.succ_pos l rfl).symm.trans hf)
    | false =>
      have hb : isBareFence l = false := by
        rw [← Bool.not_eq_true]
        exact fun hb => Bool.noConfusion (hf.symm.trans (isFence_of_isBareFence hb))
      cases n with
      | zero =>
        have hz : ¬ fencedLines? ls = some 0 := fun h => (fencedLines?_pos h).ne rfl
        simpa [hb] using hz
      | succ n =>
        rw [Nat.forall_lt_succ_left']
        simp [hf, ih]

/-- A section whose first line that is not blank opens no block of code hides nothing. -/
theorem Starts.settled (hj : Starts ls j) (hjn : j < n) (hb : BlankBetween ls j n)
    (hl : ls[n]? = some l) (hblank : Text.blank l = false) (hn : ¬ Starts ls n)
    (hnone : ∀ c, ¬ LeadingFence ls j n c) : Settled ls (n + 1) := by
  intro i hi hs o c hf
  obtain hin | rfl := Nat.lt_succ_iff_lt_or_eq.mp hi
  · obtain rfl | hcj := hj.eq_or_lt hb hs hin hf
    · cases hf.opens_eq hb hjn hl hblank
      exact absurd hf (hnone c)
    · omega
  · exact absurd hs hn

section

variable (hl : ls.drop n = l :: rest)

include hl

theorem getElem?_behind (k : Nat) : ls[n + 1 + k]? = rest[k]? := by
  rw [← Text.drop_succ_of_drop hl, List.getElem?_drop]

/-- The fence at line `n` that a section opens with is closed by what the lines behind it give. -/
theorem leadingFence_iff (hjn : j < n) (hf : isFence l = true) (hb : BlankBetween ls j n) :
    LeadingFence ls j n (n + 1 + k) ↔ fencedLines? rest = some (k + 1) := by
  rw [fencedLines?_eq_some_succ]
  constructor
  · intro h
    refine ⟨?_, fun i hi x hx => h.inside (n + 1 + i) (by omega) (by omega) x ?_⟩
    · rw [← getElem?_behind hl]
      exact h.closes
    · rwa [getElem?_behind hl]
  · rintro ⟨hc, hi⟩
    refine ⟨hjn, hb, ⟨l, Text.getElem?_of_drop hl, hf⟩, by omega, fun i hni hik x hx => ?_, ?_⟩
    · obtain ⟨i, rfl⟩ := Nat.exists_eq_add_of_le hni
      rw [getElem?_behind hl] at hx
      exact hi i (by omega) x hx
    · rwa [getElem?_behind hl]

theorem Place.Follows.after_opening (hh : Section.isHeader l = false)
    (h : Place.opening.Follows ls n) : (Place.opening.after l rest).Follows ls (n + 1) := by
  have hln := Text.getElem?_of_drop hl
  have hn : ¬ Starts ls n := fun hs => Bool.noConfusion (hh.symm.trans (hs.isHeader hln))
  obtain ⟨j, hjn, hj, hb⟩ := h
  cases hblank : Text.blank l with
  | true =>
    have ha : Place.opening.after l rest = .opening := by simp [Place.after, hh, hblank]
    rw [ha]
    exact ⟨j, hjn.trans n.lt_succ_self, hj, hb.succ hln hblank⟩
  | false =>
    -- the section's first line that is not blank: what it opens with is decided here
    have hsettled := hj.settled hjn hb hln hblank hn
    cases hf : isFence l with
    | false =>
      have ha : Place.opening.after l rest = .prose := by simp [Place.after, hh, hblank, hf]
      rw [ha]
      exact hsettled fun c hc => Bool.noConfusion (hf.symm.trans (hc.isFence hln))
    | true =>
      cases hm : fencedLines? rest with
      | none =>
        have ha : Place.opening.after l rest = .prose := by simp [Place.after, hh, hblank, hf, hm]
        rw [ha]
        refine hsettled fun c hc => ?_
        obtain ⟨k, rfl⟩ := Nat.exists_eq_add_of_le hc.after
        cases hm.symm.trans ((leadingFence_iff hl hjn hf hb).mp hc)
      | some m =>
        have ha : Place.opening.after l rest = .fenced m := by
          simp [Place.after, hh, hblank, hf, hm]
        obtain ⟨k, rfl⟩ := Nat.exists_eq_add_one_of_ne_zero (fencedLines?_pos hm).ne'
        rw [ha]
        exact ⟨j, n, hj, (leadingFence_iff hl hjn hf hb).mpr hm, n.lt_succ_self⟩

/-- What a place says of the lines above holds of the next line's place too. -/
theorem Place.Follows.after (h : place.Follows ls n) :
    (place.after l rest).Follows ls (n + 1) := by
  have hln := Text.getElem?_of_drop hl
  cases hm : place.marks l with
  | true =>
    rw [Place.after_of_marks hm]
    exact ⟨n, n.lt_succ_self, (h.marks_iff hln).mp hm, fun k hnk hkn => by omega⟩
  | false =>
    have hn : ¬ Starts ls n := fun hs => Bool.noConfusion (hm.symm.trans ((h.marks_iff hln).mpr hs))
    match place, h, hm with
    | .opening, h, hh => exact Place.Follows.after_opening hl hh h
    | .preamble, h, hh =>
      have hh : Section.isHeader l = false := hh
      have ha : Place.preamble.after l rest = .preamble := by simp [Place.after, hh]
      rw [ha]
      intro j hj
      obtain hjn | rfl := Nat.lt_succ_iff_lt_or_eq.mp hj
      · exact h j hjn
      · exact hn
    | .prose, h, hh | .fenced 0, h, hh =>
      have hh : Section.isHeader l = false := hh
      simpa [Place.after, Place.Follows, hh] using Settled.succ h hn
    | .fenced 1, ⟨j, o, hj, hf, hon⟩, _ => exact hf.settled hj
    | .fenced (left + 2), ⟨j, o, hj, hf, hon⟩, _ =>
      refine ⟨j, o, hj, ?_, hon.trans n.lt_succ_self⟩
      rwa [Nat.add_right_comm]

end

/-- Of lines the first of which is line `n`, those are marked that start a section. -/
theorem Place.Follows.marked_iff (h : place.Follows ls n) (hr : ls.drop n = rest) {m : Bool × Text}
    (hm : (marked place rest)[k]? = some m) : m.1 = true ↔ Starts ls (n + k) := by
  induction rest generalizing place n k with
  | nil => simp [marked] at hm
  | cons l rest ih =>
    rw [marked_cons] at hm
    cases k with
    | zero =>
      cases hm
      exact h.marks_iff (Text.getElem?_of_drop hr)
    | succ k =>
      have hk : n + 1 + k = n + (k + 1) := by omega
      exact hk ▸ ih (h.after hr) (Text.drop_succ_of_drop hr) hm

section

variable {α : Type} {isHead : α → Bool}

/-- Grouping leaves the items as they are. -/
theorem grouped_flatten (xs : List α) :
    (grouped isHead xs).1 ++ (grouped isHead xs).2.flatMap (fun g => g.1 :: g.2) = xs := by
  induction xs with
  | nil => rfl
  | cons x xs ih => cases hx : isHead x <;> simp [grouped, hx, ih]

theorem isHead_of_mem_grouped {xs : List α} {g : α × List α} (hg : g ∈ (grouped isHead xs).2) :
    isHead g.1 = true := by
  induction xs with
  | nil => cases hg
  | cons x xs ih =>
    cases hx : isHead x with
    | true =>
      simp only [grouped, hx, if_true, List.mem_cons] at hg
      rcases hg with rfl | hg
      · exact hx
      · exact ih hg
    | false =>
      simp only [grouped, hx] at hg
      exact ih hg

/-- The groups start at the items that are heads. -/
theorem mem_headLines_grouped {xs : List α} (n : Nat) :
    i ∈ headLines (n + (grouped isHead xs).1.length) (grouped isHead xs).2 ↔
      ∃ k, i = n + k ∧ ∃ x ∈ xs[k]?, isHead x = true := by
  induction xs generalizing n with
  | nil => simp [grouped, headLines]
  | cons x xs ih =>
    have hk : ∀ k, n + 1 + k = n + (k + 1) := fun k => by omega
    have hi := ih (n + 1)
    simp only [hk] at hi
    rw [← Nat.or_exists_add_one]
    cases hx : isHead x with
    | true => simp [grouped, hx, headLines, hk, hi]
    | false => simp [grouped, hx, hi]

end

theorem headLines_map {α β γ δ : Type} (f : α → β) (h : γ → δ) (n : Nat)
    (groups : List (α × List γ)) :
    headLines n (groups.map fun g => (f g.1, g.2.map h)) = headLines n groups := by
  induction groups generalizing n with
  | nil => rfl
  | cons g groups ih => simp [headLines, ih]

theorem exists_leadingFence_of_not_starts (hh : ∃ l ∈ ls[i]?, isHeader l = true)
    (h : ¬ Starts ls i) : ∃ j, Starts ls j ∧ ∃ o c, LeadingFence ls j o c ∧ o ≤ i ∧ i ≤ c := by
  rw [Starts] at h
  push Not at h
  obtain ⟨j, -, hj, o, c, hf, hoc⟩ := h hh
  exact ⟨j, hj, o, c, hf, hoc⟩

theorem mem_headLines_marked : i ∈ headLines (grouped (·.1) (marked .preamble ls)).1.length
    (grouped (·.1) (marked .preamble ls)).2 ↔ Starts ls i := by
  have hstart : Place.preamble.Follows ls 0 := fun j hj => absurd hj j.not_lt_zero
  rw [← Nat.zero_add (grouped _ _).1.length, mem_headLines_grouped]
  constructor
  · rintro ⟨k, rfl, m, hm, hmark⟩
    exact (hstart.marked_iff rfl hm).mp hmark
  · intro hs
    have hline : ((marked .preamble ls).map (·.2))[i]? ≠ none := by
      rw [marked_lines]
      intro hnone
      exact hs.not_blank (by simp [hnone])
    rw [List.getElem?_map, Ne, Option.map_eq_none_iff] at hline
    obtain ⟨m, hm⟩ := Option.ne_none_iff_exists'.mp hline
    exact ⟨i, (Nat.zero_add i).symm, m, hm, (hstart.marked_iff rfl hm).mpr (by rwa [Nat.zero_add])⟩

theorem isHeader_of_mem_grouped {g : (Bool × Text) × List (Bool × Text)}
    (hg : g ∈ (grouped (·.1) (marked place ls)).2) : isHeader g.1.2 = true := by
  have hmem : g.1 ∈ marked place ls := by
    rw [← @grouped_flatten _ (·.1) (marked place ls)]
    exact List.mem_append_right _ (List.mem_flatMap.mpr ⟨g, hg, List.mem_cons_self⟩)
  exact isHeader_of_mem_marked hmem (isHead_of_mem_grouped hg)

theorem header_append_drop (h : isHeader l = true) : ("## " : Text) ++ l.drop 3 = l := by
  obtain ⟨s, rfl⟩ := isHeader_iff.mp h
  rfl

/-- A text is cut exactly at the headers that no leading fence hides: put together again, the lines
above the first section and those of each section are the lines of the text. -/
theorem split_partition (t : Text) : ∃ (front : List Text) (groups : List (Text × List Text)),
    t.lines = front ++ groups.flatMap (fun g => (("## " : Text) ++ g.1) :: g.2) ∧
    split t = (Text.ofLines front,
      groups.map fun g => ⟨Text.trim g.1, Text.trim (Text.ofLines g.2)⟩) ∧
    (∀ i, i ∈ headLines front.length groups ↔ Starts t.lines i) ∧
    ∀ i, (∃ l ∈ t.lines[i]?, isHeader l = true) → i ∉ headLines front.length groups →
      ∃ j ∈ headLines front.length groups, ∃ o c, LeadingFence t.lines j o c ∧ o ≤ i ∧ i ≤ c := by
  have hlines := congrArg (List.map (·.2)) (@grouped_flatten _ (·.1) (marked .preamble t.lines))
  have hheads := fun g => @isHeader_of_mem_grouped t.lines .preamble g
  have hstarts := fun i => @mem_headLines_marked t.lines i
  obtain ⟨⟨front, groups⟩, hcut⟩ : ∃ cut, grouped (·.1) (marked .preamble t.lines) = cut := ⟨_, rfl⟩
  rw [hcut] at hlines
  simp only [hcut] at hheads hstarts
  rw [marked_lines, List.map_append, List.map_flatMap] at hlines
  have hsections : ∀ i, i ∈ headLines (front.map (·.2)).length
      (groups.map fun g => (g.1.2.drop 3, g.2.map (·.2))) ↔ Starts t.lines i := by
    intro i
    rw [headLines_map (fun m : Bool × Text => m.2.drop 3), List.length_map]
    exact hstarts i
  refine ⟨front.map (·.2), groups.map fun g => (g.1.2.drop 3, g.2.map (·.2)), ?_, ?_, hsections, ?_⟩
  · have hgroup : ∀ g ∈ groups, (g.1 :: g.2).map (·.2) =
        (("## " : Text) ++ g.1.2.drop 3) :: g.2.map (·.2) := fun g hg => by
      rw [header_append_drop (hheads g hg), List.map_cons]
    rw [← hlines, List.flatMap_map]
    exact congrArg _ (List.flatMap_congr hgroup)
  · rw [split, hcut]
    simp [ofLines, Function.comp_def]
  · intro i hh hi
    obtain ⟨j, hj, hf⟩ := exists_leadingFence_of_not_starts hh (mt (hsections i).mpr hi)
    exact ⟨j, (hsections j).mpr hj, hf⟩

end DesignRecords.Section
