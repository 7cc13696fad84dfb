import DesignRecords.Proofs.Document.Gradual

namespace DesignRecords

section

variable {α : Type} {words : α → List Text} {known : List (List Text)} {x : α}
  {xs front back : List α}

/-- What is new agrees neither with what was known nor with anything new before it. -/
theorem not_mem_of_newBy_eq (h : newBy words known xs = front ++ x :: back) :
    words x ∉ known ∧ words x ∉ front.map words := by
  induction xs generalizing known front with
  | nil => simp [newBy] at h
  | cons z xs ih =>
    by_cases hz : words z ∈ known
    · rw [newBy_cons_of_mem hz] at h
      exact ih h
    · rw [newBy_cons_of_not_mem hz] at h
      cases front with
      | nil =>
        obtain ⟨rfl, -⟩ := List.cons.inj h
        exact ⟨hz, List.not_mem_nil⟩
      | cons y front =>
        obtain ⟨rfl, hrest⟩ := List.cons.inj h
        obtain ⟨hknown, hfront⟩ := ih hrest
        obtain ⟨hy, hx⟩ := not_or.mp (mt List.mem_cons.mpr hknown)
        refine ⟨hx, ?_⟩
        rw [List.map_cons, List.mem_cons, not_or]
        exact ⟨hy, hfront⟩

/-- The first of those that agree is new, unless it was known. -/
theorem mem_newBy_of_first (hk : words x ∉ known) (hf : words x ∉ front.map words) :
    x ∈ newBy words known (front ++ x :: back) := by
  have hx : words x ∉ front.map words ++ known := by
    rw [List.mem_append, not_or]
    exact ⟨hf, hk⟩
  rw [newBy_append, newBy_cons_of_not_mem hx]
  exact List.mem_append_right _ List.mem_cons_self

/-- Whether a list has taken in `added` of the entries that were offered to it: in their order,
leaving out those that agree in their words with an entry before them, and no others. -/
structure TakenIn (text : α → Text) (old offered added : List α) : Prop where
  ordered : added.Sublist offered
  complete : ∀ x ∈ offered, ∃ y ∈ old ++ added, (text y).sameWords (text x) = true
  minimal : ∀ front x back, added = front ++ x :: back →
    ∀ y ∈ old ++ front, (text y).sameWords (text x) = false
  earliest : ∀ front x back, offered = front ++ x :: back →
    (∀ y ∈ old ++ front, (text y).sameWords (text x) = false) → x ∈ added

theorem Text.sameWords_iff {s t : Text} : s.sameWords t = true ↔ s.words = t.words := beq_iff_eq

theorem forall_not_sameWords {text : α → Text} {old : List α} :
    (∀ y ∈ old ++ front, (text y).sameWords (text x) = false) ↔
      (text x).words ∉ old.map (fun y => (text y).words) ∧
        (text x).words ∉ front.map fun y => (text y).words := by
  simp only [← Bool.not_eq_true, Text.sameWords_iff, List.mem_map, not_exists, not_and,
    List.forall_mem_append]

theorem takenIn_newBy (text : α → Text) (old offered : List α) :
    TakenIn text old offered
      (newBy (fun x => (text x).words) (old.map fun x => (text x).words) offered) where
  ordered := Document.newBy_sublist _ _ _
  complete x hx := by
    obtain ⟨y, hy, he⟩ := words_mem_mergedBy (fun x => (text x).words) old hx
    exact ⟨y, hy, Text.sameWords_iff.mpr he⟩
  minimal front x back h := forall_not_sameWords.mpr (not_mem_of_newBy_eq h)
  earliest front x back h hn := by
    obtain ⟨hold, hfront⟩ := forall_not_sameWords.mp hn
    rw [h]
    exact mem_newBy_of_first hold hfront

/-- Whether a list has become `all` by taking in `n` of the entries that were offered to it. -/
def Enlarged (text : α → Text) (old offered : List α) (n : Nat) (all : List α) : Prop :=
  ∃ added, all = old ++ added ∧ added.length = n ∧ TakenIn text old offered added

theorem enlarged_mergedBy (text : α → Text) (old offered : List α) :
    let all := mergedBy (fun x => (text x).words) old offered
    Enlarged text old offered (all.length - old.length) all :=
  ⟨_, rfl, by rw [mergedBy, List.length_append, Nat.add_sub_cancel_left],
    takenIn_newBy text old offered⟩

end

theorem Communication.attribution_ne_nil (c : Communication) : c.attribution ≠ [] := by
  unfold attribution
  dsimp only
  split
  · exact List.cons_ne_nil _ _
  next hn =>
    split
    next hc =>
      intro hs
      simp [hs, hc] at hn
    next hc =>
      split
      · exact fun h => hc (by rw [h]; rfl)
      · simp

namespace Document

/-- Whether a document has become `e` by taking in what messages tell of, those of `told` as
requirements and those of `retold` as decisions, and some links, with `added` as the numbers of its
new entries. -/
structure Absorbs (d : Document) (told retold : List Communication) (links : List Text)
    (added : Additions) (e : Document) : Prop where
  rest : { e with
    requirements := d.requirements, decisions := d.decisions, adrs := d.adrs,
    updated := d.updated } = d
  requirements : Enlarged id d.requirements
    ((told.filter (·.tags.contains .requirement)).map (·.content)) added.requirements e.requirements
  decisions : Enlarged (·.decision) d.decisions
    ((retold.filter (·.tags.contains .decision)).map (·.toDecision)) added.decisions e.decisions
  adrs : Enlarged id d.adrs links added.adrs e.adrs
  entries : ∀ x ∈ e.decisions.drop d.decisions.length, ∃ c ∈ retold, .decision ∈ c.tags ∧
    x = ⟨c.content, c.topic.trim, x.source, some c.date.date, true⟩ ∧ x.source ≠ []

theorem absorbs_merged (d : Document) (told retold : List Communication) (links : List Text)
    (o : Option Instant) :
    let m := d.merged (Communication.requirements told) (Communication.decisions retold) links
    d.Absorbs told retold links (.between d m) { m with updated := o } where
  rest := rfl
  requirements := enlarged_mergedBy id d.requirements _
  decisions := enlarged_mergedBy (·.decision) d.decisions _
  adrs := enlarged_mergedBy id d.adrs links
  entries x hx := by
    have hnew : x ∈ newBy (fun x => x.decision.words) (d.decisions.map fun x => x.decision.words)
        (Communication.decisions retold) := by
      simpa [merged, mergedBy] using hx
    obtain ⟨c, hc, rfl⟩ := List.mem_map.mp (mem_of_mem_newBy hnew)
    obtain ⟨hc, htag⟩ := List.mem_filter.mp hc
    exact ⟨c, hc, List.contains_iff_mem.mp htag, rfl, c.attribution_ne_nil⟩

end Document

end DesignRecords
