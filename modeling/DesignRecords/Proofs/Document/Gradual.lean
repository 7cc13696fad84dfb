import DesignRecords.Proofs.Document.Repeated

namespace DesignRecords

section

variable {α : Type} {words : α → List Text} {known known' : List (List Text)} {x : α}
  {xs ys : List α}

theorem newBy_cons_of_mem (h : words x ∈ known) :
    newBy words known (x :: xs) = newBy words known xs := by
  rw [newBy]
  simp [h]

theorem newBy_cons_of_not_mem (h : words x ∉ known) :
    newBy words known (x :: xs) = x :: newBy words (words x :: known) xs := by
  rw [newBy]
  simp [h]

/-- What is new depends on what is known alone, not on how often or in which order it is. -/
theorem newBy_congr (h : ∀ ws, ws ∈ known ↔ ws ∈ known') :
    newBy words known xs = newBy words known' xs := by
  induction xs generalizing known known' with
  | nil => rfl
  | cons x xs ih =>
    by_cases hx : words x ∈ known
    · rw [newBy_cons_of_mem hx, newBy_cons_of_mem ((h _).mp hx), ih h]
    · have hrest : newBy words (words x :: known) xs = newBy words (words x :: known') xs :=
        ih fun ws => by simp [h]
      rw [newBy_cons_of_not_mem hx, newBy_cons_of_not_mem (mt (h _).mpr hx), hrest]

/-- Behind some entries, those are new that were new without them and are not among them. -/
theorem newBy_append (known : List (List Text)) (xs ys : List α) :
    newBy words known (xs ++ ys) =
      newBy words known xs ++ newBy words (xs.map words ++ known) ys := by
  induction xs generalizing known with
  | nil => rfl
  | cons x xs ih =>
    by_cases hx : words x ∈ known
    · rw [List.cons_append, newBy_cons_of_mem hx, newBy_cons_of_mem hx, ih]
      refine congrArg (_ ++ ·) (newBy_congr fun ws => ?_)
      simp only [List.map_cons, List.cons_append, List.mem_cons, List.mem_append]
      constructor
      · exact Or.inr
      · rintro (rfl | h)
        · exact Or.inr hx
        · exact h
    · rw [List.cons_append, newBy_cons_of_not_mem hx, newBy_cons_of_not_mem hx, ih,
        List.cons_append]
      refine congrArg (x :: _ ++ ·) (newBy_congr fun ws => ?_)
      simp only [List.map_cons, List.cons_append, List.mem_cons, List.mem_append]
      tauto

theorem newBy_map_append (xs : List α) (known : List (List Text)) :
    newBy words (xs.map words ++ known) xs = [] :=
  newBy_eq_nil.mpr fun _ hx => List.mem_append_left _ (List.mem_map_of_mem hx)

end

/-- Whether writing entries and reading them back keeps their words, loses those without words
alone, and changes nothing that has been read back before. -/
structure Settles {α : Type} (words : α → List Text) (text : α → Text) (settle : α → α) :
    Prop where
  same : ∀ x, words (settle x) = words x
  kept : ∀ x, text (settle x) = [] ↔ words x = []
  steady : ∀ x, settle (settle x) = settle x

theorem settles_flat : Settles Text.words id Text.flat where
  same := Text.words_flat
  kept x := by rw [id, Text.flat_eq_nil, Text.words_eq_nil]
  steady := Text.flat_flat

theorem Decision.settled_settled (x : Decision) : x.settled.settled = x.settled := by
  simp only [settled, Text.flat_flat]

theorem settles_decision :
    Settles (fun x : Decision => x.decision.words) (fun x => x.decision) Decision.settled where
  same x := Text.words_flat x.decision
  kept x := by rw [Decision.settled, Text.flat_eq_nil, Text.words_eq_nil]
  steady := Decision.settled_settled

section

variable {α : Type} {words : α → List Text} {text : α → Text} {settle : α → α}
  {known known' : List (List Text)} {x : α} {xs : List α} {ws : List Text}

theorem settledBy_append (xs ys : List α) :
    settledBy text settle (xs ++ ys) = settledBy text settle xs ++ settledBy text settle ys := by
  simp only [settledBy, List.map_append, List.filter_append]

theorem mem_settledBy : x ∈ settledBy text settle xs ↔
    ∃ y ∈ xs, text (settle y) ≠ [] ∧ settle y = x := by
  simp only [settledBy, List.mem_filter, List.mem_map, decide_eq_true_eq]
  constructor
  · rintro ⟨⟨y, hy, rfl⟩, hn⟩
    exact ⟨y, hy, hn, rfl⟩
  · rintro ⟨y, hy, hn, rfl⟩
    exact ⟨⟨y, hy, rfl⟩, hn⟩

namespace Settles

variable (h : Settles words text settle)

include h

theorem settledBy_settledBy (xs : List α) :
    settledBy text settle (settledBy text settle xs) = settledBy text settle xs := by
  have hs : ∀ x ∈ settledBy text settle xs, settle x = x := by
    intro x hx
    obtain ⟨y, -, -, rfl⟩ := mem_settledBy.mp hx
    exact h.steady y
  conv_lhs => rw [settledBy, List.map_congr_left hs, List.map_id', settledBy, List.filter_filter]
  simp only [Bool.and_self, settledBy]

theorem settledBy_cons_of_wordless (hx : words x = []) (xs : List α) :
    settledBy text settle (x :: xs) = settledBy text settle xs := by
  have he : text (settle x) = [] := (h.kept x).mpr hx
  rw [settledBy, List.map_cons, List.filter_cons_of_neg (by simp [he])]
  rfl

theorem mem_words_settledBy (hn : ws ≠ []) :
    ws ∈ (settledBy text settle xs).map words ↔ ws ∈ xs.map words := by
  simp only [List.mem_map, mem_settledBy]
  constructor
  · rintro ⟨_, ⟨x, hx, -, rfl⟩, rfl⟩
    exact ⟨x, hx, (h.same x).symm⟩
  · rintro ⟨x, hx, rfl⟩
    exact ⟨settle x, ⟨x, hx, mt (h.kept x).mp hn, rfl⟩, h.same x⟩

/-- What is written of new entries does not depend on whether entries without words are known. -/
theorem settledBy_newBy_congr (hk : ∀ ws ≠ [], ws ∈ known ↔ ws ∈ known') :
    settledBy text settle (newBy words known xs) =
      settledBy text settle (newBy words known' xs) := by
  induction xs generalizing known known' with
  | nil => rfl
  | cons x xs ih =>
    by_cases hw : words x = []
    · have hdrop : ∀ known : List (List Text), settledBy text settle (newBy words known (x :: xs)) =
          settledBy text settle (newBy words known xs) := by
        intro known
        by_cases hx : words x ∈ known
        · rw [newBy_cons_of_mem hx]
        · rw [newBy_cons_of_not_mem hx, h.settledBy_cons_of_wordless hw]
          exact ih fun ws hn => by simp [hw, hn]
      rw [hdrop, hdrop, ih hk]
    · by_cases hx : words x ∈ known
      · rw [newBy_cons_of_mem hx, newBy_cons_of_mem ((hk _ hw).mp hx), ih hk]
      · have hrest : settledBy text settle (newBy words (words x :: known) xs) =
            settledBy text settle (newBy words (words x :: known') xs) :=
          ih fun ws hn => by simp [hk ws hn]
        rw [newBy_cons_of_not_mem hx, newBy_cons_of_not_mem (mt (hk _ hw).mpr hx),
          ← List.singleton_append, settledBy_append, hrest, ← settledBy_append,
          List.singleton_append]

/-- Once entries have been merged and written, the words are known of those that were known and of
those that were merged. -/
theorem mem_words_merged (old xs : List α) (hn : ws ≠ []) :
    ws ∈ (settledBy text settle (mergedBy words old xs)).map words ↔
      ws ∈ xs.map words ++ old.map words := by
  rw [h.mem_words_settledBy hn, mergedBy, List.map_append, List.mem_append, List.mem_append]
  constructor
  · rintro (hold | hnew)
    · exact Or.inr hold
    · obtain ⟨x, hx, rfl⟩ := List.mem_map.mp hnew
      exact Or.inl (List.mem_map_of_mem (Document.mem_of_mem_newBy hx))
  · rintro (hnew | hold)
    · obtain ⟨x, hx, rfl⟩ := List.mem_map.mp hnew
      rcases words_mem_newBy words (old.map words) hx with hk | ⟨y, hy, he⟩
      · exact Or.inl hk
      · exact Or.inr (List.mem_map.mpr ⟨y, hy, he⟩)
    · exact Or.inl hold

/-- Entries that are merged, written, and merged again with more of them come to what they come to
when all of them are merged at once. -/
theorem merged_append (old xs ys : List α) :
    settledBy text settle (mergedBy words (settledBy text settle (mergedBy words old xs))
        (xs ++ ys)) = settledBy text settle (mergedBy words old (xs ++ ys)) := by
  have hknown := fun ws hn => @mem_words_merged _ _ _ _ ws h old xs hn
  have hagain : newBy words (xs.map words ++ (xs.map words ++ old.map words)) ys =
      newBy words (xs.map words ++ old.map words) ys :=
    newBy_congr fun ws => by simp
  have hadded : settledBy text settle (newBy words
      ((settledBy text settle (mergedBy words old xs)).map words) (xs ++ ys)) =
      settledBy text settle (newBy words (xs.map words ++ old.map words) ys) := by
    rw [h.settledBy_newBy_congr hknown, newBy_append, newBy_map_append, hagain, List.nil_append]
  rw [mergedBy, settledBy_append, h.settledBy_settledBy, hadded, mergedBy, mergedBy,
    newBy_append, ← settledBy_append, List.append_assoc]

end Settles

end

namespace Document

variable {d e : Document} {reqs reqs' adrs : List Text} {ds ds' : List Decision}
  {o : Option Instant}

/-- Whether two documents say the same, the times of their last changes aside. -/
def Agrees (d e : Document) : Prop := { d with updated := e.updated } = e

instance : Decidable (d.Agrees e) := inferInstanceAs (Decidable (_ = _))

theorem agrees_refl (d : Document) : d.Agrees d := rfl

/-- Entries that are merged into a document in two steps, with the document written in between, come
to what they come to in one step. -/
theorem Sound.agrees_merged_append (h : d.Sound)
    (he : e = { d.merged reqs ds adrs with updated := o }.reread) (o₁ o₂ : Option Instant) :
    { e.merged (reqs ++ reqs') (ds ++ ds') adrs with updated := o₁ }.reread.Agrees
      { d.merged (reqs ++ reqs') (ds ++ ds') adrs with updated := o₂ }.reread := by
  have htitle : e.titleRead = d.titleRead := by
    rw [he, titleRead_reread]
    rfl
  have hoverview : rereadOverview e.overview = rereadOverview d.overview := by
    rw [he, overview_reread]
    exact h.overview.steady
  have harchitecture : rereadArchitecture e.architecture = rereadArchitecture d.architecture := by
    rw [he, architecture_reread]
    exact h.architecture.steady
  have hcomponents : e.components.map Component.settled = d.components.map Component.settled := by
    rw [he, reread]
    exact h.components
  have hdecisions : Decision.settledTable (mergedBy (fun x => x.decision.words) e.decisions
        (ds ++ ds')) =
      Decision.settledTable (mergedBy (fun x => x.decision.words) d.decisions (ds ++ ds')) := by
    rw [he, reread]
    exact settles_decision.merged_append d.decisions ds ds'
  have hadrs : Text.settledList (mergedBy Text.words e.adrs adrs) =
      Text.settledList (mergedBy Text.words d.adrs adrs) := by
    have ha := settles_flat.merged_append d.adrs adrs []
    rw [List.append_nil] at ha
    rw [he, reread]
    exact ha
  have hrequirements : Text.settledList (mergedBy Text.words e.requirements (reqs ++ reqs')) =
      Text.settledList (mergedBy Text.words d.requirements (reqs ++ reqs')) := by
    rw [he, reread]
    exact settles_flat.merged_append d.requirements reqs reqs'
  have htask : e.task = d.task := by rw [he, reread]; rfl
  clear he
  simp only [Agrees, reread, merged, mk.injEq]
  exact ⟨htask, htitle, hoverview, harchitecture, hcomponents, hdecisions, hadrs, hrequirements,
    trivial⟩

end Document

end DesignRecords
