import DesignRecords.Proofs.Document.Fence

namespace DesignRecords.Section

variable {l head : Text} {ls front rest : List Text} {n : Nat} {place : Place}

/-- The lines of a section before the first header in it, and the sections that such headers
start. -/
def opened (ls : List Text) : List Text × List Section :=
  let (front, groups) := grouped (·.1) (marked .opening ls)
  (front.map (·.2), groups.map fun (head, body) => ofLines head.2 (body.map (·.2)))

/-- Whether the lines of a section start no section of their own. -/
def Quiet (ls : List Text) : Prop := ∀ m ∈ marked .opening ls, m.1 = false

theorem grouped_append_of_forall {α : Type} {isHead : α → Bool} {xs : List α} (ys : List α)
    (h : ∀ x ∈ xs, isHead x = false) :
    grouped isHead (xs ++ ys) = (xs ++ (grouped isHead ys).1, (grouped isHead ys).2) := by
  induction xs with
  | nil => rfl
  | cons x xs ih =>
    have hx : isHead x = false := h x (by simp)
    simp [grouped, hx, ih fun y hy => h y (by simp [hy])]

theorem grouped_of_forall {α : Type} {isHead : α → Bool} {xs : List α}
    (h : ∀ x ∈ xs, isHead x = false) : grouped isHead xs = (xs, []) := by
  simpa [grouped] using grouped_append_of_forall [] h

theorem grouped_append {α : Type} {isHead : α → Bool} (xs : List α) {x : α} (ys : List α)
    (h : isHead x = true) :
    grouped isHead (xs ++ x :: ys) = ((grouped isHead xs).1,
      (grouped isHead xs).2 ++ (x, (grouped isHead ys).1) :: (grouped isHead ys).2) := by
  induction xs with
  | nil => simp [grouped, h]
  | cons y xs ih =>
    cases hy : isHead y <;> simp [grouped, hy, ih]

theorem isHeader_of_mem_marked {m : Bool × Text} (hm : m ∈ marked place ls) (h : m.1 = true) :
    isHeader m.2 = true := by
  induction ls generalizing place with
  | nil => cases hm
  | cons l ls ih =>
    rw [marked_cons] at hm
    rcases List.mem_cons.mp hm with rfl | hm
    · by_contra hh
      rw [Bool.not_eq_true] at hh
      cases (place.marks_of_not hh).symm.trans h
    · exact ih hm

theorem marked_of_forall (h : ∀ l ∈ ls, isHeader l = false) (m : Bool × Text)
    (hm : m ∈ marked place ls) : m.1 = false := by
  rw [← Bool.not_eq_true]
  intro ht
  have hl : m.2 ∈ (marked place ls).map (·.2) := List.mem_map_of_mem hm
  rw [marked_lines] at hl
  cases (h m.2 hl).symm.trans (isHeader_of_mem_marked hm ht)

theorem quiet_of_forall (h : ∀ l ∈ ls, isHeader l = false) : Quiet ls :=
  fun m hm => marked_of_forall h m hm

/-- A block of code without fences in it hides the headers in it. -/
theorem quiet_of_fenced (hh : isHeader head = false) (hf : isFence head = true)
    (ht : isBareFence l = true) (h : ∀ l ∈ ls, isFence l = false) :
    Quiet ([] :: head :: ls ++ [l, []]) := by
  have hn : fencedLines? (ls ++ [l, []]) = some (ls ++ [l]).length := by
    rw [fencedLines?_of_forall h, fencedLines?, isFence_of_isBareFence ht, ht]
    simp [Nat.add_comm]
  have hm : marked .opening ([] :: head :: ls ++ [l, []]) =
      (false, []) :: (false, head) :: ((ls ++ [l]).map (false, ·) ++ [(false, [])]) := by
    have hf := marked_fenced (ls ++ [l]) [[]]
    rw [List.append_assoc] at hf
    have ho : marked .opening (head :: (ls ++ [l, []])) =
        (false, head) :: marked (.fenced (ls ++ [l]).length) (ls ++ [l, []]) :=
      marked_opening_fence hh ‹_› hn
    exact congrArg ((false, []) :: ·) (ho.trans (congrArg ((false, head) :: ·) hf))
  intro m hmem
  rw [hm] at hmem
  simp only [List.mem_cons, List.mem_append, List.mem_map, List.not_mem_nil, or_false] at hmem
  rcases hmem with rfl | rfl | ⟨x, -, rfl⟩ | rfl <;> rfl

theorem opened_of_quiet (h : Quiet ls) : opened ls = (ls, []) := by
  rw [opened, grouped_of_forall h]
  simp [marked_lines]

/-- The lines of some sections, each with its header line. -/
def blockLines (blocks : List (Text × List Text)) : List Text :=
  blocks.flatMap fun b => b.1 :: b.2

/-- The sections that some blocks hold, each at its own header or at a header further in. -/
def ofBlocks (blocks : List (Text × List Text)) : List Section :=
  blocks.flatMap fun b => ofLines b.1 (opened b.2).1 :: (opened b.2).2

/-- Each block starts with a header, and the lines behind it end no block of code. -/
def Sealed : List (Text × List Text) → Prop
  | [] => True
  | b :: rest => isHeader b.1 = true ∧ fencedLines? (blockLines rest) = none ∧ Sealed rest

theorem fencedLines?_tail (hh : isHeader head = true) (h : fencedLines? (head :: ls) = none) :
    fencedLines? ls = none := by
  simpa [fencedLines?, isFence_of_isHeader hh] using h

theorem grouped_marked_blocks {blocks : List (Text × List Text)} (place : Place)
    (ls : List Text) (h : Sealed blocks) (hn : fencedLines? (blockLines blocks) = none)
    (hp : place.endsWithin ls.length) :
    grouped (·.1) (marked place (ls ++ blockLines blocks)) =
      ((grouped (·.1) (marked place ls)).1, (grouped (·.1) (marked place ls)).2 ++
        blocks.flatMap fun b => ((true, b.1), (grouped (·.1) (marked .opening b.2)).1) ::
          (grouped (·.1) (marked .opening b.2)).2) := by
  induction blocks generalizing place ls with
  | nil => simp [blockLines]
  | cons b rest ih =>
    obtain ⟨hh, hr, hs⟩ := h
    have hl : blockLines (b :: rest) = b.1 :: (b.2 ++ blockLines rest) := by simp [blockLines]
    rw [hl] at hn ⊢
    have hi := ih .opening b.2 hs hr trivial
    rw [marked_append hp hh (fencedLines?_tail hh hn), grouped_append _ _ rfl, hi]
    simp

theorem marked_preamble (h : ∀ l ∈ front, isHeader l = false) (rest : List Text) :
    marked .preamble (front ++ rest) = front.map (false, ·) ++ marked .preamble rest := by
  induction front with
  | nil => rfl
  | cons l front ih =>
    have hl : isHeader l = false := h l (by simp)
    rw [List.cons_append, marked_cons, Place.marks_of_not _ hl]
    simp [Place.after, hl, ih fun x hx => h x (by simp [hx])]

/-- A text that is made of blocks has the sections of the blocks. -/
theorem split_of_lines {t : Text} {blocks : List (Text × List Text)}
    (hl : t.lines = front ++ blockLines blocks) (hf : ∀ l ∈ front, isHeader l = false)
    (hb : Sealed blocks) : split t = (Text.ofLines front, ofBlocks blocks) := by
  have hg : grouped (·.1) (front.map (false, ·)) = (front.map (false, ·), []) :=
    grouped_of_forall (by simp)
  rw [split, hl, marked_preamble hf]
  cases blocks with
  | nil => simp [blockLines, marked, hg, ofBlocks, Function.comp_def]
  | cons b rest =>
    obtain ⟨hh, hr, hs⟩ := hb
    have hl : blockLines (b :: rest) = b.1 :: (b.2 ++ blockLines rest) := by simp [blockLines]
    have hm : marked .preamble (b.1 :: (b.2 ++ blockLines rest)) =
        (true, b.1) :: marked .opening (b.2 ++ blockLines rest) := by
      rw [marked_cons]
      simp [Place.marks, Place.after, hh]
    rw [hl, hm, grouped_append _ _ rfl, hg, grouped_marked_blocks .opening b.2 hs hr trivial]
    simp [ofBlocks, opened, List.map_flatMap, Function.comp_def]

/-- Whether a line means nothing to the outline of a document. -/
def Inert (l : Text) : Prop := isHeader l = false ∧ isFence l = false

instance : Decidable (Inert l) := inferInstanceAs (Decidable (_ ∧ _))

/-- Whether some blocks start with headers that no line in them resembles. -/
def Calm (blocks : List (Text × List Text)) : Prop :=
  ∀ b ∈ blocks, isHeader b.1 = true ∧ ∀ l ∈ b.2, Inert l

variable {b : Text × List Text} {blocks : List (Text × List Text)}

theorem Calm.tail (h : Calm (b :: blocks)) : Calm blocks := fun x hx => h x (by simp [hx])

theorem Calm.fencedLines? (h : Calm blocks) : fencedLines? (blockLines blocks) = none := by
  apply fencedLines?_eq_none_of_forall
  intro l hl
  obtain ⟨b, hb, hl⟩ := List.mem_flatMap.mp hl
  rcases List.mem_cons.mp hl with rfl | hl
  · exact isFence_of_isHeader (h b hb).1
  · exact ((h b hb).2 l hl).2

theorem Calm.sealed (h : Calm blocks) : Sealed blocks := by
  induction blocks with
  | nil => trivial
  | cons b blocks ih => exact ⟨(h b (by simp)).1, h.tail.fencedLines?, ih h.tail⟩

theorem Calm.ofBlocks (h : Calm blocks) :
    ofBlocks blocks = blocks.map fun b => ofLines b.1 b.2 := by
  induction blocks with
  | nil => rfl
  | cons b blocks ih =>
    have hq : Quiet b.2 := quiet_of_forall fun l hl => ((h b (by simp)).2 l hl).1
    have ih : blocks.flatMap (fun b => ofLines b.1 (opened b.2).1 :: (opened b.2).2) =
        blocks.map fun b => ofLines b.1 b.2 := ih h.tail
    rw [Section.ofBlocks, List.flatMap_cons, ih, opened_of_quiet hq]
    rfl

end DesignRecords.Section
