import DesignRecords.Communication.Basic
import DesignRecords.Proofs.Document.Merged

namespace DesignRecords

variable {i j : Instant} {t t' : Text} {d e : Document}

namespace Text

/-- The number of characters of some lines, each with the line feed that ends it. -/
def size : List Text → Nat
  | [] => 0
  | l :: ls => l.length + 1 + size ls

@[simp] theorem size_nil : size [] = 0 := rfl

@[simp] theorem size_cons (l : Text) (ls : List Text) : size (l :: ls) = l.length + 1 + size ls :=
  rfl

@[simp] theorem size_append (ls ps : List Text) : size (ls ++ ps) = size ls + size ps := by
  induction ls with
  | nil => simp
  | cons l ls ih =>
    rw [List.cons_append, size_cons, size_cons, ih]
    omega

theorem length_ofLines {ls : List Text} (h : ls ≠ []) : (ofLines ls).length + 1 = size ls := by
  induction ls with
  | nil => exact absurd rfl h
  | cons l ls ih =>
    cases ls with
    | nil => simp
    | cons l' ls =>
      have hrest := ih (List.cons_ne_nil l' ls)
      rw [ofLines_cons l (List.cons_ne_nil l' ls), size_cons, ← hrest, List.length_append,
        List.length_cons]
      omega

theorem length_singleLine (t : Text) : (singleLine t).length = t.length := List.length_map ..

theorem singleLine_singleLine (t : Text) : singleLine (singleLine t) = singleLine t :=
  singleLine_of_single (not_feed_mem_singleLine t) (not_return_mem_singleLine t)

end Text

namespace Table

theorem escaped_flat (t : Text) : escaped t.flat = escaped t.trim := by
  rw [Text.flat_eq, escaped, Text.singleLine_singleLine, escaped]

theorem length_le_escaped (t : Text) : t.length ≤ (escaped t).length := by
  rw [← Text.length_singleLine t, escaped, Text.replaced, List.length_flatMap]
  generalize Text.singleLine t = s
  induction s with
  | nil => simp
  | cons c s ih =>
    have hc : 1 ≤ (if c = '|' then "\\|".toList else [c]).length := by split <;> simp
    rw [List.map_cons, List.sum_cons, List.length_cons]
    omega

/-- A cell gets shorter by the blanks around it when it is read and written again. -/
theorem length_escaped_flat (t : Text) :
    (escaped t.flat).length + (t.length - t.trim.length) ≤ (escaped t).length := by
  obtain ⟨a, b, -, -, h⟩ := Text.exists_margins t
  have hl := congrArg List.length h
  have he : (escaped t).length = (escaped (a ++ t.trim ++ b)).length := by rw [← h]
  rw [escaped_append, escaped_append] at he
  have ha := length_le_escaped a
  have hb := length_le_escaped b
  rw [escaped_flat]
  simp only [List.length_append] at hl he
  omega

end Table

namespace Decision

/-- Whether the reason and the source of a decision have no blanks around them. -/
def Tidy (x : Decision) : Prop := x.rationale.trim = x.rationale ∧ x.source.trim = x.source

variable {x : Decision}

/-- The row of a decision that has been read back differs in the cell of the decision alone. -/
theorem Tidy.row_settled (h : x.Tidy) :
    ∃ rest, x.row = "| ".toList ++ Table.escaped x.decision ++ rest ∧
      x.settled.row = "| ".toList ++ Table.escaped x.decision.flat ++ rest := by
  have hrow : ∀ y : Decision, y.row = "| ".toList ++ Table.escaped y.decision ++
      (" | ".toList ++ Table.escaped y.rationale ++ " | ".toList ++ y.sourceCell ++ " | ".toList ++
        (y.date.map Date.text).getD [] ++ " |".toList) := by
    intro y
    simp [row, Table.row, Text.joined]
  have hr : Table.escaped x.settled.rationale = Table.escaped x.rationale := by
    rw [settled, Table.escaped_flat, h.1]
  have hc : Table.escaped x.settled.source = Table.escaped x.source := by
    rw [settled, Table.escaped_flat, h.2]
  have hs : x.settled.sourceCell = x.sourceCell := by
    unfold sourceCell
    rw [hc]
    rfl
  refine ⟨_, hrow x, ?_⟩
  rw [hrow x.settled, hr, hs]
  rfl

end Decision

section

variable {α : Type} {text : α → Text} {settle : α → α} {line : α → Text} {xs : List α}

/-- Lines do not get longer when their entries are read and written again, and they keep their
length only where each entry does. -/
theorem size_settledBy (h : ∀ x ∈ xs, (line (settle x)).length ≤ (line x).length) :
    Text.size ((settledBy text settle xs).map line) ≤ Text.size (xs.map line) ∧
    (Text.size ((settledBy text settle xs).map line) = Text.size (xs.map line) →
      ∀ x ∈ xs, text (settle x) ≠ [] ∧ (line (settle x)).length = (line x).length) := by
  induction xs with
  | nil => simp [settledBy]
  | cons x xs ih =>
    obtain ⟨hle, heq⟩ := ih fun y hy => h y (List.mem_cons_of_mem x hy)
    have hx := h x (by simp)
    by_cases hn : text (settle x) = []
    · have hs : settledBy text settle (x :: xs) = settledBy text settle xs := by
        simp [settledBy, hn]
      rw [hs, List.map_cons, Text.size_cons]
      exact ⟨by omega, fun he => by omega⟩
    · have hs : settledBy text settle (x :: xs) = settle x :: settledBy text settle xs := by
        simp [settledBy, hn]
      rw [hs, List.map_cons, List.map_cons, Text.size_cons, Text.size_cons]
      refine ⟨by omega, fun he y hy => ?_⟩
      rcases List.mem_cons.mp hy with rfl | hy
      · exact ⟨hn, by omega⟩
      · exact heq (by omega) y hy

theorem map_settledBy (h : ∀ x ∈ xs, text (settle x) ≠ [] ∧ line (settle x) = line x) :
    (settledBy text settle xs).map line = xs.map line := by
  rw [settledBy, List.filter_eq_self.mpr]
  · rw [List.map_map]
    exact List.map_congr_left fun x hx => (h x hx).2
  · intro y hy
    obtain ⟨x, hx, rfl⟩ := List.mem_map.mp hy
    simpa using (h x hx).1

end

namespace Bullet

def line (item : Text) : Text := "- " ++ Text.singleLine item

theorem isEmpty_settledList {items : List Text} (h : ∀ item ∈ items, item.blank = false) :
    (Text.settledList items).isEmpty = items.isEmpty := by
  have hf : Text.settledList items = items.map Text.flat := by
    refine List.filter_eq_self.mpr fun item hi => ?_
    obtain ⟨x, hx, rfl⟩ := List.mem_map.mp hi
    have hn : x.flat ≠ [] := by
      rw [Ne, Text.flat_eq_nil, h x hx]
      simp
    simpa using hn
  rw [hf, List.isEmpty_map]

/-- A list is written again as it was where its items have no blanks around them. -/
theorem lines_settledList {items : List Text} (h : ∀ item ∈ items, item.Neat) :
    lines (Text.settledList items) = lines items := by
  have hm : (Text.settledList items).map line = items.map line := by
    rw [settledList_eq]
    refine map_settledBy fun item hi => ⟨?_, ?_⟩
    · rw [id, Ne, Text.flat_eq_nil, (h item hi).solid]
      simp
    · rw [line, (h item hi).flat, Text.singleLine_singleLine, line]
  unfold lines
  rw [isEmpty_settledList fun item hi => (h item hi).solid]
  split
  · rfl
  · exact hm

theorem size_lines_settledList {items : List Text} (h : ∀ item ∈ items, item.blank = false) :
    Text.size (lines (Text.settledList items)) ≤ Text.size (lines items) ∧
    (Text.size (lines (Text.settledList items)) = Text.size (lines items) →
      ∀ item ∈ items, item.Neat) := by
  have hlength : ∀ item, (line item.flat).length + (item.length - item.trim.length) =
      (line item).length := by
    intro item
    have ht := Text.length_trim_le item
    simp only [line, Text.flat_eq, Text.singleLine_singleLine, List.length_append,
      Text.length_singleLine]
    omega
  have hsize := @size_settledBy _ id Text.flat line items
    fun item _ => by have := hlength item; omega
  unfold lines
  rw [isEmpty_settledList h]
  split
  next he => exact ⟨Nat.le_refl _, fun _ item hi => by simp [List.isEmpty_iff.mp he] at hi⟩
  · refine ⟨hsize.1, fun he item hi => ?_⟩
    obtain ⟨-, hi'⟩ := hsize.2 he item hi
    have hl := hlength item
    have ht := Text.length_trim_le item
    refine ⟨?_, Text.trim_of_length (by omega)⟩
    rintro rfl
    cases h [] hi

end Bullet

namespace Decision

variable {ds : List Decision}

/-- A table is written again as it was where its decisions have no blanks around them. -/
theorem rows_settledTable (ht : ∀ x ∈ ds, x.Tidy) (h : ∀ x ∈ ds, x.decision.Neat) :
    (settledTable ds).map row = ds.map row := by
  rw [settledTable_eq]
  refine map_settledBy fun x hx => ⟨?_, ?_⟩
  · rw [settled, Ne, Text.flat_eq_nil, (h x hx).solid]
    simp
  · obtain ⟨rest, hr, hs⟩ := (ht x hx).row_settled
    rw [hr, hs, Table.escaped_flat, (h x hx).2]

theorem size_rows_settledTable (ht : ∀ x ∈ ds, x.Tidy) :
    Text.size ((settledTable ds).map row) ≤ Text.size (ds.map row) ∧
    (Text.size ((settledTable ds).map row) = Text.size (ds.map row) →
      ∀ x ∈ ds, x.decision.Neat) := by
  have hlength : ∀ x ∈ ds,
      x.settled.row.length + (x.decision.length - x.decision.trim.length) ≤ x.row.length := by
    intro x hx
    obtain ⟨rest, hr, hs⟩ := (ht x hx).row_settled
    have he := Table.length_escaped_flat x.decision
    simp only [hr, hs, List.length_append]
    omega
  have hsize := @size_settledBy _ (·.decision) settled row ds
    fun x hx => by have := hlength x hx; omega
  refine ⟨hsize.1, fun he x hx => ?_⟩
  obtain ⟨hn, hl⟩ := hsize.2 he x hx
  have hle := hlength x hx
  have htrim := Text.length_trim_le x.decision
  refine ⟨?_, Text.trim_of_length (by omega)⟩
  intro hd
  rw [settled, hd] at hn
  exact hn rfl

end Decision

namespace Document

def updatedLine (i : Instant) : Text := Label.updated ++ " " ++ i.text

/-- Whether two texts differ in nothing but the line with the time of the last change. -/
def SameButTime (i j : Instant) (t t' : Text) : Prop :=
  ∃ before after, t = before ++ '\n' :: updatedLine i ++ '\n' :: after ∧
    t' = before ++ '\n' :: updatedLine j ++ '\n' :: after

/-- The lines of a document below its head. -/
def linesBelowHead (d : Document) : List Text :=
  [] :: (d.overviewLines ++ d.architectureLines ++ d.componentLines ++ d.decisionLines ++
    d.adrLines ++ d.requirementLines)

theorem render_stamped (d : Document) (i : Instant) : { d with updated := some i }.render =
    Text.ofLines [d.titleLine, [], d.taskLine] ++ '\n' :: updatedLine i ++
      '\n' :: (Text.ofLines d.linesBelowHead ++ ['\n']) := by
  have hp : { d with updated := some i }.parts =
      [d.titleLine, [], d.taskLine] ++ ([updatedLine i] ++ d.linesBelowHead) := by
    simp only [parts, headLines_eq, linesBelowHead, List.append_assoc]
    rfl
  rw [render, hp, Text.ofLines_append (by simp) (by simp),
    Text.ofLines_append (by simp) (by simp [linesBelowHead]), Text.ofLines_singleton]
  simp

theorem sameButTime_of_lines (ht : e.titleLine = d.titleLine) (hk : e.taskLine = d.taskLine)
    (hb : e.linesBelowHead = d.linesBelowHead) :
    SameButTime i j { d with updated := some i }.render { e with updated := some j }.render :=
  ⟨_, _, d.render_stamped i, by rw [e.render_stamped j, ht, hk, hb]⟩

theorem size_of_sameButTime (ht : e.titleLine = d.titleLine) (hk : e.taskLine = d.taskLine)
    (h : SameButTime i j { d with updated := some i }.render { e with updated := some j }.render) :
    Text.size e.linesBelowHead = Text.size d.linesBelowHead := by
  obtain ⟨before, after, hd, he⟩ := h
  have hd := congrArg List.length hd
  have he := congrArg List.length he
  rw [render_stamped] at hd he
  rw [ht, hk] at he
  rw [← @Text.length_ofLines e.linesBelowHead (by simp [linesBelowHead]),
    ← @Text.length_ofLines d.linesBelowHead (by simp [linesBelowHead])]
  simp only [List.length_append, List.length_cons] at hd he
  omega

end Document

end DesignRecords
