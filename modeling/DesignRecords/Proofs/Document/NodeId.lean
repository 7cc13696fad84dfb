import DesignRecords.Document.Diagram
import DesignRecords.Proofs.Text.Longest
import Mathlib.Data.List.DropRight

namespace DesignRecords

namespace Text

variable {r t : Text}

theorem rdropWhile_append (p : Char → Bool) (s t : Text) : (s ++ t).rdropWhile p =
    if t.rdropWhile p = [] then s.rdropWhile p else s ++ t.rdropWhile p := by
  simp only [List.rdropWhile, List.reverse_append, List.dropWhile_append, List.isEmpty_iff,
    List.reverse_eq_nil_iff]
  split
  · rfl
  · rw [List.reverse_append, List.reverse_reverse]

theorem rdropWhile_of_not_mem (h : '_' ∉ t) : t.rdropWhile (· == '_') = t := by
  refine List.rdropWhile_eq_self_iff.mpr fun hn he => ?_
  exact h (beq_iff_eq.mp he ▸ List.getLast_mem hn)

/-- The underscore behind a piece is dropped with those after it, if nothing else follows. -/
theorem rdropWhile_append_cons (h : '_' ∉ r) (t : Text) :
    (r ++ '_' :: t).rdropWhile (· == '_') =
      if t.rdropWhile (· == '_') = [] then r else r ++ '_' :: t.rdropWhile (· == '_') := by
  rw [List.append_cons, rdropWhile_append, List.rdropWhile_concat_pos _ _ _ rfl,
    rdropWhile_of_not_mem h, ← List.append_cons]

end Text

namespace Diagram

variable {c : Char} {name r s t a b : Text} {rs ss : List Text} {gap : Bool}

/-- The longest pieces of a name that have only the letters `A` to `Z`, in any case, and digits. -/
def runs (name : Text) : List Text := Text.runs (!Char.isAlphanum ·) name

/-- Whether each member of a list may be a run of a name. -/
def AllRuns (rs : List Text) : Prop := ∀ r ∈ rs, r ≠ [] ∧ ∀ x ∈ r, x.isAlphanum = true

theorem allRuns_runs (name : Text) : AllRuns (runs name) := by
  refine fun r hr => ⟨by simpa using (List.mem_filter.mp hr).2, fun x hx => ?_⟩
  simpa using (Text.mem_of_mem_runs hr hx).2

theorem underscore_not_mem (h : ∀ x ∈ r, x.isAlphanum = true) : '_' ∉ r :=
  fun hm => nomatch h '_' hm

theorem runs_joined (h : AllRuns rs) : runs (Text.joined "_" rs) = rs := by
  refine Text.runs_joined rfl fun r hr => ⟨(h r hr).1, fun x hx => ?_⟩
  rw [(h r hr).2 x hx]
  rfl

theorem joined_eq_nil (h : AllRuns rs) : Text.joined "_" rs = [] ↔ rs = [] := by
  constructor
  · intro he
    rw [← runs_joined h, he]
    rfl
  · rintro rfl
    rfl

theorem joined_cons (r : Text) (rs : List Text) : Text.joined "_" (r :: rs) =
    if rs = [] then r else r ++ '_' :: Text.joined "_" rs := by
  cases rs with
  | nil => simp [Text.joined]
  | cons s rs => simp [Text.joined]

section

variable (hc : c.isAlphanum = false)

include hc

theorem collapsed_true_cons (t : Text) : collapsed true (c :: t) = collapsed true t := by
  simp [collapsed, hc]

theorem collapsed_false_cons (t : Text) : collapsed false (c :: t) = '_' :: collapsed true t := by
  simp [collapsed, hc]

end

theorem collapsed_true_append (h : ∀ x ∈ s, x.isAlphanum = false) (t : Text) :
    collapsed true (s ++ t) = collapsed true t := by
  induction s with
  | nil => rfl
  | cons c s ih =>
    obtain ⟨hc, hs⟩ := List.forall_mem_cons.mp h
    rw [List.cons_append, collapsed_true_cons hc, ih hs]

theorem collapsed_append_run (hn : r ≠ []) (hr : ∀ x ∈ r, x.isAlphanum = true) (t : Text) :
    collapsed gap (r ++ t) = r ++ collapsed false t := by
  induction r generalizing gap with
  | nil => exact absurd rfl hn
  | cons c r ih =>
    obtain ⟨hc, hr⟩ := List.forall_mem_cons.mp hr
    rw [List.cons_append, collapsed, if_pos hc, List.cons_append]
    by_cases hr' : r = []
    · rw [hr']
      rfl
    · rw [ih hr' hr]

theorem dropWhile_collapsed_true (name : Text) :
    (collapsed true name).dropWhile (· == '_') = collapsed true name := by
  induction name with
  | nil => rfl
  | cons c name ih =>
    cases hc : c.isAlphanum with
    | true =>
      have hne : (c == '_') = false := beq_false_of_ne fun he => by
        rw [he] at hc
        cases hc
      rw [collapsed, if_pos hc, List.dropWhile_cons_of_neg (by simp [hne])]
    | false => rw [collapsed_true_cons hc, ih]

/-- Without the underscore at its start, a name is read as if a gap had begun in front of it. -/
theorem dropWhile_collapsed_false (name : Text) :
    (collapsed false name).dropWhile (· == '_') = collapsed true name := by
  cases name with
  | nil => rfl
  | cons c name =>
    cases hc : c.isAlphanum with
    | true =>
      have he : collapsed false (c :: name) = collapsed true (c :: name) := by
        simp [collapsed, hc]
      rw [he, dropWhile_collapsed_true]
    | false =>
      rw [collapsed_false_cons hc, collapsed_true_cons hc, List.dropWhile_cons_of_pos rfl,
        dropWhile_collapsed_true]

theorem rdropWhile_collapsed_true (name : Text) :
    (collapsed true name).rdropWhile (· == '_') = Text.joined "_" (runs name) := by
  induction name using Text.run_induction (!Char.isAlphanum ·) with
  | gap t ht =>
    have hruns : runs t = [] := Text.runs_eq_nil.mpr ht
    have hout : collapsed true (t ++ []) = [] := collapsed_true_append (by simpa using ht) []
    rw [List.append_nil] at hout
    rw [hruns, hout]
    rfl
  | run g r s hg hn hr hs ih =>
    have hr' : ∀ x ∈ r, x.isAlphanum = true := by simpa using hr
    have hruns : runs (g ++ (r ++ s)) = r :: runs s := Text.runs_append_run hg hn hr hs
    rw [collapsed_true_append (by simpa using hg), collapsed_append_run hn hr', hruns, joined_cons]
    -- Behind the run the name ends, or goes on with a gap, whose underscore the other runs decide.
    cases s with
    | nil =>
      have hnil : runs [] = [] := rfl
      rw [hnil, if_pos rfl, collapsed, List.append_nil,
        Text.rdropWhile_of_not_mem (underscore_not_mem hr')]
    | cons c s =>
      have hc : c.isAlphanum = false := by simpa using hs
      rw [collapsed_false_cons hc, ← collapsed_true_cons hc,
        Text.rdropWhile_append_cons (underscore_not_mem hr'), ih]
      exact if_congr (joined_eq_nil (allRuns_runs _)) rfl rfl

/-- One reading of a name with a flag for the gap does what cutting it into its runs does. -/
theorem stripped_collapsed (name : Text) :
    Text.stripped '_' (collapsed false name) = Text.joined "_" (runs name) := by
  rw [← rdropWhile_collapsed_true, ← dropWhile_collapsed_false]
  rfl

theorem nodeId_eq (name : Text) :
    nodeId name = if runs name = [] then "node".toList else Text.joined "_" (runs name) := by
  rw [nodeId, stripped_collapsed]
  exact if_congr (List.isEmpty_iff.trans (joined_eq_nil (allRuns_runs name))) rfl rfl

/-- The runs of the identifier of a node, of those that its name has. -/
def named (rs : List Text) : List Text := if rs = [] then ["node"] else rs

theorem named_ne_nil (rs : List Text) : named rs ≠ [] := by
  rw [named]
  split
  next => exact List.cons_ne_nil _ _
  next h => exact h

theorem named_of_ne_nil (h : rs ≠ []) : named rs = rs := if_neg h

theorem allRuns_named (name : Text) : AllRuns (named (runs name)) := by
  rw [named]
  split
  next =>
    rw [AllRuns, List.forall_mem_singleton]
    decide
  next => exact allRuns_runs name

theorem nodeId_eq_joined (name : Text) : nodeId name = Text.joined "_" (named (runs name)) := by
  rw [nodeId_eq, named, apply_ite (Text.joined "_")]
  rfl

theorem runs_nodeId (name : Text) : runs (nodeId name) = named (runs name) := by
  rw [nodeId_eq_joined, runs_joined (allRuns_named name)]

/-- Whether a name with these runs has the identifier of names without runs. -/
def Spare (rs : List Text) : Prop := rs = [] ∨ rs = ["node".toList]

theorem named_eq_iff : named rs = named ss ↔ rs = ss ∨ Spare rs ∧ Spare ss := by
  have hspare : ∀ {rs}, Spare rs → named rs = ["node".toList] := by
    rintro rs (rfl | rfl) <;> rfl
  constructor
  · intro h
    by_cases hr : rs = []
    · by_cases hs : ss = []
      · exact Or.inl (hr.trans hs.symm)
      · rw [hr, named_of_ne_nil hs] at h
        exact Or.inr ⟨Or.inl hr, Or.inr h.symm⟩
    · by_cases hs : ss = []
      · rw [hs, named_of_ne_nil hr] at h
        exact Or.inr ⟨Or.inr h, Or.inl hs⟩
      · rw [named_of_ne_nil hr, named_of_ne_nil hs] at h
        exact Or.inl h
  · rintro (rfl | ⟨hr, hs⟩)
    · rfl
    · rw [hspare hr, hspare hs]

theorem nodeId_eq_nodeId_iff (name other : Text) :
    nodeId name = nodeId other ↔ named (runs name) = named (runs other) := by
  constructor
  · intro h
    rw [← runs_nodeId, h, runs_nodeId]
  · intro h
    rw [nodeId_eq_joined, h, nodeId_eq_joined]

theorem nodeId_nodeId (name : Text) : nodeId (nodeId name) = nodeId name := by
  rw [nodeId_eq_joined (nodeId name), runs_nodeId, named_of_ne_nil (named_ne_nil _),
    nodeId_eq_joined]

/-- Whether the identifier of a node may have a character. -/
def isIdChar (x : Char) : Bool := x.isAlphanum || x == '_'

/-- Whether a text is an identifier with no underscore at its ends and no two in a row. -/
structure IsIdentifier (s : Text) : Prop where
  ne_nil : s ≠ []
  idChars : ∀ x ∈ s, isIdChar x = true
  not_leading : s.head? ≠ some '_'
  not_trailing : s.getLast? ≠ some '_'
  not_doubled : ¬ ['_', '_'] <:+: s

theorem isIdChar_of_mem_nodeId {x : Char} (h : x ∈ nodeId name) : isIdChar x = true := by
  rw [nodeId_eq_joined] at h
  rw [isIdChar, Bool.or_eq_true]
  rcases Text.mem_joined h with h | ⟨r, hr, hx⟩
  · exact Or.inr (beq_iff_eq.mpr (List.mem_singleton.mp h))
  · exact Or.inl ((allRuns_named name r hr).2 x hx)

/-- An identifier has no place with an underscore or an end on both sides. -/
theorem nodeId_ne_append (name : Text) (ha : ∀ c ∈ a.getLast?, c = '_')
    (hb : ∀ c ∈ b.head?, c = '_') : nodeId name ≠ a ++ b := by
  intro h
  have hruns := allRuns_named name
  have hsplit : (nodeId name).splitOn '_' = named (runs name) := by
    rw [nodeId_eq_joined]
    exact List.splitOn_intercalate '_' (fun r hr => underscore_not_mem (hruns r hr).2)
      (named_ne_nil _)
  have hnil : [] ∈ (nodeId name).splitOnP (· == '_') := by
    refine Text.mem_splitOnP_iff.mpr ⟨by simp, a, b, by rw [h, List.append_nil], ?_, ?_⟩
    · exact fun c hc => beq_iff_eq.mpr (ha c hc)
    · exact fun c hc => beq_iff_eq.mpr (hb c hc)
  have hmem : [] ∈ named (runs name) := hsplit ▸ hnil
  exact (hruns [] hmem).1 rfl

theorem nodeId_ne_nil (name : Text) : nodeId name ≠ [] :=
  nodeId_ne_append name (a := []) (b := []) (by simp) (by simp)

theorem isIdentifier_nodeId (name : Text) : IsIdentifier (nodeId name) where
  ne_nil := nodeId_ne_nil name
  idChars _ hx := isIdChar_of_mem_nodeId hx
  not_leading h := by
    have hb : ∀ c ∈ (nodeId name).head?, c = '_' := by simp [h]
    exact nodeId_ne_append name (a := []) (by simp) hb rfl
  not_trailing h := by
    have ha : ∀ c ∈ (nodeId name).getLast?, c = '_' := by simp [h]
    exact nodeId_ne_append name ha (by simp) (List.append_nil _).symm
  not_doubled := by
    rintro ⟨a, b, h⟩
    refine nodeId_ne_append name (a := a ++ ['_']) (b := '_' :: b) (by simp) (by simp) ?_
    rw [← h]
    simp

/-- An identifier is put together of the runs of its name, and tells no more of the name than
these, up to the word that stands for no run. -/
theorem nodeId_joins_runs (name other : Text) :
    (∀ rs, Text.HasRuns (!Char.isAlphanum ·) name rs ↔ rs = runs name) ∧
      nodeId name = (if runs name = [] then "node".toList else Text.joined "_" (runs name)) ∧
      IsIdentifier (nodeId name) ∧ nodeId (nodeId name) = nodeId name ∧
      (nodeId name = nodeId other ↔
        runs name = runs other ∨ Spare (runs name) ∧ Spare (runs other)) :=
  ⟨fun _ => Text.hasRuns_iff, nodeId_eq name, isIdentifier_nodeId name, nodeId_nodeId name,
    (nodeId_eq_nodeId_iff name other).trans named_eq_iff⟩

example : nodeId "  auth--service_v2 é " = "auth_service_v2".toList := by decide

example : nodeId "?!" = nodeId " node_" := by decide

end Diagram

end DesignRecords
