import DesignRecords.Document.Table
import DesignRecords.Proofs.Text.Content

namespace DesignRecords.Table

variable {s t v : Text} {c : Char}

theorem escaped_append (s t : Text) : escaped (s ++ t) = escaped s ++ escaped t := by
  simp [escaped, Text.replaced]

theorem escaped_eq_nil : escaped t = [] ↔ t = [] := by
  have hn : ∀ c : Char, (if c = '|' then ("\\|" : String).toList else [c]) ≠ [] := by
    intro c
    split <;> simp
  rw [escaped, Text.replaced, List.flatMap_eq_nil_iff]
  constructor
  · intro h
    cases t with
    | nil => rfl
    | cons c t => exact absurd (h _ (List.mem_map_of_mem List.mem_cons_self)) (hn _)
  · rintro rfl c hc
    cases hc

theorem escaped_of_plain (hb : '|' ∉ t) (hs : Text.singleLine t = t) : escaped t = t := by
  have hm : ∀ c ∈ t, (if c = '|' then ("\\|" : String).toList else [c]) = [c] := by
    intro c hc
    have hn : c ≠ '|' := fun h => hb (h ▸ hc)
    rw [if_neg hn]
  rw [escaped, hs, Text.replaced, List.flatMap_congr hm, List.flatMap_singleton']

theorem pieces_ne_nil (t : Text) : pieces t ≠ [] := by
  fun_induction pieces t with
  | case1 => simp
  | case2 rest ih => simpa using ih
  | case3 rest ih => simp
  | case4 c rest _ _ ih => simpa using ih

theorem pieces_bar (t : Text) : pieces ('|' :: t) = [] :: pieces t := rfl

theorem pieces_escaped_bar (t : Text) :
    pieces ('\\' :: '|' :: t) = (pieces t).modifyHead ('|' :: ·) := rfl

/-- A character is part of its piece, unless it is a bar or may be the escape of one. -/
theorem pieces_cons (hc : c ≠ '|') (ht : c = '\\' → t.head? ≠ some '|') :
    pieces (c :: t) = (pieces t).modifyHead (c :: ·) := by
  rw [pieces]
  · rintro rest rfl rfl
    exact ht rfl rfl
  · exact hc

/-- Reading takes the escapes away again that `escaped` puts in; the blank behind the text keeps
a backslash at its end from the bar that follows. -/
theorem pieces_replaced (v t : Text) :
    pieces (Text.replaced '|' "\\|" v ++ ' ' :: t) = (pieces (' ' :: t)).modifyHead (v ++ ·) := by
  induction v with
  | nil =>
    obtain ⟨p, ps, h⟩ := List.exists_cons_of_ne_nil (pieces_ne_nil (' ' :: t))
    simp [Text.replaced, h]
  | cons c v ih =>
    obtain ⟨p, ps, h⟩ := List.exists_cons_of_ne_nil (pieces_ne_nil (' ' :: t))
    rw [h] at ih ⊢
    by_cases hc : c = '|'
    · subst hc
      have he : Text.replaced '|' "\\|" ('|' :: v) ++ ' ' :: t =
          '\\' :: '|' :: (Text.replaced '|' "\\|" v ++ ' ' :: t) := rfl
      rw [he, pieces_escaped_bar, ih]
      rfl
    · have he : Text.replaced '|' "\\|" (c :: v) ++ ' ' :: t =
          c :: (Text.replaced '|' "\\|" v ++ ' ' :: t) := by simp [Text.replaced, hc]
      have hn : (Text.replaced '|' "\\|" v ++ ' ' :: t).head? ≠ some '|' := by
        cases v with
        | nil => simp [Text.replaced]
        | cons d v =>
          by_cases hd : d = '|'
          · subst hd
            simp [Text.replaced, show ("\\|" : String).toList = ['\\', '|'] from rfl]
          · simp [Text.replaced, hd]
      rw [he, pieces_cons hc fun _ => hn, ih]
      rfl

theorem pieces_joined (vs : List Text) (h : vs ≠ []) :
    pieces (' ' :: (Text.joined " | " (vs.map (Text.replaced '|' "\\|")) ++ [' ', '|'])) =
      vs.map (fun v => ' ' :: (v ++ [' '])) ++ [[]] := by
  have hs : ∀ t, pieces (' ' :: t) = (pieces t).modifyHead (' ' :: ·) := fun t =>
    pieces_cons (by decide) fun h => by simp at h
  induction vs with
  | nil => exact absurd rfl h
  | cons v vs ih =>
    cases vs with
    | nil =>
      have he : Text.joined " | " ([v].map (Text.replaced '|' "\\|")) ++ [' ', '|'] =
          Text.replaced '|' "\\|" v ++ ' ' :: ['|'] := by simp [Text.joined]
      rw [hs, he, pieces_replaced]
      rfl
    | cons w vs =>
      have he : Text.joined " | " ((v :: w :: vs).map (Text.replaced '|' "\\|")) ++ [' ', '|'] =
          Text.replaced '|' "\\|" v ++ ' ' :: '|' :: ' ' ::
            (Text.joined " | " ((w :: vs).map (Text.replaced '|' "\\|")) ++ [' ', '|']) := by
        simp [Text.joined, show (" | " : String).toList = [' ', '|', ' '] from rfl]
      rw [hs, he, pieces_replaced, hs, pieces_bar, ih (List.cons_ne_nil w vs)]
      rfl

/-- The cells of a row are the texts it was made of, each on one line and without blanks around
it. -/
theorem cells_row (vs : List Text) (h : vs ≠ []) :
    cells (row (vs.map escaped)) = vs.map fun v => (Text.singleLine v).trim := by
  have ha : Text.after? "|" (row (vs.map escaped)) =
      some (' ' :: (Text.joined " | " (vs.map escaped) ++ [' ', '|'])) :=
    List.isPrefixOf?_eq_some_iff_append_eq.mpr rfl
  have hm : vs.map escaped = (vs.map Text.singleLine).map (Text.replaced '|' "\\|") := by
    simp [escaped]
  have ht : ∀ v : Text, Text.trim (' ' :: (v ++ [' '])) = v.trim := fun v => by
    rw [show ' ' :: (v ++ [' ']) = [' '] ++ (v ++ [' ']) from rfl,
      Text.trim_append_of_blank rfl, Text.trim_append_of_blank_right rfl]
  rw [cells, ha, Option.getD_some, hm, pieces_joined _ (by simpa using h)]
  simp [ht, Function.comp_def, Option.filter]

theorem single_escaped (t : Text) : (escaped t).Single := by
  intro c hc
  obtain ⟨c', hc', hc⟩ := List.mem_flatMap.mp hc
  split at hc
  · exact (show Text.Single ("\\|" : String).toList by decide) c hc
  · rw [List.mem_singleton.mp hc]
    exact Text.single_singleLine t c' hc'

theorem single_row {vs : List Text} (h : ∀ v ∈ vs, v.Single) : (row vs).Single :=
  ((show Text.Single ("| " : String).toList by decide).append
    (Text.Single.joined (by decide) h)).append (by decide)

theorem trim_row (vs : List Text) : (row vs).trim = row vs := by
  have hr : row vs = '|' :: ((' ' :: Text.joined " | " vs ++ [' ']) ++ ['|']) := by simp [row]
  rw [hr, Text.trim_cons_concat rfl rfl]

/-- A row of cells on one line is one line, with no blanks around it. -/
theorem fields_row {vs : List Text} (h : ∀ v ∈ vs, v.Single) :
    Text.fields '\n' (row vs) = [row vs] := by
  have hb : Text.blank (row vs) = false := rfl
  rw [Text.fields_of_not_mem (single_row h).not_feed_mem, hb, trim_row]
  rfl

/-- A row of escaped texts is one line with no blanks around it. It has as many cells as there are
texts, each reads as its text on one line and without blanks around it, and a text that is replaced
changes its own cell alone. -/
theorem row_decodes (vs : List Text) (h : vs ≠ []) :
    (row (vs.map escaped)).lines = [row (vs.map escaped)] ∧
    (row (vs.map escaped)).trim = row (vs.map escaped) ∧
    (cells (row (vs.map escaped))).length = vs.length ∧
    (∀ (k : Nat) v, vs[k]? = some v →
      (cells (row (vs.map escaped)))[k]? = some (Text.singleLine v).trim) ∧
    ∀ k v, cells (row ((vs.set k v).map escaped)) =
      (cells (row (vs.map escaped))).set k (Text.singleLine v).trim := by
  have hsingle : (row (vs.map escaped)).Single := single_row fun t ht => by
    obtain ⟨v, -, rfl⟩ := List.mem_map.mp ht
    exact single_escaped v
  have hset : ∀ k v, vs.set k v ≠ [] := fun k v he => by
    rw [List.set_eq_nil_iff] at he
    exact h he
  refine ⟨Text.lines_of_single hsingle.not_feed_mem (by simp [row]), trim_row _, ?_, ?_, ?_⟩
  · rw [cells_row vs h, List.length_map]
  · intro k v hv
    rw [cells_row vs h, List.getElem?_map, hv]
    rfl
  · intro k v
    rw [cells_row vs h, cells_row _ (hset k v), List.map_set]

/-- Texts with bars, with backslashes in front of bars and at the end, with line breaks, and with
blanks alone. -/
def hostileTexts : List Text := ["a\\|\n|b\\", " \r\n", "|\r\nc ", "\\"]

theorem row_decodes_hostile : hostileTexts ≠ [] ∧
    (row (hostileTexts.map escaped)).lines = [row (hostileTexts.map escaped)] ∧
    (row (hostileTexts.map escaped)).trim = row (hostileTexts.map escaped) ∧
    (cells (row (hostileTexts.map escaped))).length = hostileTexts.length ∧
    (∀ (k : Nat) v, hostileTexts[k]? = some v →
      (cells (row (hostileTexts.map escaped)))[k]? = some (Text.singleLine v).trim) ∧
    ∀ k v, cells (row ((hostileTexts.set k v).map escaped)) =
      (cells (row (hostileTexts.map escaped))).set k (Text.singleLine v).trim :=
  ⟨by decide, row_decodes hostileTexts (by decide)⟩

example : cells (row (hostileTexts.map escaped)) = ["a\\| |b\\", "", "|  c", "\\"] := by
  decide +kernel

end DesignRecords.Table
