import DesignRecords.Adr.Basic
import DesignRecords.Proofs.Text.Trim
import DesignRecords.Proofs.Workspace.Link

namespace DesignRecords

theorem Text.after?_eq_some {lead rest t : Text} :
    after? lead t = some rest ↔ t = lead ++ rest := by
  rw [after?, List.isPrefixOf?_eq_some_iff_append_eq, eq_comm]

namespace Adr

variable {label line t v : Text}

/-- Whether a line gives a value under a label, as a line of its own or as an item of a list. -/
def Gives (label line v : Text) : Prop :=
  ∃ rest, (line.trim = label ++ rest ∨ line.trim = "- " ++ (label ++ rest)) ∧
    rest.blank = false ∧ v = rest.trim

/-- Whether a value is given on the first line of a text that gives any under the label. -/
def GivesFirst (label t v : Text) : Prop :=
  ∃ before line after, t.lines = before ++ line :: after ∧
    (∀ l ∈ before, ∀ v', ¬ Gives label l v') ∧ Gives label line v

theorem valueAfter_eq_some : (do
      let value ← Text.after? label line
      if Text.blank value then none else some (Text.trim value)) = some v ↔
    ∃ rest, line = label ++ rest ∧ rest.blank = false ∧ v = rest.trim := by
  rw [Option.bind_eq_bind, Option.bind_eq_some_iff]
  refine exists_congr fun rest => and_congr Text.after?_eq_some ?_
  cases rest.blank with
  | true => simp
  | false => simp [eq_comm]

section

variable (hl : label.head? = some '*')

include hl

theorem label_append_ne (rest r : Text) : label ++ rest ≠ "- " ++ r := by
  obtain ⟨label, rfl⟩ := List.head?_eq_some_iff.mp hl
  intro he
  cases (List.cons.inj he).1

theorem valueOnLine?_eq_some_iff : valueOnLine? label line = some v ↔ Gives label line v := by
  rw [valueOnLine?, valueAfter_eq_some]
  refine exists_congr fun rest => and_congr_left fun _ => ?_
  cases hd : Text.after? "- " line.trim with
  | some r =>
    have hr := Text.after?_eq_some.mp hd
    rw [Option.getD_some, hr]
    constructor
    · rintro rfl
      exact Or.inr rfl
    · rintro (h | h)
      · exact absurd h.symm (label_append_ne hl rest r)
      · exact List.append_cancel_left h
  | none =>
    rw [Option.getD_none]
    refine (or_iff_left fun h => ?_).symm
    rw [Text.after?_eq_some.mpr h] at hd
    cases hd

theorem metadata?_eq_some_iff : metadata? label t = some v ↔ GivesFirst label t v := by
  have hnone : ∀ l, valueOnLine? label l = none ↔ ∀ v', ¬ Gives label l v' := fun l => by
    rw [Option.eq_none_iff_forall_ne_some]
    exact forall_congr' fun v' => not_congr (valueOnLine?_eq_some_iff hl)
  rw [metadata?, List.findSome?_eq_some_iff]
  simp only [GivesFirst, hnone, valueOnLine?_eq_some_iff hl]
  constructor
  · rintro ⟨before, line, after, ht, hv, hb⟩
    exact ⟨before, line, after, ht, hb, hv⟩
  · rintro ⟨before, line, after, ht, hb, hv⟩
    exact ⟨before, line, after, ht, hv, hb⟩

end

theorem source_read {p : Path} : (read p t).source = some v ↔ GivesFirst Label.source t v :=
  metadata?_eq_some_iff rfl

theorem id_read {dir : Path} {name : Text} (h : Path.IsName name) :
    (read (dir.entry name) t).id = idOf name := by
  have hn : (dir.entry name).fileName? = some name := Path.fileName?_entry h
  rw [id, fileName, read, nameAt, hn]
  rfl

end Adr

namespace Path

variable {name : Text}

/-- Whether the name of a file has the extension `md`, in any case, behind something else. -/
def Markdown (name : Text) : Prop :=
  ∃ stem extension, stem ≠ [] ∧ '.' ∉ extension ∧
    Text.sameIgnoringCase "md" extension = true ∧ name = stem ++ '.' :: extension

theorem splitName_of_not_mem (h : '.' ∉ name) : splitName name = (name, none) := by
  rw [splitName, List.splitOn_eq_singleton h]
  rfl

theorem splitName_append {stem extension : Text} (h : '.' ∉ extension) :
    splitName (stem ++ '.' :: extension) =
      if stem.isEmpty then (stem ++ '.' :: extension, none) else (stem, some extension) := by
  obtain ⟨piece, pieces, hp⟩ := List.exists_cons_of_ne_nil
    (List.reverse_ne_nil_iff.mpr (List.splitOn_ne_nil '.' stem))
  have hstem : Text.joined "." (piece :: pieces).reverse = stem := by
    rw [← hp, List.reverse_reverse]
    exact List.intercalate_splitOn '.'
  rw [splitName, List.splitOn_append_cons_self, List.splitOn_eq_singleton h, List.reverse_append,
    hp]
  change (if (Text.joined "." (piece :: pieces).reverse).isEmpty then _ else _) = _
  rw [hstem]

theorem fileName?_mk (h : IsName name) : (Path.mk name).fileName? = some name := by
  have hentry : (Path.mk []).entry name = ⟨name⟩ := by simp [entry, join]
  rw [← hentry, fileName?_entry h]

theorem isMarkdown_iff (h : IsName name) : (Path.mk name).isMarkdown = true ↔ Markdown name := by
  have hm : (Path.mk name).isMarkdown =
      ((splitName name).2.map (Text.sameIgnoringCase "md")).getD false := by
    rw [isMarkdown, extension?, fileName?_mk h]
    rfl
  rw [hm]
  constructor
  · intro hext
    rcases Text.last_piece_cases '.' name with hd | ⟨stem, extension, hd, rfl⟩
    · rw [splitName_of_not_mem hd] at hext
      cases hext
    · rw [splitName_append hd] at hext
      split at hext
      next => cases hext
      next hs => exact ⟨stem, extension, by simpa using hs, hd, hext, rfl⟩
  · rintro ⟨stem, extension, hs, hd, hext, rfl⟩
    rw [splitName_append hd, if_neg (by simpa using hs)]
    exact hext

end Path

end DesignRecords
