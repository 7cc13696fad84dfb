import DesignRecords.Document.Reader
import DesignRecords.Adr.Basic
import DesignRecords.Conflict.Requirement
import DesignRecords.Proofs.Text.Line

namespace DesignRecords

namespace Text

variable {s t l : Text}

/-- The second text is the first with a carriage return put in front of some of its line feeds:
of all of them, of none, or only of those of the lines that one editor wrote. -/
inductive Reended : Text → Text → Prop
  | nil : Reended [] []
  | same (c : Char) {t s : Text} (rest : Reended t s) : Reended (c :: t) (c :: s)
  | returned {t s : Text} (rest : Reended t s) : Reended ('\n' :: t) ('\r' :: '\n' :: s)

theorem reended_replaced (t : Text) : t.Reended (replaced '\n' "\r\n" t) := by
  induction t with
  | nil => exact .nil
  | cons c t ih =>
    by_cases hc : c = '\n'
    · subst hc
      exact .returned ih
    · have he : replaced '\n' "\r\n" (c :: t) = c :: replaced '\n' "\r\n" t := by
        simp [replaced, hc]
      rw [he]
      exact .same c ih

/-- The induction is on the characters that are left; `l` holds those of the line that has been
begun. -/
theorem Reended.lines_append (h : t.Reended s) (hr : '\r' ∉ t) (hl : '\n' ∉ l) (hc : '\r' ∉ l) :
    lines (l ++ s) = lines (l ++ t) := by
  induction h generalizing l with
  | nil => rfl
  | @same c t s _ ih =>
    have ht : '\r' ∉ t := fun hm => hr (List.mem_cons_of_mem c hm)
    by_cases hn : c = '\n'
    · subst hn
      have hs : lines s = lines t := ih ht (l := []) List.not_mem_nil List.not_mem_nil
      rw [lines_piece hl, lines_piece hl, hs]
    · have hcr : '\r' ≠ c := fun he => hr (he ▸ List.mem_cons_self)
      have hline := ih ht (l := l ++ [c]) (by simp [hl, Ne.symm hn]) (by simp [hc, hcr])
      simpa only [List.append_assoc, List.singleton_append] using hline
  | @returned t s _ ih =>
    have ht : '\r' ∉ t := fun hm => hr (List.mem_cons_of_mem '\n' hm)
    have hs : lines s = lines t := ih ht (l := []) List.not_mem_nil List.not_mem_nil
    have hd : dropReturn (l ++ ['\r']) = dropReturn l := by
      rw [dropReturn_concat, dropReturn_of_not_mem hc]
    have he : l ++ '\r' :: '\n' :: s = (l ++ ['\r']) ++ '\n' :: s := by simp
    rw [he, lines_piece (by simp [hl]), lines_piece hl, hd, hs]

theorem Reended.lines_eq (h : t.Reended s) (hr : '\r' ∉ t) : s.lines = t.lines :=
  h.lines_append hr (l := []) List.not_mem_nil List.not_mem_nil

end Text

/-- Nothing that is read from the first text differs from what is read from the second. -/
structure ReadAlike (s t : Text) : Prop where
  document : ∀ task, Document.read task s = Document.read task t
  adr : ∀ path, Adr.read path s = Adr.read path t
  requirements : Requirement.ofText s = Requirement.ofText t

variable {s t : Text}

theorem Section.split_congr (h : s.lines = t.lines) : split s = split t := by
  rw [split, split, h]

theorem Adr.read_congr (h : s.lines = t.lines) (path : Path) : read path s = read path t := by
  have hm : ∀ label, metadata? label s = metadata? label t := fun label => by
    rw [metadata?, metadata?, h]
  have ht : title? s = title? t := by rw [title?, title?, h]
  have hp : prose s = prose t := by rw [prose, prose, h]
  rw [read, read, hm, hm, ht, hp, Section.split_congr h]

/-- Every reader sees a text as its lines. -/
theorem readAlike_of_lines (h : s.lines = t.lines) : ReadAlike s t where
  document task := by rw [Document.read, Document.read, Section.split_congr h]
  adr := Adr.read_congr h
  requirements := by rw [Requirement.ofText, Requirement.ofText, h]

/-- A text without carriage returns is read as before when every line feed gets one, and also when
only some line feeds do. -/
theorem readAlike_of_reended (h : '\r' ∉ t) :
    ReadAlike (Text.replaced '\n' "\r\n" t) t ∧ ∀ s, t.Reended s → ReadAlike s t := by
  have hread : ∀ s, t.Reended s → ReadAlike s t := fun s hs => readAlike_of_lines (hs.lines_eq h)
  exact ⟨hread _ (Text.reended_replaced t), hread⟩

theorem readAlike_of_reended_block :
    let text : Text := "## Architecture\n\n```mermaid\ngraph TB\n```\n\n**Source:** T-1\n"
    '\r' ∉ text ∧ ReadAlike
      "## Architecture\r\n\r\n```mermaid\r\ngraph TB\r\n```\r\n\r\n**Source:** T-1\r\n" text :=
  have hr : '\r' ∉
      ("## Architecture\n\n```mermaid\ngraph TB\n```\n\n**Source:** T-1\n" : Text) := by decide
  ⟨hr, (readAlike_of_reended hr).1⟩

end DesignRecords
