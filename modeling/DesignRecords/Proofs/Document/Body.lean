import DesignRecords.Document.Reader
import DesignRecords.Proofs.Document.Layout

namespace DesignRecords

namespace Section

variable {name : Text} {s : Section} {ss : List Section}

theorem bodyOf_cons_of_same (h : Text.sameIgnoringCase s.header name = true) :
    bodyOf (s :: ss) name = s.body := by
  simp [bodyOf, h]

theorem bodyOf_append_of_forall (ts : List Section)
    (h : ∀ s ∈ ss, Text.sameIgnoringCase s.header name = false) :
    bodyOf (ss ++ ts) name = bodyOf ts name := by
  have hn : ss.find? (fun s => Text.sameIgnoringCase s.header name) = none := by
    rw [List.find?_eq_none]
    intro s hs
    simp [h s hs]
  rw [bodyOf, List.find?_append, hn]
  rfl

theorem bodyOf_cons_of_not (h : Text.sameIgnoringCase s.header name = false) :
    bodyOf (s :: ss) name = bodyOf ss name :=
  @bodyOf_append_of_forall name [s] ss (by simpa using h)

theorem body_ofLines (head : Text) (ls : List Text) :
    (ofLines head ls).body = Text.trim (Text.ofLines ls) := rfl

end Section

namespace Document

open Section

variable {d : Document} {h : Heading}

theorem header_ofLines (h : Heading) (ls : List Text) :
    (ofLines (headingLine h) ls).header = h.text := by
  cases h <;> rfl

theorem same_heading (h h' : Heading) :
    Text.sameIgnoringCase h'.text h.text = decide (h' = h) := by
  cases h <;> cases h' <;> rfl

/-- The lines of a section of a written document before the first header in it. -/
def bodyLines (d : Document) : Heading → List Text
  | .overview => (opened d.overviewBody).1
  | .architecture => (opened d.architectureBody).1
  | .components => Component.bodyLines d.components
  | .decisions => d.decisionBody
  | .adrs => d.adrBody
  | .requirements => d.requirementBody

/-- The sections that headers inside the sections before one with a given heading start. -/
def strays (d : Document) : Heading → List Section
  | .overview => []
  | .architecture => (opened d.overviewBody).2
  | _ => (opened d.overviewBody).2 ++ (opened d.architectureBody).2

/-- A section is found under its name, unless a header inside an earlier one has that name. -/
theorem bodyOf_blocks (hs : ∀ s ∈ d.strays h, Text.sameIgnoringCase s.header h.text = false) :
    bodyOf (ofBlocks d.blocks) h.text = Text.trim (Text.ofLines (d.bodyLines h)) := by
  have hf : ∀ h' ls ss, bodyOf (ofLines (headingLine h') ls :: ss) h.text =
      if h' = h then Text.trim (Text.ofLines ls) else bodyOf ss h.text := by
    intro h' ls ss
    have hh : Text.sameIgnoringCase (ofLines (headingLine h') ls).header h.text =
        decide (h' = h) := by
      rw [header_ofLines, same_heading]
    by_cases he : h' = h
    · rw [if_pos he, bodyOf_cons_of_same (by rw [hh, decide_eq_true he]), body_ofLines]
    · rw [if_neg he, bodyOf_cons_of_not (by rw [hh, decide_eq_false he])]
  rw [ofBlocks_blocks, List.cons_append, hf]
  cases h with
  | overview => rfl
  | architecture =>
    have ho : ∀ s ∈ (opened d.overviewBody).2,
        Text.sameIgnoringCase s.header (Heading.text .architecture) = false := hs
    rw [if_neg (by decide), bodyOf_append_of_forall _ ho, List.cons_append, hf]
    rfl
  | _ =>
    have ho := fun s hm => hs s (List.mem_append_left _ hm)
    have ha := fun s hm => hs s (List.mem_append_right _ hm)
    rw [if_neg (by decide), bodyOf_append_of_forall _ ho, List.cons_append, hf,
      if_neg (by decide), bodyOf_append_of_forall _ ha]
    simp only [laterBlocks, List.map_cons, hf]
    rfl

end Document

end DesignRecords
