import DesignRecords.Proofs.Document.Gradual
import DesignRecords.Proofs.Document.ReadTable
import DesignRecords.Proofs.Text.Trimmed

namespace DesignRecords

variable {d : Document} {t : Text}

theorem Text.headless_of_single (h : t.Single) : t.Headless := by
  have hb : broken t = [t] := broken_of_single h.not_feed_mem h.not_return_mem
  intro l hl
  rw [hb] at hl
  cases hl

namespace Document

open Section

/-- Whether the overview and the diagram of a document have no carriage returns and no headers. -/
structure Unheaded (d : Document) : Prop where
  overview : d.overview.Unheaded
  architecture : d.architecture.Unheaded

theorem Unheaded.quiet_overview (h : d.Unheaded) : Quiet (overviewLinesOf d.overview) :=
  quiet_overviewLinesOf h.overview.returns h.overview.headers

theorem Unheaded.quiet_architecture (h : d.Unheaded) :
    Quiet (architectureLinesOf d.architecture) :=
  quiet_architectureLinesOf h.architecture.returns (Or.inl h.architecture.headers)

theorem Unheaded.findable (h : d.Unheaded) (ht : d.task.Headless) : d.Findable where
  front := isHeader_frontLines ht
  strays k := by
    have ho : (opened d.overviewBody).2 = [] := congrArg Prod.snd (opened_of_quiet h.quiet_overview)
    have ha : (opened d.architectureBody).2 = [] :=
      congrArg Prod.snd (opened_of_quiet h.quiet_architecture)
    cases k <;> simp [strays, ho, ha]

theorem not_return_mem_decisionBody (d : Document) :
    '\r' ∉ Text.trim (Text.ofLines d.decisionBody) := by
  intro hr
  exact Text.not_return_mem_ofLines (fun _ => single_decisionBody) (Text.mem_of_mem_trim hr)

/-- Where all sections are found, the decisions that are read are plain. -/
theorem Findable.plain_of_mem_read (h : d.Findable) (t : Text) :
    ∀ x ∈ (read t d.render).decisions, x.Plain := by
  intro x hx
  have hbody : bodyOf (ofBlocks d.blocks) (Heading.text .decisions) =
      Text.trim (Text.ofLines d.decisionBody) := bodyOf_blocks (h.strays .decisions)
  simp only [read, split_render h.front, hbody] at hx
  exact (Decision.plain_settled_of_mem_readTable d.not_return_mem_decisionBody hx).1

/-- A document without headers that is read from its own text as it is is stable. -/
theorem stable_of_read_render (hr : read d.task d.render = d) (ht : d.task.Headless)
    (hu : d.Unheaded) : d.Stable := by
  have hf := hu.findable ht
  have hplain := hf.plain_of_mem_read d.task
  rw [hr] at hplain
  have he : d.reread = d := by
    have he := hf.read_render hplain d.task
    rw [hr, getD_findSome?_title] at he
    exact he.symm
  have ho := congrArg Document.overview he
  have ha := congrArg Document.architecture he
  rw [overview_reread] at ho
  rw [architecture_reread] at ha
  exact
    { title := congrArg Document.title he
      overview := ho
      architecture := ha
      components := congrArg Document.components he
      decisions := congrArg Document.decisions he
      plain := hplain
      adrs := congrArg Document.adrs he
      requirements := congrArg Document.requirements he }

end Document

end DesignRecords
