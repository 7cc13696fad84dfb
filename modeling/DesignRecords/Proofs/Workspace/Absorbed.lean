import DesignRecords.Proofs.Document.Absorbed
import DesignRecords.Proofs.Workspace.Gradual
import Mathlib.Data.Prod.Basic

namespace DesignRecords

namespace Workspace

variable {w : Workspace} {s s' : Session} {task : Text} {added : Additions}

/-- What was read, and what was written, where a document could be populated. -/
theorem populate_eq_merged (h : w.populate task s = (.ok added, s')) :
    ∃ t told retold links,
      s.disk.readText (w.layout.design s.disk task) = .ok t ∧
      w.communications s.disk task = .ok told ∧ w.reread s.disk task = .ok retold ∧
      (∃ mid, mid.disk = s.disk ∧ (w.relatedAdrs task mid).1 = .ok links) ∧
      let m := (Document.read task t).merged (Communication.requirements told)
        (Communication.decisions retold) links
      added = .between (.read task t) m ∧
        s'.disk.readText (w.layout.design s'.disk task) = .ok (w.stamped m).render := by
  unfold populate at h
  obtain ⟨d, s₁, h₁, hx₁⟩ := bind_eq_ok _ _ (congrArg Prod.fst h)
  rw [hx₁] at h
  obtain ⟨told, s₂, h₂, hx₂⟩ := bind_eq_ok _ _ (congrArg Prod.fst h)
  rw [hx₂] at h
  obtain ⟨ds, s₃, h₃, hx₃⟩ := bind_eq_ok _ _ (congrArg Prod.fst h)
  rw [hx₃] at h
  obtain ⟨links, s₄, h₄, hx₄⟩ := bind_eq_ok _ _ (congrArg Prod.fst h)
  rw [hx₄] at h
  obtain ⟨e, s₅, h₅, hx₅⟩ := bind_eq_ok _ _ (congrArg Prod.fst h)
  rw [hx₅] at h
  cases h
  obtain ⟨t, ht, rfl⟩ := document_eq_ok h₁
  have hd₁ : s₁.disk = s.disk := (reads_document w task).disk h₁
  have hd₂ : s₂.disk = s.disk := ((reads_communicationsOf w task).disk h₂).trans hd₁
  have hd₃ : s₃.disk = s.disk := ((reads_extract w.asked task).disk h₃).trans hd₂
  have htold := communicationsOf_eq_ok h₂
  rw [hd₁] at htold
  obtain ⟨retold, hretold, rfl⟩ := extract_eq_ok h₃
  rw [hd₂] at hretold
  have hsaved := w.save_saved ((Document.read task t).merged (Communication.requirements told)
    (Communication.decisions retold) links) s₄
  rw [h₅] at hsaved
  exact ⟨t, told, retold, links, ht, htold, hretold, ⟨s₃, hd₃, by rw [h₄]⟩, rfl, hsaved.written⟩

/-- A document that could be populated has taken in all that its messages tell of and all links,
each thing once and in order, and nothing else of it has changed but the time of the last
change. -/
theorem populate_absorbs (h : w.populate task s = (.ok added, s')) :
    ∃ t told retold links e,
      s.disk.readText (w.layout.design s.disk task) = .ok t ∧
      w.communications s.disk task = .ok told ∧ w.reread s.disk task = .ok retold ∧
      (∃ mid, mid.disk = s.disk ∧ (w.relatedAdrs task mid).1 = .ok links) ∧
      (Document.read task t).Absorbs told retold links added e ∧ e.updated = some w.now ∧
      s'.disk.readText (w.layout.design s'.disk task) = .ok e.render := by
  obtain ⟨t, told, retold, links, ht, htold, hretold, hlinks, rfl, hwritten⟩ :=
    populate_eq_merged h
  exact ⟨t, told, retold, links, _, ht, htold, hretold, hlinks,
    (Document.read task t).absorbs_merged told retold links (some w.now), rfl, hwritten⟩

/-- Of the messages the third says what the first one says, with other blanks. -/
theorem populate_absorbs_laterMessages :
    let w := sample.telling (sampleMessages ++ laterMessages) ⟨⟨2026, 3, 2⟩, 0, 0⟩
    let r := w.populate "T-1" talkingSession
    r.1 = .ok ⟨1, 2, 1⟩ ∧ ∃ t told retold links e,
      talkingSession.disk.readText (w.layout.design talkingSession.disk "T-1") = .ok t ∧
      w.communications talkingSession.disk "T-1" = .ok told ∧
      w.reread talkingSession.disk "T-1" = .ok retold ∧
      (∃ mid, mid.disk = talkingSession.disk ∧ (w.relatedAdrs "T-1" mid).1 = .ok links) ∧
      (Document.read "T-1" t).Absorbs told retold links ⟨1, 2, 1⟩ e ∧
      e.updated = some w.now ∧
      r.2.disk.readText (w.layout.design r.2.disk "T-1") = .ok e.render := by
  intro w r
  have hr : r.1 = .ok ⟨1, 2, 1⟩ := by decide +kernel
  exact ⟨hr, populate_absorbs (Prod.fst_eq_iff.mp hr)⟩

end Workspace

end DesignRecords
