import DesignRecords.Proofs.Adr.Listing
import DesignRecords.Proofs.Document.Repeated
import DesignRecords.Proofs.Workspace.Held
import DesignRecords.Proofs.Workspace.Refinement

namespace DesignRecords

variable {w : Workspace} {d : Disk} {doc e : Document} {s s' : Session} {task t : Text}
  {cs : List Communication} {adrs : List Text} {later : Instant} {added : Additions}

theorem Text.neat_joined {a b sep : Text} (ha : a.Neat) (hb : b.Neat) : Neat (a ++ sep ++ b) := by
  refine ⟨by simp [ha.1], ?_⟩
  have hs : a.trimStart = a := by
    rw [← ha.2]
    exact trimStart_trim
  have he : b.trimEnd = b := by
    rw [← hb.2]
    exact trimEnd_trim
  rw [trim, List.append_assoc, trimStart_append_of_not ha.solid, hs, ← List.append_assoc,
    trimEnd_append_of_not hb.solid, he]

theorem Communication.trim_attribution (c : Communication) :
    c.attribution.trim = c.attribution := by
  unfold attribution
  simp only
  split
  · rfl
  next hn =>
    split
    · exact Text.trim_trim
    next hc =>
      split
      · exact Text.trim_trim
      next hs =>
        have hneat : ∀ t : Text, ¬ t.trim.isEmpty = true → t.trim.Neat := fun t ht =>
          ⟨fun h => ht (by rw [h]; rfl), Text.trim_trim⟩
        exact (Text.neat_joined (hneat c.source hs) (hneat c.contact hc)).2

theorem Communication.tidy_toDecision (c : Communication) : c.toDecision.Tidy :=
  ⟨Text.trim_trim, c.trim_attribution⟩

theorem Communication.tidy_of_mem_decisions : ∀ x ∈ decisions cs, x.Tidy := by
  intro x hx
  obtain ⟨c, -, rfl⟩ := List.mem_map.mp hx
  exact c.tidy_toDecision

namespace Workspace

theorem neat_adrLink (w : Workspace) (ticket : Path) (adr : Adr) : (w.adrLink ticket adr).Neat := by
  have h : w.adrLink ticket adr =
      ['['] ++ (adr.id ++ "](".toList ++ w.layout.link ticket adr.path) ++ [')'] := by
    simp [adrLink]
  rw [h]
  exact Text.neat_joined (by decide) (by decide)

theorem answers_communicationsOf (h : w.communications d task = .ok cs) :
    Answers (w.communicationsOf task) d (.ok cs) := by
  intro n
  refine ⟨n, ?_⟩
  change ((w.communications d task).mapError _, Session.mk d n) = _
  rw [h]
  rfl

/-- What populating a document comes to once all that it reads is known. -/
theorem populate_apply (hn : w.disturbances = .none)
    (ht : d.readText (w.layout.design d task) = .ok t) (hc : w.communications d task = .ok cs)
    (hr : w.reread d task = .ok cs) (ha : Answers (w.relatedAdrs task) d (.ok adrs)) (n : Nat) :
    ∃ n', w.populate task ⟨d, n⟩ = (do
      let merged := (Document.read task t).merged (Communication.requirements cs)
        (Communication.decisions cs) adrs
      let _ ← w.save merged
      return .between (.read task t) merged : Work Additions) ⟨d, n'⟩ := by
  have hextract : Answers (w.asked.extract task) d (.ok (Communication.decisions cs)) :=
    (answers_communicationsOf hr).bind_pure _
  obtain ⟨n₁, h₁⟩ := answers_document_ok hn ht n
  obtain ⟨n₂, h₂⟩ := answers_communicationsOf hc n₁
  obtain ⟨n₃, h₃⟩ := hextract n₂
  obtain ⟨n₄, h₄⟩ := ha n₃
  exact ⟨n₄, (bind_of_ok _ _ h₁ _).trans ((bind_of_ok _ _ h₂ _).trans
    ((bind_of_ok _ _ h₃ _).trans (bind_of_ok _ _ h₄ _)))⟩

theorem populate_eq_ok (hn : w.disturbances = .none)
    (ht : s.disk.readText (w.layout.design s.disk task) = .ok t)
    (hc : w.communications s.disk task = .ok cs) (hr : w.reread s.disk task = .ok cs)
    (ha : Answers (w.relatedAdrs task) s.disk (.ok adrs))
    (h : w.populate task s = (.ok added, s')) :
    ∃ n e, Saved w ((Document.read task t).merged (Communication.requirements cs)
      (Communication.decisions cs) adrs) ⟨s.disk, n⟩ (.ok e, s') := by
  obtain ⟨n, hp⟩ := populate_apply hn ht hc hr ha s.calls
  rw [hp] at h
  obtain ⟨e, s₁, hsave, hx⟩ := bind_eq_ok _ _ (congrArg Prod.fst h)
  have hsaved := w.save_saved ((Document.read task t).merged (Communication.requirements cs)
    (Communication.decisions cs) adrs) ⟨s.disk, n⟩
  rw [hsave] at hsaved
  rw [hx] at h
  cases h
  exact ⟨n, e, hsaved⟩

theorem save_again {w' : Workspace} {doc' : Document} {n : Nat} (h : Saved w doc s (.ok e, s'))
    (hl : w'.layout = w.layout) (hn : w'.disturbances = .none) (ht : doc'.task = doc.task) :
    ∃ s'', w'.save doc' ⟨s'.disk, n⟩ = (.ok (w'.stamped doc'), s'') := by
  obtain ⟨place, goal, hp, hg, -, hv⟩ := h.view
  have hdesign : w'.layout.design s'.disk doc'.task = w.layout.design s.disk doc.task := by
    rw [hl, ht, h.design]
  have hstaging : w'.layout.stagingOf s'.disk doc'.task = w.layout.stagingOf s.disk doc.task := by
    rw [Layout.stagingOf, hdesign, Layout.stagingOf]
  have hplace : s'.disk.view place ≠ some none := by
    rw [hv, Function.update_of_ne (Layout.place_ne_goal hp hg), Function.update_self]
    simp
  have hgoal : s'.disk.view goal ≠ some none := by
    rw [hv, Function.update_self]
    simp
  obtain ⟨s'', hs, -⟩ := @save_of_undisturbed w' doc' ⟨s'.disk, n⟩ place goal hn
    (by rw [hstaging]; exact h.holds.locate hp) (by rw [hdesign]; exact h.holds.locate hg) hplace
    hgoal
  exact ⟨s'', hs⟩

/-- Whether the decision records of a disk are among those of another one. -/
def SameAdrs (l : Layout) (d d' : Disk) : Prop :=
  ∀ p, l.AdrFile d' p → l.AdrFile d p ∧ d'.readText p = d.readText p

theorem neat_of_linksTo {a : Text} (h : w.LinksTo d task a) : a.Neat := by
  obtain ⟨p, -, t, -, -, rfl⟩ := h
  exact w.neat_adrLink _ _

theorem SameAdrs.subset {links : List Text} (h : SameAdrs w.layout s.disk s'.disk)
    (hticket : w.layout.ticket s'.disk task = w.layout.ticket s.disk task)
    (hadrs : ∀ a, a ∈ adrs ↔ w.LinksTo s.disk task a)
    (hlinks : ∀ a, a ∈ links ↔ w.LinksTo s'.disk task a) : links ⊆ adrs := by
  intro a ha
  obtain ⟨p, hp, t', ht', hsource, rfl⟩ := (hlinks a).mp ha
  obtain ⟨hp', he⟩ := h p hp
  rw [he] at ht'
  rw [hticket]
  exact (hadrs _).mpr ⟨p, hp', t', ht', hsource, rfl⟩

/-- A document that has just been saved can be populated at a later time. -/
theorem populate_saved {m : Document} {n : Nat} {links : List Text} (hn : w.disturbances = .none)
    (hsaved : Saved w m ⟨d, n⟩ (.ok e, s')) (hc : w.communications s'.disk m.task = .ok cs)
    (hr : w.reread s'.disk m.task = .ok cs)
    (hl : Answers ({ w with now := later }.relatedAdrs m.task) s'.disk (.ok links))
    (hread : Document.read m.task (w.stamped m).render = doc) (hdoc : doc.task = m.task) :
    ∃ s'', { w with now := later }.populate m.task s' = (.ok (.between doc (doc.merged
        (Communication.requirements cs) (Communication.decisions cs) links)), s'') ∧
      s''.disk.readText (w.layout.design s''.disk m.task) = .ok ({ w with now := later }.stamped
        (doc.merged (Communication.requirements cs) (Communication.decisions cs) links)).render := by
  obtain ⟨n', hp⟩ := @populate_apply { w with now := later } s'.disk m.task _ cs links hn
    hsaved.written hc hr hl s'.calls
  rw [hread] at hp
  generalize hm : doc.merged (Communication.requirements cs) (Communication.decisions cs) links =
    again at hp ⊢
  have htask : again.task = m.task := by rw [← hm]; exact hdoc
  obtain ⟨s'', hsave⟩ := @save_again w m e ⟨d, n⟩ s' { w with now := later } again n' hsaved rfl hn
    htask
  have hsaved' := { w with now := later }.save_saved again ⟨s'.disk, n'⟩
  rw [hsave] at hsaved'
  have hwritten := hsaved'.written
  rw [htask] at hwritten
  exact ⟨s'', hp.trans (bind_of_ok _ _ hsave _), hwritten⟩

/-- A stable document that has been populated can be populated again with the same messages and
decision records. It is then as it was but for the time of the last change, and nothing is counted,
just where the messages that were new have contents without blanks around them. -/
theorem populate_again_iff (hn : w.disturbances = .none) (ht : task.Headless)
    (hs : s.disk.readText (w.layout.design s.disk task) = .ok t)
    (hstable : (Document.read task t).Stable) (hdates : ∀ c ∈ cs, Date.Valid c.date.date)
    (hcs : ∀ disk ∈ [s.disk, s'.disk],
      w.communications disk task = .ok cs ∧ w.reread disk task = .ok cs)
    (hadrs : SameAdrs w.layout s.disk s'.disk) (h : w.populate task s = (.ok added, s')) :
    ∃ text text' added' s'', { w with now := later }.populate task s' = (.ok added', s'') ∧
      s'.disk.readText (w.layout.design s'.disk task) = .ok text ∧
      s''.disk.readText (w.layout.design s''.disk task) = .ok text' ∧
      ((added' = ⟨0, 0, 0⟩ ∧ Document.SameButTime w.now later text text') ↔
        ∀ content ∈ (Document.read task t).newContents (Communication.requirements cs)
          (Communication.decisions cs), content.Neat) := by
  obtain ⟨-, adrs, ha, hmem⟩ := (finds_relatedAdrs (d := s.disk) hn task).resolve_right (by simp)
  obtain ⟨-, links, hl, hlmem⟩ := (@finds_relatedAdrs s'.disk { w with now := later } hn
    task).resolve_right (by simp)
  obtain ⟨hc, hr⟩ := hcs s.disk (by simp)
  obtain ⟨hc', hr'⟩ := hcs s'.disk (by simp)
  obtain ⟨n, e, hsaved⟩ := populate_eq_ok hn hs hc hr ha h
  have hsound : ((Document.read task t).merged (Communication.requirements cs)
      (Communication.decisions cs) adrs).Sound :=
    hstable.sound_merged _ _ (Communication.plain_of_mem_decisions hdates)
  -- The links are taken again from the disk that was written, so they need not be the same list.
  have hsub : links ⊆ adrs := hadrs.subset (hsaved.ticket task) hmem hlmem
  have hneat : ∀ a ∈ adrs, a.Neat := fun a ha => neat_of_linksTo ((hmem a).mp ha)
  generalize hm : (Document.read task t).merged (Communication.requirements cs)
    (Communication.decisions cs) adrs = m at hsaved hsound
  have htask : m.task = task := by rw [← hm]; exact Document.task_read task t
  subst htask
  have hreread : Document.read m.task (w.stamped m).render = (w.stamped m).reread :=
    (hsound.updated (some w.now)).read_render ht
  obtain ⟨s'', hp, hwritten⟩ := populate_saved hn hsaved hc' hr' hl hreread rfl
  have htidy := @Communication.tidy_of_mem_decisions cs
  have hagain := @Document.Stable.merged_again_iff w.now later _ _ (Communication.requirements cs)
    adrs links _ hstable htidy hneat hsub rfl
  rw [hm] at hagain
  exact ⟨_, _, _, s'', hp, hsaved.written, hwritten, hagain⟩

def message (tag : Tag) (content : Text) : Communication :=
  ⟨"c", [tag], content, "logs", "ann", "chat", ⟨⟨2026, 2, 28⟩, 0, 0⟩⟩

/-- A workspace in which the same messages are there for each task at all times. -/
def talking (cs : List Communication) : Workspace :=
  { sample with communications := fun _ _ => .ok cs, reread := fun _ _ => .ok cs }

/-- A ticket with a new document, and a decision record that came from it. -/
def talkingSession : Session :=
  ⟨⟨[("ws", .directory [
      ("docs", .directory [
        ("decisions", .directory [("0001-logs.md", .file (.text "# Logs\n**Source:** T-1\n"))])]),
      ("tickets", .directory [
        ("T-1", .directory [("design.md", .file (.text
          { Document.scaffold "T-1" with updated := some sample.now }.render))])])])], []⟩, 0⟩

def sampleMessages : List Communication :=
  [message .requirement "Keep the\nlogs", message .decision "a|b"]

def populatedSession : Session := ((talking sampleMessages).populate "T-1" talkingSession).2

theorem populate_again_iff_sampleMessages :
    ((talking sampleMessages).populate "T-1" talkingSession).1 = .ok ⟨1, 1, 1⟩ ∧
    ∃ text text' added' s'', { talking sampleMessages with now := ⟨⟨2026, 3, 2⟩, 0, 0⟩ }.populate
        "T-1" populatedSession = (.ok added', s'') ∧
      populatedSession.disk.readText (sample.layout.design populatedSession.disk "T-1") =
        .ok text ∧
      s''.disk.readText (sample.layout.design s''.disk "T-1") = .ok text' ∧
      ((added' = ⟨0, 0, 0⟩ ∧
          Document.SameButTime sample.now ⟨⟨2026, 3, 2⟩, 0, 0⟩ text text') ↔
        ∀ content ∈ (Document.read "T-1"
            { Document.scaffold "T-1" with updated := some sample.now }.render).newContents
          (Communication.requirements sampleMessages) (Communication.decisions sampleMessages),
          content.Neat) := by
  have hfirst : ((talking sampleMessages).populate "T-1" talkingSession).1 = .ok ⟨1, 1, 1⟩ := by
    decide +kernel
  have hpair : ∀ r : Except Failure Additions × Session, r.1 = .ok ⟨1, 1, 1⟩ →
      r = (.ok ⟨1, 1, 1⟩, r.2) := fun r h => Prod.ext h rfl
  have hpop : (talking sampleMessages).populate "T-1" talkingSession =
      (.ok ⟨1, 1, 1⟩, populatedSession) := by
    rw [populatedSession]
    exact hpair _ hfirst
  have hold : talkingSession.disk.list sample.layout.decisions = .ok ["0001-logs.md".toList] := by
    decide +kernel
  have hlist : populatedSession.disk.list sample.layout.decisions =
      .ok ["0001-logs.md".toList] := by decide +kernel
  have hadrs : SameAdrs sample.layout talkingSession.disk populatedSession.disk := by
    rintro p ⟨name, hname, markdown, rfl, -⟩
    rw [Disk.lists_of_ok hlist, List.mem_singleton] at hname
    subst hname
    exact ⟨⟨_, (Disk.lists_of_ok hold).mpr (by simp), markdown, rfl, by decide +kernel⟩,
      by decide +kernel⟩
  have hhead : Text.Headless "T-1" := by decide
  have hread : talkingSession.disk.readText (sample.layout.design talkingSession.disk "T-1") =
      .ok { Document.scaffold "T-1" with updated := some sample.now }.render := by decide +kernel
  have hstable := (Document.sound_scaffold "T-1").stable_read hhead (some sample.now)
  have hdates : ∀ c ∈ sampleMessages,
      Date.ofParts? c.date.date.year c.date.date.month c.date.date.day = some c.date.date := by
    decide +kernel
  exact ⟨hfirst, populate_again_iff (w := talking sampleMessages) rfl hhead hread hstable hdates
    (fun _ _ => ⟨rfl, rfl⟩) hadrs hpop⟩

/-- What comes of populating a document twice, and the text of the document after each time. -/
def populatedTwice (cs : List Communication) :
    (Except Failure Additions × Except Fault Text) × Except Failure Additions × Except Fault Text :=
  let w := talking cs
  let (once, s) := w.populate "T-1" talkingSession
  let (twice, s') := w.populate "T-1" s
  ((once, s.disk.readText (w.layout.design s.disk "T-1")), twice,
    s'.disk.readText (w.layout.design s'.disk "T-1"))

/-- A line feed at the end of a message is written as a blank that is lost the second time, and a
message that says nothing is added each time. -/
theorem populatedTwice_differs :
    (populatedTwice [message .requirement "Keep logs\n"]).1.1 = .ok ⟨1, 0, 1⟩ ∧
    (populatedTwice [message .requirement "Keep logs\n"]).1.2 ≠
      (populatedTwice [message .requirement "Keep logs\n"]).2.2 ∧
    (populatedTwice [message .requirement []]).1.1 = .ok ⟨1, 0, 1⟩ ∧
    (populatedTwice [message .requirement []]).2.1 = .ok ⟨1, 0, 0⟩ := by
  decide +kernel

end Workspace

end DesignRecords
