import DesignRecords.Proofs.Document.Stray
import DesignRecords.Proofs.Workspace.Held
import DesignRecords.Proofs.Workspace.Refinement

namespace DesignRecords

/-- The sessions in which a task's document has been made and worked on by changes of a class. The
workspaces that do the work share their layout alone: each has its own time, its own messages and
its own failures. -/
inductive Layout.Reached (l : Layout) (task : Text) (ok : Update → Prop) : Session → Prop
  | made {w : Workspace} {s : Session} {d : Document} (here : w.layout = l)
      (missing : (w.hasDesign task s).1 = false) (done : (w.create task s).1 = .ok d) :
      Reached l task ok (w.create task s).2
  | created {w : Workspace} {s : Session} (here : w.layout = l) (before : Reached l task ok s) :
      Reached l task ok (w.create task s).2
  | changed {w : Workspace} {s : Session} {name content : Text} (here : w.layout = l)
      (before : Reached l task ok s) (allowed : ∀ u ∈ Update.ofSection? name content, ok u) :
      Reached l task ok (w.updateSection task name content s).2
  | populated {w : Workspace} {s : Session} (here : w.layout = l) (before : Reached l task ok s)
      (dated : w.Dated) : Reached l task ok (w.populate task s).2

variable {l : Layout} {task : Text} {tasks : Text → Prop} {ok ok' : Update → Prop} {s : Session}
  {w : Workspace} {r : Place} {d d' : Document} {u : Update}

theorem Layout.Reached.mono (h : l.Reached task ok s) (hok : ∀ u, ok u → ok' u) :
    l.Reached task ok' s := by
  induction h with
  | made here missing done => exact .made here missing done
  | created here _ ih => exact .created here ih
  | changed here _ allowed ih => exact .changed here ih fun u hu => hok u (allowed u hu)
  | populated here _ dated ih => exact .populated here ih dated

/-- Work with changes that keep to their sections keeps the document stable. -/
theorem Layout.Reached.holds (ht : task.Headless) (h : l.Reached task Update.Safe s) :
    l.Holds task Document.Stable s.disk := by
  have hnew := fun i => (Document.sound_scaffold task).stable_read ht (some i)
  have hp := Document.preserved_stable ht
  induction h with
  | made here missing done => exact here ▸ Workspace.holds_created (hnew _) missing done
  | created here _ ih => exact here ▸ Workspace.holds_create (hnew _) (here.symm ▸ ih)
  | changed here _ allowed ih =>
    exact here ▸ Workspace.holds_updateSection hp allowed (here.symm ▸ ih)
  | populated here _ dated ih => exact here ▸ Workspace.holds_populate hp dated (here.symm ▸ ih)

/-- Whether no change of a class ever loses anything of another section, however the documents of
some tasks have been worked on with changes of that class. -/
def Undamaged (tasks : Text → Prop) (ok : Update → Prop) : Prop :=
  ∀ (w : Workspace) (task : Text) (s : Session), tasks task → w.layout.Reached task ok s →
    ∃ d, w.shown task s = .ok d ∧ ∀ name content u, Update.ofSection? name content = some u →
      ok u → ∀ e, (w.updateSection task name content s).1 = .ok e →
        ∃ d', w.shown task (w.updateSection task name content s).2 = .ok d' ∧ u.Frames d d'

/-- Changes that keep to their sections lose nothing. -/
theorem undamaged_safe : Undamaged Text.Headless Update.Safe := by
  intro w task s ht hs
  obtain ⟨t, htext, hold⟩ := hs.holds ht
  refine ⟨.read task t, Workspace.shown_of_readText htext, ?_⟩
  intro name content u hu hsafe e he
  have hf := (hold.revised (by rwa [Document.task_read]) hsafe w.now).2
  exact ⟨_, Workspace.updateSection_eq_ok hu htext he, hf⟩

namespace Workspace

theorem shown_kept (h : w.layout.Rooted s.disk r) (ht : task.NamesTask) (hf : w.layout.Fits task)
    (hk : Kept s.disk r task (some d)) : w.shown task s = .ok d := by
  have hd := @document_kept { w with disturbances := .none } r s task (some d) rfl h ht hf hk
  rw [shown, hd]
  rfl

/-- Whether a document is at hand to be changed: it has been reached, it is the one that is read,
and nothing on the disk keeps it from being written. -/
structure AtHand (w : Workspace) (r : Place) (task : Text) (ok : Update → Prop) (d : Document)
    (s : Session) : Prop where
  reached : w.layout.Reached task ok s
  rooted : w.layout.Rooted s.disk r
  kept : Kept s.disk r task (some d)

theorem atHand_of_view {t : Text} (hs : w.layout.Reached task ok s)
    (h : w.layout.Rooted s.disk r ∧ s.disk.view (home r task) = some none ∧
      s.disk.view (home r task ++ [("design.md.tmp" : Text)]) = none ∧
      s.disk.view (home r task ++ [("design.md" : Text)]) = some (some (.text t)) ∧
      .read task t = d) : AtHand w r task ok d s :=
  ⟨hs, h.1, h.2.1, h.2.2.1, t, h.2.2.2⟩

/-- Where no change of a class loses anything, such a change frames the document at hand. -/
theorem AtHand.change (h : Undamaged tasks ok) (hs : AtHand w r task ok d s) (ht : tasks task)
    (hn : w.disturbances = .none) (hname : task.NamesTask) (hf : w.layout.Fits task) (hu : ok u) :
    u.Frames d (d.revised u w.now) ∧ ∃ s', AtHand w r task ok (d.revised u w.now) s' := by
  obtain ⟨name, content, hc⟩ := u.exists_section
  obtain ⟨s', hsaved, hconf, hk⟩ := updateSection_rooted hn hs.rooted hname hf hc hs.kept
  have hr := hs.rooted.confined hconf hname.free
  have htask : d.task = task := by
    obtain ⟨-, -, t, -, hread⟩ := hs.kept
    rw [← hread, Document.task_read]
  rw [read_stamped htask] at hk
  obtain ⟨d₁, hd₁, hall⟩ := h w task s ht hs.reached
  obtain ⟨d₂, hd₂, hframes⟩ := hall name content u hc hu (w.stamped (u.apply d)) (by rw [hsaved])
  rw [shown_kept hs.rooted hname hf hs.kept] at hd₁
  rw [hsaved, shown_kept hr hname hf hk] at hd₂
  cases hd₁
  cases hd₂
  refine ⟨hframes, s', ?_, hr, hk⟩
  have hreached := Layout.Reached.changed (w := w) rfl hs.reached
    (fun v hv => by rw [hc] at hv; cases hv; exact hu)
  rwa [hsaved] at hreached

def furnished : Session :=
  ⟨⟨[("ws", .directory [("docs", .directory [("decisions", .directory
    [("ADR-1.md", .file (.text "**Source:** T-1"))])])])], []⟩, 0⟩

/-- The sample workspace with a message that a requirement was stated in. -/
def informed : Workspace :=
  { sample with
    communications := fun _ _ => .ok [⟨"m", [.requirement], "x", [], [], [], sample.now⟩] }

def sparse : Session := (sample.create "T-1" furnished).2

def rich : Session :=
  let s := (sample.updateSection "T-1" "architecture" "x" sparse).2
  let s := (sample.updateSection "T-1" "components" "x" s).2
  let s := (sample.updateSection "T-1" "decisions" "x" s).2
  (informed.populate "T-1" s).2

def sparseDocument : Document := { Document.scaffold "T-1" with updated := some sample.now }

def richDocument : Document :=
  { sparseDocument with
    architecture := "x"
    components := [.named "x"]
    decisions := [.stated "x"]
    adrs := ["[ADR-1](../../docs/decisions/ADR-1.md)"]
    requirements := ["x"] }

theorem reached_sparse : sample.layout.Reached "T-1" Update.Safe sparse :=
  .made rfl (by decide +kernel)
    (by decide +kernel : (sample.create "T-1" furnished).1 = .ok sparseDocument)

theorem reached_rich : sample.layout.Reached "T-1" Update.Safe rich := by
  have hd : informed.Dated := by
    intro disk task cs h c hc
    cases h
    cases hc
  have hdiagram : (Update.architecture "x").Safe :=
    Document.architectureContained_of_unheaded ⟨by decide, by decide⟩
  have hreached := reached_sparse
  have hreached := hreached.changed (w := sample) rfl
    (by rintro u ⟨⟩; exact hdiagram : ∀ u ∈ Update.ofSection? "architecture" "x", u.Safe)
  have hreached := hreached.changed (w := sample) rfl
    (by rintro u ⟨⟩; trivial : ∀ u ∈ Update.ofSection? "components" "x", u.Safe)
  have hreached := hreached.changed (w := sample) rfl
    (by rintro u ⟨⟩; trivial : ∀ u ∈ Update.ofSection? "decisions" "x", u.Safe)
  exact hreached.populated (w := informed) rfl hd

theorem atHand_sparse (h : ∀ u : Update, u.Safe → ok u) :
    AtHand sample [("ws" : Text)] "T-1" ok sparseDocument sparse :=
  @atHand_of_view "T-1" ok sparse sample _ _ sparseDocument.render (reached_sparse.mono h)
    (by decide +kernel)

theorem atHand_rich (h : ∀ u : Update, u.Safe → ok u) :
    AtHand sample [("ws" : Text)] "T-1" ok richDocument rich :=
  @atHand_of_view "T-1" ok rich sample _ _ richDocument.render (reached_rich.mono h)
    (by decide +kernel)

/-- The name of a task that starts a section in the head of its document. -/
def headedTask : Text := "a\n## Overview"

def headed : Session := (sample.create headedTask furnished).2

def headedDocument : Document :=
  { Document.scaffold headedTask with
    title := "a ## Overview"
    overview := "**Last Updated:** 2026-03-01T12:00:00Z" }

def later : Workspace := { sample with now := ⟨⟨2026, 3, 1⟩, 43201, 0⟩ }

/-- A section that the name of a task starts takes the time of the last change for its own text, so
that no change leaves it as it is. -/
theorem not_undamaged_of_headed (h : ∀ u : Update, u.Safe → ok u) :
    ¬ Undamaged (fun _ => True) ok := by
  intro hall
  have hreached : later.layout.Reached headedTask ok headed :=
    .made (w := sample) rfl (by decide +kernel) (by decide +kernel : (sample.create headedTask
      furnished).1 = .ok (sample.stamped (.scaffold headedTask)))
  obtain ⟨d, hd, hall⟩ := hall later headedTask headed trivial hreached
  have he : (later.updateSection headedTask "components" "x" headed).1 =
      .ok (later.stamped ((Update.component "x").apply headedDocument)) := by decide +kernel
  obtain ⟨d', hd', hframes⟩ := hall "components" "x" (.component "x") rfl (h _ trivial) _ he
  have ho : (later.shown headedTask (later.updateSection headedTask "components" "x" headed).2).map
      (·.overview) = (later.shown headedTask headed).map (·.overview) := by
    rw [hd, hd']
    exact congrArg Except.ok (hframes.overview (by simp [Update.heading]))
  exact absurd ho (by decide +kernel)

theorem quiet_placeholder : Section.Quiet (Document.overviewLinesOf overviewPlaceholder) :=
  Document.quiet_of_rereadOverview (by decide)

theorem safe_of_undamaged (h : ∀ u : Update, u.Safe → ok u)
    (hall : Undamaged Text.Headless ok) (hu : ok u) : u.Safe := by
  have hc : ok (.component "x") := h _ trivial
  obtain ⟨fd, s, hs⟩ := (atHand_sparse h).change hall (by decide) rfl (by decide) (by decide) hu
  obtain ⟨fe, -⟩ := (atHand_rich h).change hall (by decide) rfl (by decide) (by decide) hu
  obtain ⟨fc, -⟩ := hs.change hall (by decide) rfl (by decide) (by decide) hc
  exact Document.safe_of_frames (by decide) (by decide) quiet_placeholder quiet_placeholder
    (by decide) rfl rfl fd fe "x" fc

/-- Where the names of tasks start no sections, a class of changes that has all that keep to their
section loses nothing of other sections just if it has no more. With other names even those lose
something. -/
theorem undamaged_iff_safe (h : ∀ u : Update, u.Safe → ok u) :
    (Undamaged Text.Headless ok ↔ ∀ u, ok u → u.Safe) ∧ ¬ Undamaged (fun _ => True) ok := by
  refine ⟨⟨fun hall u hu => safe_of_undamaged h hall hu, fun hsafe => ?_⟩,
    not_undamaged_of_headed h⟩
  intro w task s ht hs
  obtain ⟨d, hd, hall⟩ := undamaged_safe w task s ht (hs.mono hsafe)
  exact ⟨d, hd, fun name content u hu hok => hall name content u hu (hsafe u hok)⟩

/-- An overview in which a block of code hides the header of another section. -/
def fencedOverview : Text := "```\n## Components\n```"

theorem frames_fencedOverview :
    (∀ u : Update, u.Safe → u.Safe) ∧ (Update.overview fencedOverview).Safe ∧
    ∃ d', sample.shown "T-1" (sample.updateSection "T-1" "overview" fencedOverview rich).2 =
      .ok d' ∧ (Update.overview fencedOverview).Frames richDocument d' := by
  have hsafe : (Update.overview fencedOverview).Safe := by decide +kernel
  refine ⟨fun _ => id, hsafe, ?_⟩
  obtain ⟨d, hd, hall⟩ := (undamaged_iff_safe fun _ => id).1.mpr (fun _ => id) sample "T-1" rich
    (by decide) reached_rich
  have hrich := atHand_rich fun _ => id
  rw [shown_kept hrich.rooted (by decide) (by decide) hrich.kept] at hd
  cases hd
  exact hall "overview" fencedOverview _ rfl hsafe
    (sample.stamped ((Update.overview fencedOverview).apply richDocument)) (by decide +kernel)

def decided : Session := (sample.updateSection "T-1" "decisions" "keep" sparse).2

/-- An overview that starts a section of its own hides the decisions. -/
theorem decisions_lost :
    sample.layout.Reached "T-1" (fun _ => True) decided ∧
    sample.shown "T-1" decided = .ok { sparseDocument with decisions := [.stated "keep"] } ∧
    (sample.updateSection "T-1" "overview" "x\n## Technical Decisions" decided).1.isOk = true ∧
    sample.shown "T-1"
      (sample.updateSection "T-1" "overview" "x\n## Technical Decisions" decided).2 =
        .ok { sparseDocument with overview := "x" } := by
  refine ⟨?_, by decide +kernel⟩
  exact .changed rfl (reached_sparse.mono fun _ _ => trivial) fun _ _ => trivial

end Workspace

end DesignRecords
