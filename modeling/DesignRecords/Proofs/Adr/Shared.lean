import DesignRecords.Proofs.Adr.Listing
import DesignRecords.Proofs.Disk.Removal
import DesignRecords.Proofs.Workspace.Matching
import DesignRecords.Proofs.Workspace.Save

namespace DesignRecords

variable {d d' : Disk} {dir : Path} {names : List Text} {n : Text}

namespace Disk

/-- Whether two disks have the same directories, and the same entries in one of them. -/
structure Shares (d d' : Disk) (dir : Path) : Prop where
  holds : d.Holds d'
  back : d'.Holds d
  view : ∀ q n, d.locate dir = .ok q → d'.view (q ++ [n]) = d.view (q ++ [n])

namespace Shares

variable (h : d.Shares d' dir)

include h

theorem isDirectory (p : Path) : d'.isDirectory p = d.isDirectory p :=
  isDirectory_congr h.holds h.back p

theorem list (hl : d.list dir = .ok names) : d'.list dir = .ok names := by
  obtain ⟨q, -, hq, -⟩ := list_eq_ok.mp hl
  have hq' := h.holds.locate hq
  have hdir : d.isDirectory dir = true := by
    obtain ⟨q, es, hq, he, -⟩ := list_eq_ok.mp hl
    exact isDirectory_iff.mpr ⟨q, hq, view_eq_directory.mpr ⟨es, he⟩⟩
  obtain ⟨names', hl'⟩ := list_of_isDirectory ((h.isDirectory dir).trans hdir)
  rw [hl']
  refine congrArg Except.ok
    ((ascending_of_list hl').eq_of_mem_iff (ascending_of_list hl) fun n => ?_)
  rw [← lists_of_ok hl', ← lists_of_ok hl, lists_iff hq', lists_iff hq, h.view q n hq]

theorem readText (hn : Path.IsName n) (hl : d.Lists dir n) :
    d'.readText (dir.entry n) = d.readText (dir.entry n) := by
  obtain ⟨q, hq, hv⟩ := isDirectory_iff.mp (isDirectory_of_lists hl)
  have hnext : d'.next q n = d.next q n := by rw [next, next, hv, h.holds.directory q hv]
  have hlocate : d'.locate (dir.entry n) = d.locate (dir.entry n) := by
    have hr := reach_of_locate hq
    rw [locate_entry_apply hn, locate_entry_apply hn, hr, h.holds.reach hr]
    exact congrArg (checked (dir.entry n) >>= fun _ => ·) hnext
  refine readText_congr hlocate fun place he => ?_
  obtain ⟨-, r, hr, -, -, rfl⟩ := (locate_entry hn).mp he
  rw [reach_of_locate hq] at hr
  cases hr
  exact h.view q n hq

end Shares

end Disk

namespace Workspace

variable {w : Workspace} {task : Text}

/-- Whether paths found on two disks are the same, and so are the texts of their files. -/
def SameFiles (d d' : Disk) (paths paths' : List Path) : Prop :=
  paths = paths' ∧ ∀ p ∈ paths, d'.readText p = d.readText p

theorem sameFiles_nil (d d' : Disk) : SameFiles d d' [] [] := ⟨rfl, by simp⟩

theorem SameFiles.append {ps ps' qs qs' : List Path} (h : SameFiles d d' ps ps')
    (h' : SameFiles d d' qs qs') : SameFiles d d' (ps ++ qs) (ps' ++ qs') :=
  ⟨by rw [h.1, h'.1], List.forall_mem_append.mpr ⟨h.2, h'.2⟩⟩

variable (hn : w.disturbances = .none) (hd : d.Named) (h : d.Shares d' w.layout.decisions)

include hn hd h

theorem matches_adrPaths_of_shares : Matches (SameFiles d d') w.adrPaths d w.adrPaths d' := by
  have hsame : ∀ call, Disturbances.none.Same Disturbances.none call :=
    fun _ => ⟨none, fun _ => rfl, fun _ => rfl⟩
  have hdir : Matches (fun b b' => b = d.isDirectory w.layout.decisions ∧ b = b')
      (liftM (Disturbances.none.isDirectory w.layout.decisions) : FileAction Bool) d
      (liftM (Disturbances.none.isDirectory w.layout.decisions) : FileAction Bool) d' :=
    ⟨_, _, answers_isDirectory _ d, answers_isDirectory _ d', .ok ⟨rfl, (h.isDirectory _).symm⟩⟩
  unfold adrPaths
  rw [hn]
  refine hdir.bind ?_
  rintro b _ ⟨hb, rfl⟩
  cases b with
  | false => exact matches_pure (sameFiles_nil d d')
  | true =>
    obtain ⟨names, hl⟩ := Disk.list_of_isDirectory hb.symm
    have hlist := answers_list w.layout.decisions d
    have hlist' := answers_list w.layout.decisions d'
    rw [hl] at hlist
    rw [h.list hl] at hlist'
    have hnames : Matches (fun ns ns' => ns = names ∧ ns' = names)
        (tryCatch (Disturbances.none.list w.layout.decisions) fun fault =>
          if fault.kind = .notFound then pure [] else throw fault) d
        (tryCatch (Disturbances.none.list w.layout.decisions) fun fault =>
          if fault.kind = .notFound then pure [] else throw fault) d' :=
      ⟨_, _, hlist.tryCatch_ok _, hlist'.tryCatch_ok _, .ok ⟨rfl, rfl⟩⟩
    refine hnames.bind ?_
    rintro _ _ ⟨rfl, rfl⟩
    refine matches_gather _ (sameFiles_nil d d') (fun _ _ _ _ => SameFiles.append) ?_
    intro p hp
    obtain ⟨name, hname, rfl⟩ := List.mem_map.mp hp
    have hlists := (Disk.lists_of_ok hl).mpr (List.mem_filter.mp hname).1
    unfold unlessDirectory
    rw [hn]
    refine (matches_isDirectory (hsame _) (h.isDirectory _)).bind ?_
    rintro there _ rfl
    cases there with
    | false =>
      have hread := h.readText (hd.isName_of_lists hlists) hlists
      exact matches_pure ⟨rfl, by simpa using hread⟩
    | true => exact matches_pure (sameFiles_nil d d')

/-- The links of a task to decision records are the same, in the same order, on two disks that share
the records. -/
theorem matches_relatedAdrs_of_shares (task : Text) :
    Matches (· = ·) (w.relatedAdrs task) d (w.relatedAdrs task) d' := by
  have hsame : ∀ call, Disturbances.none.Same Disturbances.none call :=
    fun _ => ⟨none, fun _ => rfl, fun _ => rfl⟩
  have hticket : Matches (· = ·) (liftM (w.ticket task) : Work Path) d
      (liftM (w.ticket task) : Work Path) d' := by
    have hanswer : ∀ disk, Answers (liftM (w.ticket task) : Work Path) disk
        (.ok (w.layout.ticket disk task)) := fun disk n => ⟨n, rfl⟩
    exact ⟨_, _, hanswer d, hanswer d', .ok (Layout.ticket_congr h.isDirectory).symm⟩
  refine (Work.matches_onFile (matches_adrPaths_of_shares hn hd h)).bind ?_
  rintro paths _ ⟨rfl, hread⟩
  refine hticket.bind ?_
  rintro ticket _ rfl
  refine matches_gather paths rfl (fun _ _ _ _ h h' => by rw [h, h']) fun p hp => ?_
  unfold linkTo readAdr
  rw [hn]
  have hadr : Matches (· = ·) (Disturbances.none.readText p >>= fun t => pure (Adr.read p t)) d
      (Disturbances.none.readText p >>= fun t => pure (Adr.read p t)) d' :=
    (matches_readText (hsame _) (hread p hp)).bind fun t t' ht =>
      matches_pure (congrArg (Adr.read p) ht)
  refine (Work.matches_attempt hadr).bind fun r r' hr => ?_
  rw [hr.eq]
  cases r' <;> exact matches_pure rfl

end Workspace

end DesignRecords
