import DesignRecords.Proofs.Disk.Listing

namespace DesignRecords

namespace Path

variable {p : Path} {names names' : List Text} {n : Text}

/-- The path that leads on from `p` along some names. -/
def within (p : Path) (names : List Text) : Path := names.foldl Path.entry p

theorem within_concat (p : Path) (names : List Text) (n : Text) :
    p.within (names ++ [n]) = (p.within names).entry n := by
  simp [within]

theorem inner_within (h : ∀ n ∈ names, IsName n) : (p.within names).inner = p.inner ++ names := by
  induction names using List.reverseRecOn with
  | nil => simp [within]
  | append_singleton names n ih =>
    rw [within_concat, inner_entry (h n (by simp)), ih fun m hm => h m (by simp [hm]),
      List.append_assoc]

/-- The names along which a path leads on are known from the path. -/
theorem within_injective (h : ∀ n ∈ names, IsName n) (h' : ∀ n ∈ names', IsName n)
    (he : p.within names = p.within names') : names = names' := by
  have hi := inner_within (p := p) h
  rw [he, inner_within h'] at hi
  exact (List.append_cancel_left hi).symm

/-- Whether paths lead on from `base` along names, one at least. -/
def Within (base : Path) (paths : List Path) : Prop :=
  ∀ p ∈ paths, ∃ names, names ≠ [] ∧ (∀ n ∈ names, IsName n) ∧ p = base.within names

/-- Whether some names can be followed from `base` without coming to one of some paths. -/
def Free (base : Path) (paths : List Path) (names : List Text) : Prop :=
  ∀ front, front <+: names → base.within front ∉ paths

theorem Free.mono {base : Path} {paths : List Path} (h : Free base paths names)
    (hp : names' <+: names) : Free base paths names' := fun front hf => h front (hf.trans hp)

theorem Free.concat {base : Path} {paths : List Path} (h : Free base paths names)
    (hn : (base.within names).entry n ∉ paths) : Free base paths (names ++ [n]) := by
  intro front hf
  rcases List.prefix_concat_iff.mp hf with rfl | hf
  · rwa [within_concat]
  · exact h front hf

/-- Whether a path leads on from `base` along names without coming to one of some paths. -/
def Spared (base : Path) (paths : List Path) (p : Path) : Prop :=
  ∃ names, names ≠ [] ∧ (∀ n ∈ names, IsName n) ∧ Free base paths names ∧ p = base.within names

theorem Spared.not_mem {base : Path} {paths : List Path} (h : Spared base paths p) : p ∉ paths := by
  obtain ⟨names, -, -, hf, rfl⟩ := h
  exact hf names List.prefix_rfl

theorem Spared.entry {base : Path} {paths : List Path} (h : Spared base paths p) (hn : IsName n)
    (hp : p.entry n ∉ paths) : Spared base paths (p.entry n) := by
  obtain ⟨names, -, hnames, hf, rfl⟩ := h
  refine ⟨names ++ [n], by simp, fun m hm => ?_, hf.concat hp, (within_concat _ _ _).symm⟩
  rcases List.mem_append.mp hm with hm | hm
  · exact hnames m hm
  · rwa [List.mem_singleton.mp hm]

end Path

namespace Disk

variable {d d' d₁ : Disk} {base p : Path} {paths : List Path} {names : List Text} {n : Text}
  {q place : Place}

theorem reach_within (hn : ∀ n ∈ names, Path.IsName n) (h : d.reach (base.within names) = .ok q) :
    ∃ r, d.reach base = .ok r ∧ q = r ++ names := by
  induction names using List.reverseRecOn generalizing q with
  | nil => exact ⟨q, h, by simp⟩
  | append_singleton names n ih =>
    rw [Path.within_concat] at h
    obtain ⟨q', hq', -, -, rfl⟩ := (reach_entry_eq_ok (hn n (by simp))).mp h
    obtain ⟨r, hr, rfl⟩ := ih (fun m hm => hn m (by simp [hm])) hq'
    exact ⟨r, hr, by rw [List.append_assoc]⟩

/-- Names lead to the same places on two disks that look alike wherever one of them is followed. -/
theorem reach_within_congr (hn : ∀ n ∈ names, Path.IsName n) (hbase : d'.reach base = d.reach base)
    (hv : ∀ front n, front ++ [n] <+: names → ∀ q, d.reach (base.within front) = .ok q →
      d'.view q = d.view q) : d'.reach (base.within names) = d.reach (base.within names) := by
  induction names using List.reverseRecOn with
  | nil => exact hbase
  | append_singleton names n ih =>
    have ih := ih (fun m hm => hn m (by simp [hm])) fun front m hf =>
      hv front m (hf.trans (List.prefix_append _ _))
    rw [Path.within_concat, reach_entry (hn n (by simp)), reach_entry (hn n (by simp)), ih]
    cases hr : d.reach (base.within names) with
    | error f => rfl
    | ok q =>
      change d'.next q n = d.next q n
      rw [next, next, hv names n List.prefix_rfl q hr]

theorem locate_within_congr (hn : ∀ m ∈ names ++ [n], Path.IsName m)
    (hbase : d'.reach base = d.reach base)
    (hv : ∀ front m, front ++ [m] <+: names ++ [n] → ∀ q, d.reach (base.within front) = .ok q →
      d'.view q = d.view q) :
    d'.locate (base.within (names ++ [n])) = d.locate (base.within (names ++ [n])) := by
  have hreach := reach_within_congr hn hbase hv
  have hname : Path.IsName n := hn n (by simp)
  rw [Path.within_concat] at hreach ⊢
  rw [locate_entry_apply hname, locate_entry_apply hname, ← reach_entry hname,
    ← reach_entry hname, hreach]

/-- Whether one of some paths leads to a place. -/
def Leads (d : Disk) (paths : List Path) (q : Place) : Prop := ∃ p ∈ paths, d.locate p = .ok q

theorem leads_cons : d.Leads (p :: paths) q ↔ d.locate p = .ok q ∨ d.Leads paths q := by
  simp [Leads]

theorem Changed.leads {new : Option Contents} (h : Changed d d' place new) :
    d'.Leads paths q ↔ d.Leads paths q :=
  exists_congr fun _ => and_congr_right fun _ => h.locate

/-- A path that leads to the end of some names is the path along these names. -/
theorem mem_of_leads {r : Place} (hw : base.Within paths) (hr : d.reach base = .ok r)
    (h : d.Leads paths (r ++ names)) : base.within names ∈ paths := by
  obtain ⟨p, hp, hl⟩ := h
  obtain ⟨names', -, hn', rfl⟩ := hw p hp
  obtain ⟨r', hr', he⟩ := reach_within hn' (reach_of_locate hl)
  rw [hr] at hr'
  cases hr'
  rwa [List.append_cancel_left he]

theorem not_leads (hw : base.Within paths) (hn : ∀ n ∈ names, Path.IsName n)
    (hf : base.Free paths names) (hr : d.reach (base.within names) = .ok q) :
    ¬ d.Leads paths q := by
  intro hq
  obtain ⟨r, hbase, rfl⟩ := reach_within hn hr
  exact hf names List.prefix_rfl (mem_of_leads hw hbase hq)

theorem not_leads_of_locate (hw : base.Within paths) (hn : ∀ n ∈ names, Path.IsName n)
    (hf : base.Free paths names) (hl : d.locate (base.within names) = .ok q) :
    ¬ d.Leads paths q := not_leads hw hn hf (reach_of_locate hl)

/-- What is read of a file, from what can be seen where its path leads. -/
theorem readText_of_locate (hl : d.locate p = .ok q) : d.readText p =
    match d.view q with
    | none => .error .missing
    | some none => .error .isDirectory
    | some (some (.text t)) => .ok t
    | some (some (.binary _)) => .error .notText := by
  unfold Disk.readText view
  cases he : d.lookup? q with
  | none =>
    rw [find_of_view_none hl (by rw [view, he]; rfl)]
    rfl
  | some e =>
    rw [find_eq_ok.mpr ⟨hl, he⟩]
    cases e with
    | directory es => rfl
    | file c => cases c <;> rfl

theorem readText_congr (hl : d'.locate p = d.locate p)
    (hv : ∀ q, d.locate p = .ok q → d'.view q = d.view q) : d'.readText p = d.readText p := by
  cases he : d.locate p with
  | error f => rw [readText_of_locate_error he, readText_of_locate_error (hl.trans he)]
  | ok q => rw [readText_of_locate he, readText_of_locate (hl.trans he), hv q he]

theorem ascending_of_list (h : d.list p = .ok names) : Ascending names := by
  obtain ⟨q, entries, -, -, rfl⟩ := list_eq_ok.mp h
  exact ascending_increasing _

theorem list_of_locate_error {fault : Fault} (h : d.locate p = .error fault) :
    d.list p = .error fault := by
  unfold Disk.list
  rw [find_of_locate_error h]
  rfl

/-- Why something cannot be listed, from what can be seen where its path leads. -/
theorem list_of_not_directory (hl : d.locate p = .ok q) (hv : d.view q ≠ some none) :
    d.list p = .error (if d.view q = none then .missing else .notDirectory) := by
  unfold Disk.list
  cases he : d.lookup? q with
  | none =>
    have hnone : d.view q = none := by rw [view, he]; rfl
    rw [find_of_view_none hl hnone, if_pos hnone]
    rfl
  | some e =>
    rw [find_eq_ok.mpr ⟨hl, he⟩]
    cases e with
    | directory es => exact absurd (view_eq_directory.mpr ⟨es, he⟩) hv
    | file c =>
      rw [if_neg (by rw [view_eq_file.mpr he]; simp)]
      rfl

/-- Whether a disk is what another one is without the files at the ends of some paths. -/
structure Lacks (d d' : Disk) (paths : List Path) : Prop where
  current : d'.current = d.current
  file : ∀ p ∈ paths, ∃ q c, d.locate p = .ok q ∧ d.view q = some (some c)
  gone : ∀ q, d.Leads paths q → d'.view q = none
  kept : ∀ q, ¬ d.Leads paths q → d'.view q = d.view q

/-- Files that are removed one after the other are not there any more, and nothing else is
changed. -/
theorem lacks_of_removeFile (h : paths.foldlM Disk.removeFile d = .ok d') :
    d.Lacks d' paths := by
  induction paths generalizing d with
  | nil =>
    cases h
    exact ⟨rfl, fun _ h => by simp at h, fun q ⟨p, hp, _⟩ => by simp at hp, fun _ _ => rfl⟩
  | cons p paths ih =>
    rw [List.foldlM_cons] at h
    cases hd : d.removeFile p with
    | error f =>
      rw [hd] at h
      cases h
    | ok d₁ =>
      rw [hd] at h
      have hrest := ih h
      obtain ⟨place, c, hl, hv, rfl⟩ := removeFile_eq_ok.mp hd
      have hc : Changed d (d.erase place) place none := changed_erase hl (by simp [hv])
      have hne : ∀ q c', (d.erase place).view q = some (some c') → q ≠ place := by
        rintro q c' hq rfl
        rw [hc.view_self] at hq
        cases hq
      have hleads : ∀ q, d.Leads (p :: paths) q ↔ q = place ∨ (d.erase place).Leads paths q := by
        intro q
        rw [leads_cons, hl, hc.leads, Except.ok.injEq, eq_comm]
      refine ⟨hrest.current, fun p' hp' => ?_, fun q hq => ?_, fun q hq => ?_⟩
      · rcases List.mem_cons.mp hp' with rfl | hp'
        · exact ⟨place, c, hl, hv⟩
        · obtain ⟨q, c', hq, hv'⟩ := hrest.file p' hp'
          exact ⟨q, c', hc.locate.mp hq, by rw [← hc.view_of_ne (hne q c' hv'), hv']⟩
      · by_cases hr : (d.erase place).Leads paths q
        · exact hrest.gone q hr
        · rcases (hleads q).mp hq with rfl | hq
          · rw [hrest.kept q hr, hc.view_self]
            rfl
          · exact absurd hq hr
      · have hq' := mt (hleads q).mpr hq
        push Not at hq'
        rw [hrest.kept q hq'.2, hc.view_of_ne hq'.1]

namespace Lacks

variable (h : d.Lacks d' paths)

include h

theorem holds : d.Holds d' where
  current := h.current
  directory q hq := by
    rw [h.kept q, hq]
    rintro ⟨p, hp, hl⟩
    obtain ⟨q', c, hl', hv⟩ := h.file p hp
    rw [hl] at hl'
    cases hl'
    rw [hq] at hv
    cases hv

theorem holds_back : d'.Holds d where
  current := h.current.symm
  directory q hq := by
    by_cases hl : d.Leads paths q
    · rw [h.gone q hl] at hq
      cases hq
    · rwa [h.kept q hl] at hq

/-- The directories stay. -/
theorem isDirectory (p : Path) : d'.isDirectory p = d.isDirectory p :=
  isDirectory_congr h.holds h.holds_back p

theorem not_isDirectory (hp : p ∈ paths) : d.isDirectory p = false := by
  rw [← Bool.not_eq_true, isDirectory_iff]
  rintro ⟨q, hl, hv⟩
  obtain ⟨q', c, hl', hv'⟩ := h.file p hp
  rw [hl] at hl'
  cases hl'
  rw [hv] at hv'
  cases hv'

/-- A file that was removed is missing. -/
theorem readText_missing (hp : p ∈ paths) : d'.readText p = .error .missing := by
  obtain ⟨q, c, hl, -⟩ := h.file p hp
  have hf := find_of_view_none (h.holds.locate hl) (h.gone q ⟨p, hp, hl⟩)
  unfold readText
  rw [hf]
  rfl

theorem named (hd : d.Named) : d'.Named := by
  intro q n hv
  have hq : ¬ d.Leads paths (q ++ [n]) := fun hq => hv (h.gone _ hq)
  exact hd q n (h.kept _ hq ▸ hv)

theorem next (hq : ¬ d.Leads paths q) : d'.next q n = d.next q n := by
  rw [Disk.next, Disk.next, h.kept q hq]

theorem reach_base (hw : base.Within paths) : d'.reach base = d.reach base := by
  by_cases hl : ∃ q, d.Leads paths q
  · obtain ⟨q, p, hp, hq⟩ := hl
    obtain ⟨names, -, hn, rfl⟩ := hw p hp
    obtain ⟨r, hr, -⟩ := reach_within hn (reach_of_locate hq)
    rw [hr, h.holds.reach hr]
  · have hnext : d'.next = d.next := by
      funext q n
      exact h.next fun hq => hl ⟨q, hq⟩
    rw [reach, reach, hnext, start, start, h.current]

theorem locate (hw : base.Within paths) (hn : ∀ n ∈ names, Path.IsName n) (hne : names ≠ [])
    (hf : base.Free paths names) :
    d'.locate (base.within names) = d.locate (base.within names) := by
  obtain ⟨names, n, rfl⟩ : ∃ front n, names = front ++ [n] := by
    rcases List.eq_nil_or_concat names with rfl | ⟨front, n, rfl⟩
    · exact absurd rfl hne
    · exact ⟨front, n, List.concat_eq_append⟩
  refine locate_within_congr hn (h.reach_base hw) fun front m hm q hq => h.kept q ?_
  have hp : front <+: names ++ [n] := (List.prefix_append _ _).trans hm
  exact not_leads hw (fun m hm => hn m (hp.subset hm)) (hf.mono hp) hq

/-- The files that were not removed are read as before. -/
theorem readText (hw : base.Within paths) (hp : base.Spared paths p) :
    d'.readText p = d.readText p := by
  obtain ⟨names, hne, hn, hf, rfl⟩ := hp
  exact readText_congr (h.locate hw hn hne hf) fun q hl =>
    h.kept q (not_leads_of_locate hw hn hf hl)

/-- What was not removed from a directory still stands in it, and nothing else. -/
theorem lists (hd : d.Named) (hw : base.Within paths) (hn : ∀ n ∈ names, Path.IsName n)
    (hl : d.locate (base.within names) = .ok q) (hl' : d'.locate (base.within names) = .ok q) :
    d'.Lists (base.within names) n ↔
      d.Lists (base.within names) n ∧ (base.within names).entry n ∉ paths := by
  rw [lists_iff hl', lists_iff hl]
  constructor
  · intro hv
    have hq : ¬ d.Leads paths (q ++ [n]) := fun hq => hv (h.gone _ hq)
    rw [h.kept _ hq] at hv
    refine ⟨hv, fun hp => hq ?_⟩
    obtain ⟨q', c, hq', -⟩ := h.file _ hp
    obtain ⟨-, r, hr, -, -, rfl⟩ := (locate_entry (hd q n hv)).mp hq'
    rw [reach_of_locate hl] at hr
    cases hr
    exact ⟨_, hp, hq'⟩
  · rintro ⟨hv, hp⟩
    obtain ⟨r, hr, rfl⟩ := reach_within hn (reach_of_locate hl)
    rw [h.kept]
    · exact hv
    · intro hq
      rw [List.append_assoc] at hq
      exact hp (Path.within_concat _ _ _ ▸ mem_of_leads hw hr hq)

/-- Of the entries of a directory those are left that were not removed. -/
theorem list (hd : d.Named) (hw : base.Within paths) (hp : base.Spared paths p) :
    (∃ fault, d.list p = .error fault ∧ d'.list p = .error fault) ∨
    ∃ entries, d.list p = .ok entries ∧
      d'.list p = .ok (entries.filter fun n => p.entry n ∉ paths) := by
  obtain ⟨names, hne, hn, hf, rfl⟩ := hp
  have hlocate := h.locate hw hn hne hf
  cases hl : d.locate (base.within names) with
  | error fault =>
    exact Or.inl ⟨fault, list_of_locate_error hl, list_of_locate_error (hlocate.trans hl)⟩
  | ok q =>
    have hl' := hlocate.trans hl
    have hview := h.kept q (not_leads_of_locate hw hn hf hl)
    by_cases hv : d.view q = some none
    · obtain ⟨entries, he⟩ := list_of_isDirectory (isDirectory_iff.mpr ⟨q, hl, hv⟩)
      obtain ⟨entries', he'⟩ :=
        list_of_isDirectory (isDirectory_iff.mpr ⟨q, hl', hview.trans hv⟩)
      refine Or.inr ⟨entries, he, he'.trans (congrArg Except.ok ?_)⟩
      refine (ascending_of_list he').eq_of_mem_iff ((ascending_of_list he).filter _) fun n => ?_
      rw [← lists_of_ok he', h.lists hd hw hn hl hl', lists_of_ok he, List.mem_filter,
        decide_eq_true_eq]
    · have hv' : d'.view q ≠ some none := by rwa [hview]
      refine Or.inl ⟨_, list_of_not_directory hl hv, ?_⟩
      rw [list_of_not_directory hl' hv', hview]

end Lacks

end Disk

end DesignRecords
