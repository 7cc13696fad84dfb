import DesignRecords.Proofs.Disk.Place
import Mathlib.Data.List.Induction

namespace DesignRecords.Disk

variable {d d' : Disk} {e : Entry} {n t : Text} {p : Path} {q place : Place}
  {pieces : List Text}

/-- The place one piece of a path further on. -/
def next (d : Disk) (place : Place) (piece : Text) : Except Fault Place :=
  match d.view place with
  | none => .error .missing
  | some (some _) => .error .notDirectory
  | some none =>
    if Path.isIdle piece then .ok place
    else if piece == ".." then .ok place.dropLast
    else if isNameTooLong piece then .error .nameTooLong
    else .ok (place ++ [piece])

/-- The place that a relative or an absolute path starts from. -/
def start (d : Disk) (p : Path) : Place := if p.absolute then [] else d.current

/-- The place that a path leads to. -/
def locate (d : Disk) (p : Path) : Except Fault Place := do
  checked p
  p.pieces.foldlM d.next (d.start p)

theorem trailTo_concat (d : Disk) (place : Place) (n : Text) :
    d.trailTo (place ++ [n]) = d.extend (d.trailTo place) n := by
  rw [trailTo, List.foldl_append]
  rfl

theorem atEnd_trailTo (d : Disk) (place : Place) : d.atEnd (d.trailTo place) = d.lookup? place := by
  induction place using List.reverseRecOn with
  | nil => rfl
  | append_singleton place n ih =>
    have hb : d.lookup? (place ++ [n]) = (d.lookup? place).bind (Entry.below? [n]) :=
      Entry.below?_append
    have hc : Entry.below? [n] = (·.child? n) := funext fun _ => Entry.below?_singleton
    rw [trailTo_concat, hb, ← ih, hc]
    rfl

theorem placeOf_trailTo (d : Disk) (place : Place) : placeOf (d.trailTo place) = place := by
  induction place using List.reverseRecOn with
  | nil => rfl
  | append_singleton place n ih =>
    simp only [trailTo_concat, extend, placeOf, List.map_cons, List.reverse_cons] at ih ⊢
    rw [ih]

theorem tail_trailTo (d : Disk) (place : Place) :
    (d.trailTo place).tail = d.trailTo place.dropLast := by
  rcases List.eq_nil_or_concat place with rfl | ⟨place, n, rfl⟩
  · rfl
  · rw [List.concat_eq_append, trailTo_concat, List.dropLast_concat]
    rfl

theorem step_trailTo (d : Disk) (place : Place) (piece : Text) :
    d.step (d.trailTo place) piece = (d.next place piece).map d.trailTo := by
  unfold step next view
  rw [atEnd_trailTo]
  cases d.lookup? place with
  | none => rfl
  | some e =>
    cases e with
    | file c => rfl
    | directory es =>
      simp only [Option.map_some, Entry.contents?]
      split
      · rfl
      · split
        · rw [tail_trailTo]
          rfl
        · split
          · rfl
          · rw [← trailTo_concat]
            rfl

theorem foldlM_step (d : Disk) (pieces : List Text) (place : Place) :
    pieces.foldlM d.step (d.trailTo place) = (pieces.foldlM d.next place).map d.trailTo := by
  induction pieces generalizing place with
  | nil => rfl
  | cons piece pieces ih =>
    rw [List.foldlM_cons, List.foldlM_cons, step_trailTo]
    cases d.next place piece with
    | error f => rfl
    | ok place => exact ih place

theorem resolve_eq (d : Disk) (p : Path) :
    d.resolve p = (d.locate p).map fun place => (place, d.lookup? place) := by
  have hs : (if p.absolute then [] else d.trailTo d.current) = d.trailTo (d.start p) := by
    unfold start
    split <;> rfl
  unfold resolve locate walk
  rw [hs]
  cases checked p with
  | error f => rfl
  | ok u =>
    simp only [bind, Except.bind, pure, Except.pure, foldlM_step]
    cases p.pieces.foldlM d.next (d.start p) with
    | error f => rfl
    | ok place => simp only [Except.map, placeOf_trailTo, atEnd_trailTo]

/-- Whether a path leads to a place, at which nothing need stand. -/
def LeadsTo (d : Disk) (p : Path) (place : Place) : Prop := ∃ e, d.resolve p = .ok (place, e)

theorem leadsTo_iff : d.LeadsTo p place ↔ d.locate p = .ok place := by
  unfold LeadsTo
  rw [resolve_eq]
  cases d.locate p <;> simp [Except.map]

section

variable {α : Type} {a : α}

/-- Work on what a path leads to has a result where the path leads somewhere. -/
theorem resolve_bind_eq_ok {f : Place × Option Entry → Except Fault α} :
    (d.resolve p >>= f) = .ok a ↔
      ∃ place, d.locate p = .ok place ∧ f (place, d.lookup? place) = .ok a := by
  rw [resolve_eq]
  cases d.locate p with
  | error fault => simp [Except.map, bind, Except.bind]
  | ok place => simp [Except.map, bind, Except.bind]

theorem find_eq_ok :
    d.find p = .ok (place, e) ↔ d.locate p = .ok place ∧ d.lookup? place = some e := by
  unfold find
  rw [resolve_bind_eq_ok]
  constructor
  · rintro ⟨place', hl, h⟩
    cases he : d.lookup? place' with
    | none =>
      rw [he] at h
      cases h
    | some e' =>
      rw [he] at h
      cases h
      exact ⟨hl, he⟩
  · rintro ⟨hl, he⟩
    exact ⟨place, hl, by rw [he]⟩

/-- Work on what stands at the end of a path has a result where something stands there. -/
theorem find_bind_eq_ok {f : Place × Entry → Except Fault α} :
    (d.find p >>= f) = .ok a ↔
      ∃ place e, d.locate p = .ok place ∧ d.lookup? place = some e ∧ f (place, e) = .ok a := by
  constructor
  · intro h
    cases hf : d.find p with
    | error fault =>
      rw [hf] at h
      cases h
    | ok found =>
      rw [hf] at h
      obtain ⟨hl, he⟩ := find_eq_ok.mp hf
      exact ⟨found.1, found.2, hl, he, h⟩
  · rintro ⟨place, e, hl, he, h⟩
    rw [find_eq_ok.mpr ⟨hl, he⟩]
    exact h

end

theorem isDirectory_iff :
    d.isDirectory p = true ↔ ∃ place, d.locate p = .ok place ∧ d.view place = some none := by
  unfold isDirectory
  constructor
  · intro h
    split at h
    next place es hf =>
      obtain ⟨hl, he⟩ := find_eq_ok.mp hf
      exact ⟨place, hl, view_eq_directory.mpr ⟨es, he⟩⟩
    next => cases h
  · rintro ⟨place, hl, hv⟩
    obtain ⟨es, he⟩ := view_eq_directory.mp hv
    rw [find_eq_ok.mpr ⟨hl, he⟩]

theorem readText_eq_ok :
    d.readText p = .ok t ↔
      ∃ place, d.locate p = .ok place ∧ d.view place = some (some (.text t)) := by
  unfold readText
  rw [find_bind_eq_ok]
  constructor
  · rintro ⟨place, e, hl, he, h⟩
    cases e with
    | directory es => cases h
    | file c =>
      cases c with
      | binary bytes => cases h
      | text t' =>
        cases h
        exact ⟨place, hl, view_eq_file.mpr he⟩
  · rintro ⟨place, hl, hv⟩
    exact ⟨place, _, hl, view_eq_file.mp hv, rfl⟩

theorem write_eq_ok {c : Contents} :
    d.write p c = .ok d' ↔
      ∃ place, d.locate p = .ok place ∧ d.view place ≠ some none ∧ d' = d.put place (.file c) := by
  unfold write
  rw [resolve_bind_eq_ok]
  refine exists_congr fun place => and_congr_right fun _ => ?_
  cases he : d.lookup? place with
  | none =>
    have hv : d.view place ≠ some none := by simp [view, he]
    simp [hv, eq_comm]
  | some e =>
    cases e with
    | file c' =>
      have hv : d.view place ≠ some none := by simp [view, he, Entry.contents?]
      simp [hv, eq_comm]
    | directory es =>
      have hv : d.view place = some none := view_eq_directory.mpr ⟨es, he⟩
      simp [hv]

theorem removeFile_eq_ok :
    d.removeFile p = .ok d' ↔
      ∃ place c, d.locate p = .ok place ∧ d.view place = some (some c) ∧ d' = d.erase place := by
  unfold removeFile
  rw [find_bind_eq_ok]
  constructor
  · rintro ⟨place, e, hl, he, h⟩
    cases e with
    | directory es => cases h
    | file c =>
      cases h
      exact ⟨place, c, hl, view_eq_file.mpr he, rfl⟩
  · rintro ⟨place, c, hl, hv, rfl⟩
    exact ⟨place, _, hl, view_eq_file.mp hv, rfl⟩

theorem rename_eq_ok {p' : Path} :
    d.rename p p' = .ok d' ↔
      ∃ place goal c, d.locate p = .ok place ∧ d.view place = some (some c) ∧
        d.locate p' = .ok goal ∧ d.view goal ≠ some none ∧
          d' = (d.erase place).put goal (.file c) := by
  unfold rename
  rw [find_bind_eq_ok]
  constructor
  · rintro ⟨place, e, hl, he, h⟩
    obtain ⟨goal, hg, h⟩ := resolve_bind_eq_ok.mp h
    cases e with
    | directory es => cases h
    | file c =>
      have hv : d.view goal ≠ some none := by
        intro hv
        obtain ⟨es, hes⟩ := view_eq_directory.mp hv
        rw [hes] at h
        cases h
      refine ⟨place, goal, c, hl, view_eq_file.mpr he, hg, hv, ?_⟩
      dsimp only at h
      split at h
      · cases h
      · cases h
      · cases h
        rfl
  · rintro ⟨place, goal, c, hl, hv, hg, hn, rfl⟩
    refine ⟨place, _, hl, view_eq_file.mp hv, resolve_bind_eq_ok.mpr ⟨goal, hg, ?_⟩⟩
    cases he : d.lookup? goal with
    | none => rfl
    | some e =>
      cases e with
      | file c' => rfl
      | directory es => exact absurd (view_eq_directory.mpr ⟨es, he⟩) hn

/-- A place from which a path has led on to another one is a directory. -/
theorem next_eq_ok (h : d.next q n = .ok place) : d.view q = some none ∧
    (place = q ∨ place = q.dropLast ∨ place = q ++ [n]) := by
  unfold next at h
  split at h
  · cases h
  · cases h
  next hv =>
    refine ⟨hv, ?_⟩
    split at h
    · cases h
      exact Or.inl rfl
    · split at h
      · cases h
        exact Or.inr (Or.inl rfl)
      · split at h
        · cases h
        · cases h
          exact Or.inr (Or.inr rfl)

theorem view_dropLast (h : d.view q = some none) : d.view q.dropLast = some none := by
  rcases List.eq_nil_or_concat q with rfl | ⟨q, n, rfl⟩
  · exact h
  · rw [List.concat_eq_append] at h ⊢
    rw [List.dropLast_concat]
    exact view_of_append (q := [n]) (by simp [h]) (by simp)

theorem locate_eq_ok : d.locate p = .ok place ↔
    checked p = .ok () ∧ p.pieces.foldlM d.next (d.start p) = .ok place := by
  unfold locate
  simp only [bind, Except.bind]
  cases checked p with
  | error f => simp
  | ok u => simp

/-- Where a path leads, there is a directory, or an entry of one can stand. -/
theorem exists_parent (h : d.locate p = .ok place) (hn : d.view place ≠ some none) :
    ∃ q n, place = q ++ [n] ∧ d.view q = some none := by
  obtain ⟨init, last, hp⟩ : ∃ init last, p.pieces = init ++ [last] := by
    rcases List.eq_nil_or_concat p.pieces with hp | ⟨init, last, hp⟩
    · exact absurd hp (List.splitOn_ne_nil '/' p.text)
    · exact ⟨init, last, by rw [hp, List.concat_eq_append]⟩
  obtain ⟨-, hf⟩ := locate_eq_ok.mp h
  rw [hp, List.foldlM_append] at hf
  simp only [bind, Except.bind] at hf
  cases hi : init.foldlM d.next (d.start p) with
  | error f => rw [hi] at hf; cases hf
  | ok q =>
    rw [hi] at hf
    have hl : d.next q last = .ok place := by
      cases hl : d.next q last with
      | error f => simp [bind, Except.bind, hl] at hf
      | ok r =>
        simpa [bind, Except.bind, hl, pure, Except.pure] using hf
    obtain ⟨hv, rfl | rfl | rfl⟩ := next_eq_ok hl
    · exact absurd hv hn
    · exact absurd (view_dropLast hv) hn
    · exact ⟨q, last, rfl, hv⟩

/-- Whether a disk has the directories of another one, and starts relative paths where it does. -/
structure Holds (d d' : Disk) : Prop where
  current : d'.current = d.current
  directory : ∀ q, d.view q = some none → d'.view q = some none

theorem Holds.trans {d'' : Disk} (h : d.Holds d') (h' : d'.Holds d'') : d.Holds d'' :=
  ⟨h'.current.trans h.current, fun q hq => h'.directory q (h.directory q hq)⟩

theorem Holds.next (h : d.Holds d') (hn : d.next q n = .ok place) : d'.next q n = .ok place := by
  have hv := h.directory q (next_eq_ok hn).1
  unfold Disk.next at hn ⊢
  rw [(next_eq_ok hn).1] at hn
  rw [hv]
  exact hn

theorem Holds.foldlM_next (h : d.Holds d') (hf : pieces.foldlM d.next q = .ok place) :
    pieces.foldlM d'.next q = .ok place := by
  induction pieces generalizing q with
  | nil => exact hf
  | cons piece pieces ih =>
    rw [List.foldlM_cons] at hf ⊢
    cases hn : d.next q piece with
    | error f => rw [hn] at hf; cases hf
    | ok r =>
      rw [hn] at hf
      rw [h.next hn]
      exact ih hf

/-- A path leads to the same place on a disk that has the directories of another one. -/
theorem Holds.locate (h : d.Holds d') (hl : d.locate p = .ok place) :
    d'.locate p = .ok place := by
  obtain ⟨hc, hf⟩ := locate_eq_ok.mp hl
  have hs : d'.start p = d.start p := by simp [start, h.current]
  exact locate_eq_ok.mpr ⟨hc, hs ▸ h.foldlM_next hf⟩

theorem Holds.isDirectory (h : d.Holds d') (hd : d.isDirectory p = true) :
    d'.isDirectory p = true := by
  obtain ⟨place, hl, hv⟩ := isDirectory_iff.mp hd
  exact isDirectory_iff.mpr ⟨place, h.locate hl, h.directory place hv⟩

theorem isDirectory_congr (h : d.Holds d') (h' : d'.Holds d) (p : Path) :
    d'.isDirectory p = d.isDirectory p := by
  rw [Bool.eq_iff_iff]
  exact ⟨h'.isDirectory, h.isDirectory⟩

end DesignRecords.Disk
