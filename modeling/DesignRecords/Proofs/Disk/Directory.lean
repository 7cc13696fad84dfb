import DesignRecords.Proofs.Disk.Change
import Mathlib.Data.List.TakeWhile

namespace DesignRecords.Disk

variable {d d' : Disk} {p : Path} {place q : Place} {s t : Text}

theorem byteCount_append (s t : Text) :
    Text.byteCount (s ++ t) = Text.byteCount s + Text.byteCount t := by
  induction s with
  | nil => simp [Text.byteCount]
  | cons c s ih =>
    simp only [Text.byteCount, List.cons_append, List.foldr_cons] at ih ⊢
    omega

theorem checked_eq_ok : checked p = .ok () ↔
    '\x00' ∉ p.text ∧ p.text ≠ [] ∧ Text.byteCount p.text ≤ 4095 := by
  unfold checked isPathTooLong
  split
  next h =>
    have hn : '\x00' ∈ p.text := by simpa using h
    simp [hn]
  next h =>
    have hn : '\x00' ∉ p.text := by simpa using h
    split
    next h' =>
      have he : p.text = [] := by simpa using h'
      simp [he]
    next h' =>
      have he : p.text ≠ [] := by simpa using h'
      split
      next hb =>
        have hb : 4095 < Text.byteCount p.text := by simpa using hb
        simp [hb]
      next hb =>
        have hb : Text.byteCount p.text ≤ 4095 := by simpa using hb
        simp [hn, he, hb]

/-- A path is what it is without the slashes at its end, and slashes. -/
theorem withoutEndSlashes_cases (p : Path) : withoutEndSlashes p = p ∨
    ∃ c t s, withoutEndSlashes p = ⟨c :: t⟩ ∧ p.text = c :: t ++ s ∧ ∀ c ∈ s, c = '/' := by
  unfold withoutEndSlashes
  simp only
  split
  · exact Or.inl rfl
  next h =>
    obtain ⟨c, t, ht⟩ := List.exists_cons_of_ne_nil (by simpa using h :
      (p.text.reverse.dropWhile (· == '/')).reverse ≠ [])
    refine Or.inr ⟨c, t, (p.text.reverse.takeWhile (· == '/')).reverse, by rw [ht], ?_, ?_⟩
    · rw [← ht, ← List.reverse_append, List.takeWhile_append_dropWhile, List.reverse_reverse]
    · intro c hc
      simpa using List.mem_takeWhile_imp (List.mem_reverse.mp hc)

theorem splitOn_append_slashes (t : Text) (h : ∀ c ∈ s, c = '/') :
    (t ++ s).splitOn '/' = t.splitOn '/' ++ List.replicate s.length [] := by
  induction s generalizing t with
  | nil => simp
  | cons c s ih =>
    have hc : c = '/' := h c (by simp)
    subst hc
    have hs := ih (t ++ ['/']) fun x hx => h x (by simp [hx])
    have ht : (t ++ ['/']).splitOn '/' = t.splitOn '/' ++ [[]] := by
      rw [List.splitOn_append_cons_self, List.splitOn_nil]
    rw [ht, List.append_assoc, List.append_assoc] at hs
    exact hs

theorem next_nil (h : d.view q = some none) : d.next q [] = .ok q := by
  unfold next
  rw [h]
  rfl

theorem foldlM_idle (h : d.view q = some none) (n : Nat) :
    (List.replicate n []).foldlM d.next q = .ok q := by
  induction n with
  | zero => rfl
  | succ n ih =>
    rw [List.replicate_succ, List.foldlM_cons, next_nil h]
    exact ih

theorem foldlM_idle_eq_ok {n : Nat} (h : (List.replicate n []).foldlM d.next q = .ok place) :
    place = q := by
  cases n with
  | zero => exact (Except.ok.inj h).symm
  | succ n =>
    have hv : d.view q = some none := by
      rw [List.replicate_succ, List.foldlM_cons] at h
      cases hn : d.next q [] with
      | error f => rw [hn] at h; cases h
      | ok r => exact (next_eq_ok hn).1
    rw [foldlM_idle hv] at h
    exact (Except.ok.inj h).symm

theorem locate_append_slashes {c : Char} (hp : p.text = c :: t ++ s) (hs : ∀ c ∈ s, c = '/') :
    p.pieces.foldlM d.next (d.start p) =
      (Path.pieces ⟨c :: t⟩).foldlM d.next (d.start ⟨c :: t⟩) >>=
        (List.replicate s.length []).foldlM d.next := by
  have ha : p.absolute = Path.absolute ⟨c :: t⟩ := by
    unfold Path.absolute Text.startsWith
    rw [hp]
    rfl
  rw [Path.pieces, hp, splitOn_append_slashes _ hs, List.foldlM_append, start, ha]
  rfl

theorem checked_withoutEndSlashes (h : checked p = .ok ()) :
    checked (withoutEndSlashes p) = .ok () := by
  rcases withoutEndSlashes_cases p with he | ⟨c, t, s, he, hp, -⟩
  · rw [he, h]
  · obtain ⟨hn, -, hb⟩ := checked_eq_ok.mp h
    rw [hp] at hn hb
    rw [byteCount_append] at hb
    rw [he]
    exact checked_eq_ok.mpr ⟨fun hm => hn (List.mem_append_left _ hm), List.cons_ne_nil c t,
      (Nat.le_add_right _ _).trans hb⟩

/-- Slashes at the end of a path do not change where it leads. -/
theorem locate_withoutEndSlashes (h : d.locate p = .ok place) :
    d.locate (withoutEndSlashes p) = .ok place := by
  obtain ⟨hc, hf⟩ := locate_eq_ok.mp h
  refine locate_eq_ok.mpr ⟨checked_withoutEndSlashes hc, ?_⟩
  rcases withoutEndSlashes_cases p with he | ⟨c, t, s, he, hp, hs⟩
  · rw [he, hf]
  · rw [locate_append_slashes hp hs] at hf
    rw [he]
    cases hi : (Path.pieces ⟨c :: t⟩).foldlM d.next (d.start ⟨c :: t⟩) with
    | error f => rw [hi] at hf; cases hf
    | ok r =>
      rw [hi] at hf
      rw [foldlM_idle_eq_ok hf]

theorem locate_of_withoutEndSlashes (hc : checked p = .ok ())
    (h : d.locate (withoutEndSlashes p) = .ok place) (hv : d.view place = some none) :
    d.locate p = .ok place := by
  obtain ⟨-, hf⟩ := locate_eq_ok.mp h
  refine locate_eq_ok.mpr ⟨hc, ?_⟩
  rcases withoutEndSlashes_cases p with he | ⟨c, t, s, he, hp, hs⟩
  · rwa [he] at hf
  · rw [he] at hf
    rw [locate_append_slashes hp hs, hf]
    exact foldlM_idle hv s.length

theorem makeDirectory_eq_ok : d.makeDirectory p = .ok d' ↔ checked p = .ok () ∧ ∃ place,
    d.locate (withoutEndSlashes p) = .ok place ∧ d.view place = none ∧
      d' = d.put place (.directory []) := by
  unfold makeDirectory
  cases checked p with
  | error f => simp [bind, Except.bind]
  | ok u =>
    refine resolve_bind_eq_ok.trans ((exists_congr fun place => and_congr_right fun _ => ?_).trans
      (and_iff_right rfl).symm)
    rw [view, Option.map_eq_none_iff]
    cases d.lookup? place with
    | none => simp [eq_comm]
    | some e => simp

/-- A directory that is made stands where its path leads, and nothing else changes. -/
theorem grown_makeDirectory (h : d.makeDirectory p = .ok d') :
    d.Grown d' ∧ d'.isDirectory p = true := by
  obtain ⟨hc, place, hl, hv, rfl⟩ := makeDirectory_eq_ok.mp h
  have hnew : d.view place ≠ some none := by simp [hv]
  obtain ⟨q, n, rfl, hq⟩ := exists_parent hl hnew
  have hput := view_put (e := .directory []) hq hnew fun _ => rfl
  have hself : (d.put (q ++ [n]) (.directory [])).view (q ++ [n]) = some none := by
    rw [hput, Function.update_self]
    rfl
  have hg : d.Grown (d.put (q ++ [n]) (.directory [])) := by
    refine ⟨rfl, fun r => ?_⟩
    by_cases hr : r = q ++ [n]
    · subst hr
      exact Or.inr ⟨hv, hself⟩
    · exact Or.inl (by rw [hput, Function.update_of_ne hr])
  exact ⟨hg, isDirectory_iff.mpr
    ⟨q ++ [n], locate_of_withoutEndSlashes hc (hg.holds.locate hl) hself, hself⟩⟩

theorem makeDirectory_of_locate (hl : d.locate p = .ok place) (hv : d.view place = none) :
    ∃ d', d.makeDirectory p = .ok d' ∧ d'.current = d.current ∧
      d'.view = Function.update d.view place (some none) := by
  have hnew : d.view place ≠ some none := by simp [hv]
  obtain ⟨q, n, rfl, hq⟩ := exists_parent hl hnew
  have hchecked := (locate_eq_ok.mp hl).1
  exact ⟨_, makeDirectory_eq_ok.mpr ⟨hchecked, _, locate_withoutEndSlashes hl, hv, rfl⟩, rfl,
    view_put hq hnew fun _ => rfl⟩

theorem makeDirectory_of_error {f : Fault} (hc : checked p = .ok ())
    (hl : d.locate (withoutEndSlashes p) = .error f) : d.makeDirectory p = .error f := by
  unfold makeDirectory
  rw [resolve_eq, hc, hl]
  rfl

theorem makeDirectory_of_isDirectory (h : d.isDirectory p = true) :
    d.makeDirectory p = .error .taken := by
  obtain ⟨place, hl, hv⟩ := isDirectory_iff.mp h
  obtain ⟨es, he⟩ := view_eq_directory.mp hv
  unfold makeDirectory
  rw [resolve_eq, (locate_eq_ok.mp hl).1, locate_withoutEndSlashes hl]
  simp only [bind, Except.bind, Except.map, he]

theorem makeDirectories_of_isDirectory (h : d.isDirectory p = true) (outer : List Path) :
    d.makeDirectories (p :: outer) = (.ok (), d) := by
  have hk : Fault.taken.kind ≠ .notFound := by decide
  have ht : Fault.taken.kind = .alreadyExists := rfl
  simp [makeDirectories, makeDirectory_of_isDirectory h, ht, h]

/-- Whatever comes of making directories, all that was there stays, and no file is made. If it is
done, the first of them is there. -/
theorem makeDirectories_spec (d : Disk) (ps : List Path) :
    d.Grown (d.makeDirectories ps).2 ∧
      ((d.makeDirectories ps).1 = .ok () →
        ∀ p ∈ ps.head?, (d.makeDirectories ps).2.isDirectory p) := by
  induction ps generalizing d with
  | nil => exact ⟨Grown.refl d, fun _ p hp => by cases hp⟩
  | cons p outer ih =>
    rw [makeDirectories]
    simp only [List.head?_cons, Option.mem_some_iff, forall_eq']
    cases hm : d.makeDirectory p with
    | ok d' => exact (grown_makeDirectory hm).imp_right fun h _ => h
    | error e =>
      simp only
      split
      next =>
        obtain ⟨hg, -⟩ := ih d
        cases ho : d.makeDirectories outer with
        | mk r d' =>
          rw [ho] at hg
          cases r with
          | error e => exact ⟨hg, fun h => by cases h⟩
          | ok u =>
            simp only
            cases hm' : d'.makeDirectory p with
            | ok d'' => exact (grown_makeDirectory hm').imp (hg.trans ·) fun h _ => h
            | error e =>
              simp only
              split
              next h => exact ⟨hg, fun _ => (Bool.and_eq_true_iff.mp h).2⟩
              next => exact ⟨hg, fun h => by cases h⟩
      next =>
        split
        next h => exact ⟨Grown.refl d, fun _ => (Bool.and_eq_true_iff.mp h).2⟩
        next => exact ⟨Grown.refl d, fun h => by cases h⟩

theorem upward_cases (n : Nat) (p : Path) :
    Path.upward n p = [] ∨ ∃ outer, Path.upward n p = p :: outer := by
  cases n with
  | zero => exact Or.inl rfl
  | succ n =>
    rw [Path.upward]
    cases p.parent? with
    | none => exact Or.inl rfl
    | some q => exact Or.inr ⟨_, rfl⟩

theorem grown_createDirectory (d : Disk) (p : Path) : d.Grown (d.createDirectory p).2 :=
  (makeDirectories_spec d p.ancestors).1

/-- A directory that could be made is there, unless there was nothing to make. -/
theorem createDirectory_ok (h : (d.createDirectory p).1 = .ok ()) :
    (d.createDirectory p).2 = d ∨ (d.createDirectory p).2.isDirectory p = true := by
  have hs := (makeDirectories_spec d p.ancestors).2 h
  unfold createDirectory
  rcases upward_cases p.text.length p with ha | ⟨outer, ha⟩
  · rw [Path.ancestors, ha]
    exact Or.inl rfl
  · rw [Path.ancestors, ha] at hs ⊢
    exact Or.inr (hs p rfl)

theorem createDirectory_of_isDirectory (h : d.isDirectory p = true) :
    d.createDirectory p = (.ok (), d) := by
  unfold createDirectory
  rcases upward_cases p.text.length p with ha | ⟨outer, ha⟩
  · rw [Path.ancestors, ha]
    rfl
  · rw [Path.ancestors, ha]
    exact makeDirectories_of_isDirectory h outer

end DesignRecords.Disk
