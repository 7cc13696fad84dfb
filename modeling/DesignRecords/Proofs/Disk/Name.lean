import DesignRecords.Proofs.Disk.Directory
import DesignRecords.Proofs.Text.Line

namespace DesignRecords

namespace Path

variable {p : Path} {n : Text}

/-- Whether a text is one name of an entry. -/
structure IsName (n : Text) : Prop where
  idle : isIdle n = false
  up : (n == "..") = false
  slash : '/' ∉ n

theorem IsName.not_absolute (h : IsName n) : Path.absolute ⟨n⟩ = false := by
  unfold absolute Text.startsWith
  cases n with
  | nil => rfl
  | cons c n =>
    have hc : ('/' == c) = false := by
      rw [beq_eq_false_iff_ne]
      rintro rfl
      exact h.slash (by simp)
    change ('/' == c && List.isPrefixOf [] n) = false
    rw [hc, Bool.false_and]

/-- The pieces of a path that stand before the name in the path of each of its entries. -/
def inner (p : Path) : List Text :=
  if p.text.isEmpty then [] else if p.text.endsWith "/" then p.pieces.dropLast else p.pieces

theorem text_entry (h : IsName n) :
    (p.entry n).text = if p.text.isEmpty then n
      else if p.text.endsWith "/" then p.text ++ n else p.text ++ "/" ++ n := by
  unfold entry join
  rw [h.not_absolute, Bool.false_or]
  cases p.text.isEmpty with
  | true => rfl
  | false =>
    simp only [Bool.false_eq_true, if_false]
    split <;> rfl

theorem pieces_entry (h : IsName n) : (p.entry n).pieces = p.inner ++ [n] := by
  have hn : n.splitOn '/' = [n] := List.splitOn_eq_singleton h.slash
  unfold pieces inner
  rw [text_entry h]
  split
  next => exact hn
  next =>
    split
    next hs =>
      obtain ⟨s, hs⟩ := List.isSuffixOf_iff_suffix.mp hs
      have ht : p.text ++ n = s ++ '/' :: n := by
        rw [← hs]
        simp
      have hp : p.text = s ++ '/' :: [] := hs.symm
      rw [pieces, ht, List.splitOn_append_cons_self, hn, hp, List.splitOn_append_cons_self,
        List.splitOn_nil, List.dropLast_concat]
    next =>
      have ht : p.text ++ "/" ++ n = p.text ++ '/' :: n := by simp
      rw [pieces, ht, List.splitOn_append_cons_self, hn]

theorem absolute_entry (h : IsName n) : (p.entry n).absolute = p.absolute := by
  unfold absolute Text.startsWith
  rw [text_entry h]
  cases hp : p.text with
  | nil => exact h.not_absolute
  | cons c t =>
    simp only [List.isEmpty_cons, Bool.false_eq_true, if_false]
    split <;> rfl

theorem entry_ne_nil (h : IsName n) : (p.entry n).text ≠ [] := by
  intro he
  have hp := pieces_entry (p := p) h
  rw [pieces, he, List.splitOn_nil] at hp
  have hn : [[]] = [n] := by
    cases hi : p.inner with
    | nil => rwa [hi] at hp
    | cons x xs => rw [hi] at hp; simp at hp
  have hi := h.idle
  cases hn
  exact absurd hi (by decide)

/-- The path of an entry is not empty, even where the name of the entry is. -/
theorem entry_ne_nil_of_ne_nil (h : p.text ≠ []) (n : Text) : (p.entry n).text ≠ [] := by
  have he : p.text.isEmpty = false := by simpa using h
  unfold entry join
  rw [he, Bool.or_false]
  split
  next ha =>
    rintro rfl
    cases ha
  next =>
    split
    · simp [h]
    · simp [h]

theorem endsWith_entry (h : IsName n) : (p.entry n).text.endsWith "/" = false := by
  rw [Bool.eq_false_iff]
  intro hs
  obtain ⟨s, hs⟩ := List.isSuffixOf_iff_suffix.mp hs
  have hp := pieces_entry (p := p) h
  have ht : (p.entry n).text = s ++ '/' :: [] := hs.symm
  rw [pieces, ht, List.splitOn_append_cons_self, List.splitOn_nil] at hp
  have hn := (List.append_inj' hp rfl).2
  have hi := h.idle
  cases hn
  exact absurd hi (by decide)

theorem text_entry_entry {m : Text} (hm : IsName m) (hn : IsName n) :
    ((p.entry m).entry n).text = (p.entry m).text ++ "/" ++ n := by
  have he : (p.entry m).text.isEmpty = false := by simpa using entry_ne_nil (p := p) hm
  rw [text_entry hn, he, endsWith_entry hm, if_neg (by simp), if_neg (by simp)]

/-- The entry of an entry stands below it. -/
theorem inner_entry (h : IsName n) : (p.entry n).inner = p.inner ++ [n] := by
  have he : (p.entry n).text.isEmpty = false := by
    simpa using entry_ne_nil (p := p) h
  rw [inner, he, endsWith_entry h, if_neg (by simp), if_neg (by simp), pieces_entry h]

/-- A path and the paths of its entries differ in their number of pieces. -/
theorem entry_ne_self (h : IsName n) : p.entry n ≠ p := by
  intro he
  have hi := inner_entry (p := p) h
  rw [he] at hi
  simp at hi

theorem entry_injective {m : Text} (hm : IsName m) (hn : IsName n)
    (he : p.entry m = p.entry n) : m = n := by
  have hi := inner_entry (p := p) hm
  rw [he, inner_entry hn] at hi
  exact (List.cons.inj (List.append_cancel_left hi)).1.symm

theorem lead_entry (h : IsName n) (hp : p.inner ≠ []) : (p.entry n).lead =
    if p.absolute then "/".toList
      else if p.inner.head? == some ".".toList then ".".toList else [] := by
  rw [lead, absolute_entry h, pieces_entry h]
  obtain ⟨x, xs, hx⟩ := List.exists_cons_of_ne_nil hp
  simp only [hx, List.cons_append, List.head?_cons]

/-- The text of a path that ends in a name, behind the beginning that no parent loses. -/
theorem exists_rest (h : IsName n) : ∃ r init, (p.entry n).text = (p.entry n).lead ++ r ∧
    r.splitOn '/' = init ++ [n] := by
  have hs := pieces_entry (p := p) h
  rw [pieces] at hs
  unfold lead
  split
  next ha =>
    obtain ⟨r, hr⟩ := List.isPrefixOf_iff_prefix.mp ha
    have ht : (p.entry n).text = [] ++ '/' :: r := hr.symm
    rw [ht, List.splitOn_append_cons_self, List.splitOn_nil] at hs
    refine ⟨r, p.inner.tail, hr.symm, ?_⟩
    cases hi : p.inner with
    | nil =>
      rw [hi] at hs
      simp at hs
    | cons x xs =>
      rw [hi] at hs
      exact (List.cons.inj hs).2
  next ha =>
    split
    next hd =>
      have hd : (p.entry n).pieces.head? = some ".".toList := by simpa using hd
      rw [pieces_entry h] at hd
      cases hi : p.inner with
      | nil =>
        rw [hi] at hd
        have hn := h.idle
        cases hd
        exact absurd hn (by decide)
      | cons x xs =>
        rw [hi] at hd hs
        cases hd
        have ht := @List.intercalate_splitOn Char (p.entry n).text _ _ '/'
        rw [hs, List.cons_append, List.intercalate_cons_of_ne_nil (by simp)] at ht
        refine ⟨'/' :: ['/'].intercalate (xs ++ [n]), [] :: xs, ?_, ?_⟩
        · rw [← ht]
          simp
        · have hx : ∀ l ∈ xs ++ [n], '/' ∉ l := by
            intro l hl hc
            have hm : l ∈ (p.entry n).text.splitOn '/' := by
              rw [hs]
              exact List.mem_cons_of_mem _ hl
            exact (Text.mem_of_mem_splitOn hm hc).2 rfl
          have hsplit : ([] ++ '/' :: ['/'].intercalate (xs ++ [n])).splitOn '/' =
              [] :: (xs ++ [n]) := by
            rw [List.splitOn_append_cons_self, List.splitOn_nil,
              List.splitOn_intercalate '/' hx (by simp)]
            rfl
          exact hsplit
    next => exact ⟨(p.entry n).text, p.inner, rfl, hs⟩

theorem parent?_isSome (h : IsName n) : ∃ q, (p.entry n).parent? = some q := by
  obtain ⟨r, init, ht, hr⟩ := exists_rest (p := p) h
  unfold parent?
  have hd : (p.entry n).text.drop (p.entry n).lead.length = r := by
    conv_lhs => rw [ht]
    exact List.drop_left
  simp only [hd, hr, List.reverse_append, List.reverse_singleton, List.singleton_append,
    List.dropWhile_cons, h.idle, Bool.false_eq_true, if_false]
  exact ⟨_, rfl⟩

/-- The path above the entry of an entry is the entry. -/
theorem parent?_entry {m : Text} (hm : IsName m) (hn : IsName n) :
    ((p.entry m).entry n).parent? = some (p.entry m) := by
  obtain ⟨r, init, ht, hr⟩ := exists_rest (p := p) hm
  have hl : ((p.entry m).entry n).lead = (p.entry m).lead := by
    rw [lead_entry hn (by rw [inner_entry hm]; simp), lead, pieces_entry hm, inner_entry hm]
  have htext : ((p.entry m).entry n).text = (p.entry m).lead ++ (r ++ '/' :: n) := by
    rw [text_entry_entry hm hn, ht]
    simp
  have hnn : isIdle n = false := hn.idle
  have hmm : isIdle m = false := hm.idle
  have hsplit : (r ++ '/' :: n).splitOn '/' = init ++ [m] ++ [n] := by
    rw [List.splitOn_append_cons_self, hr, List.splitOn_eq_singleton hn.slash]
  unfold parent?
  simp only [hl, htext, List.drop_left, hsplit, List.reverse_append, List.reverse_singleton,
    List.singleton_append, List.dropWhile_cons, hnn, hmm, Bool.false_eq_true, if_false]
  have hj : Text.joined "/" (init ++ [m]) = r := by
    rw [← hr]
    exact List.intercalate_splitOn '/'
  simp only [List.reverse_cons, List.reverse_reverse, hj]
  rw [← ht]

end Path

namespace Disk

variable {d d' : Disk} {p : Path} {n : Text} {place q : Place}

/-- The place in which the entries of a path stand. -/
def reach (d : Disk) (p : Path) : Except Fault Place := p.inner.foldlM d.next (d.start p)

theorem start_entry (h : Path.IsName n) : d.start (p.entry n) = d.start p := by
  rw [start, start, Path.absolute_entry h]

theorem reach_entry (h : Path.IsName n) :
    d.reach (p.entry n) = d.reach p >>= fun q => d.next q n := by
  rw [reach, Path.inner_entry h, List.foldlM_append, start_entry h]
  simp only [List.foldlM_cons, List.foldlM_nil, bind_pure]
  rfl

theorem next_name (h : Path.IsName n) :
    d.next q n = .ok place ↔
      d.view q = some none ∧ isNameTooLong n = false ∧ place = q ++ [n] := by
  unfold next
  rw [h.idle, h.up]
  cases d.view q with
  | none => simp
  | some v =>
    cases v with
    | some c => simp
    | none => cases isNameTooLong n <;> simp [eq_comm]

theorem reach_entry_eq_ok (h : Path.IsName n) :
    d.reach (p.entry n) = .ok place ↔ ∃ q, d.reach p = .ok q ∧ d.view q = some none ∧
      isNameTooLong n = false ∧ place = q ++ [n] := by
  rw [reach_entry h]
  cases d.reach p with
  | error f => simp [bind, Except.bind]
  | ok q =>
    change d.next q n = .ok place ↔ _
    rw [next_name h]
    simp

theorem locate_entry_apply (h : Path.IsName n) :
    d.locate (p.entry n) = checked (p.entry n) >>= fun _ => d.reach p >>= fun q => d.next q n := by
  rw [locate, Path.pieces_entry h, List.foldlM_append, start_entry h]
  simp only [List.foldlM_cons, List.foldlM_nil, bind_pure]
  rfl

theorem locate_entry (h : Path.IsName n) :
    d.locate (p.entry n) = .ok place ↔
      checked (p.entry n) = .ok () ∧ ∃ q, d.reach p = .ok q ∧ d.view q = some none ∧
        isNameTooLong n = false ∧ place = q ++ [n] := by
  rw [locate_entry_apply h, ← reach_entry h]
  cases checked (p.entry n) with
  | error f => simp [bind, Except.bind]
  | ok u =>
    change d.reach (p.entry n) = .ok place ↔ _
    rw [reach_entry_eq_ok h]
    simp

theorem checked_of_start {p' : Path} (hn : p.text ≠ []) (hp : p.text <+: p'.text)
    (h : checked p' = .ok ()) : checked p = .ok () := by
  obtain ⟨t, ht⟩ := hp
  obtain ⟨h0, -, hb⟩ := checked_eq_ok.mp h
  rw [← ht] at h0 hb
  rw [byteCount_append] at hb
  exact checked_eq_ok.mpr ⟨fun hm => h0 (List.mem_append_left t hm), hn, by omega⟩

/-- What has an entry that a path leads to is a directory. -/
theorem isDirectory_of_locate_entry (h : Path.IsName n) (hp : p.text ≠ [])
    (hl : d.locate (p.entry n) = .ok place) : d.isDirectory p = true := by
  obtain ⟨hc, q, hr, hv, -⟩ := (locate_entry h).mp hl
  have he : p.text.isEmpty = false := by simpa using hp
  have hprefix : p.text <+: (p.entry n).text := by
    rw [Path.text_entry h, he, if_neg (by simp)]
    split
    · exact List.prefix_append _ _
    · rw [List.append_assoc]
      exact List.prefix_append _ _
  have hpieces : p.pieces.foldlM d.next (d.start p) = .ok q := by
    rw [reach, Path.inner, he, if_neg (by simp)] at hr
    split at hr
    next hs =>
      obtain ⟨s, hs⟩ := List.isSuffixOf_iff_suffix.mp hs
      have ht : p.pieces = s.splitOn '/' ++ [[]] := by
        rw [Path.pieces, ← hs]
        exact List.splitOn_append_cons_self ..
      rw [ht, List.dropLast_concat] at hr
      rw [ht, List.foldlM_append, hr]
      exact foldlM_idle hv 1
    next => exact hr
  exact isDirectory_iff.mpr
    ⟨q, locate_eq_ok.mpr ⟨checked_of_start hp hprefix hc, hpieces⟩, hv⟩

theorem checked_of_entry (h : Path.IsName n) {m : Text}
    (hm : Path.IsName m) (hc : checked ((p.entry n).entry m) = .ok ()) :
    checked (p.entry n) = .ok () := by
  apply checked_of_start (Path.entry_ne_nil h) _ hc
  rw [Path.text_entry_entry h hm, List.append_assoc]
  exact List.prefix_append _ _

theorem withoutEndSlashes_entry (h : Path.IsName n) :
    withoutEndSlashes (p.entry n) = p.entry n := by
  rcases withoutEndSlashes_cases (p.entry n) with he | ⟨c, t, s, he, hp, hs⟩
  · exact he
  · rcases List.eq_nil_or_concat s with rfl | ⟨s, x, rfl⟩
    · rw [he]
      rw [List.append_nil] at hp
      rw [← hp]
    · have hx : x = '/' := hs x (by simp)
      have hend : Text.endsWith (p.entry n).text "/" = true := by
        refine List.isSuffixOf_iff_suffix.mpr ⟨c :: t ++ s, ?_⟩
        rw [hp, hx]
        simp
      rw [Path.endsWith_entry h] at hend
      cases hend

theorem reach_entry_of_ok {m : Text} (hm : Path.IsName m) (hmn : isNameTooLong m = false)
    (hr : d.reach p = .ok q) (hv : d.view q = some none) :
    d.reach (p.entry m) = .ok (q ++ [m]) := by
  rw [reach_entry hm, hr]
  exact (next_name hm).mpr ⟨hv, hmn, rfl⟩

theorem ancestors_entry_entry {m : Text} (hm : Path.IsName m) (hn : Path.IsName n) :
    ∃ outer, ((p.entry m).entry n).ancestors = (p.entry m).entry n :: p.entry m :: outer := by
  obtain ⟨c, s, hs⟩ := List.exists_cons_of_ne_nil (Path.entry_ne_nil (p := p) hm)
  have ht := Path.text_entry (p := p.entry m) hn
  rw [Path.endsWith_entry hm, hs] at ht
  have hl : ∃ k, ((p.entry m).entry n).text.length = k + 1 + 1 :=
    ⟨s.length + n.length, by rw [ht]; simp; omega⟩
  obtain ⟨k, hk⟩ := hl
  obtain ⟨q', hq⟩ := Path.parent?_isSome (p := p) hm
  refine ⟨Path.upward k q', ?_⟩
  simp only [Path.ancestors, hk, Path.upward, Path.parent?_entry hm hn, hq]

theorem Holds.reach (h : d.Holds d') (hr : d.reach p = .ok q) : d'.reach p = .ok q := by
  have hs : d'.start p = d.start p := by simp [start, h.current]
  rw [Disk.reach, hs]
  exact h.foldlM_next hr

/-- A directory is made in another one, which may have to be made too. -/
theorem createDirectory_entry_entry {m : Text} (hm : Path.IsName m) (hn : Path.IsName n)
    (hc : checked ((p.entry m).entry n) = .ok ()) (hmn : isNameTooLong m = false)
    (hnn : isNameTooLong n = false) (hr : d.reach p = .ok q) (hv : d.view q = some none)
    (hqm : d.view (q ++ [m]) = none ∨ d.view (q ++ [m]) = some none)
    (hqn : d.view (q ++ [m] ++ [n]) = none) :
    ∃ d', d.createDirectory ((p.entry m).entry n) = (.ok (), d') ∧ d'.current = d.current ∧
      d'.view = Function.update (Function.update d.view (q ++ [m]) (some none)) (q ++ [m] ++ [n])
        (some none) := by
  obtain ⟨outer, ho⟩ := ancestors_entry_entry (p := p) hm hn
  have hreach := reach_entry_of_ok hm hmn hr hv
  rw [createDirectory, ho]
  rcases hqm with hqm | hqm
  · have hmissing : d.makeDirectory ((p.entry m).entry n) = .error .missing := by
      refine makeDirectory_of_error hc ?_
      rw [withoutEndSlashes_entry hn, locate_entry_apply hn, hc, hreach]
      simp only [bind, Except.bind, next, hqm]
    have hl : d.locate (p.entry m) = .ok (q ++ [m]) :=
      (locate_entry hm).mpr ⟨checked_of_entry hm hn hc, q, hr, hv, hmn, rfl⟩
    obtain ⟨d₁, h₁, hc₁, hv₁⟩ := makeDirectory_of_locate hl hqm
    have hholds : d.Holds d₁ := by
      refine ⟨hc₁, fun x hx => ?_⟩
      rw [hv₁]
      by_cases he : x = q ++ [m]
      · rw [he, Function.update_self]
      · rw [Function.update_of_ne he, hx]
    have hne : q ++ [m] ++ [n] ≠ q ++ [m] := by simp
    have hself : d₁.view (q ++ [m]) = some none := by rw [hv₁, Function.update_self]
    have hl₁ : d₁.locate ((p.entry m).entry n) = .ok (q ++ [m] ++ [n]) :=
      (locate_entry hn).mpr ⟨hc, q ++ [m], hholds.reach hreach, hself, hnn, rfl⟩
    obtain ⟨d₂, h₂, hc₂, hv₂⟩ := makeDirectory_of_locate hl₁
      (by rw [hv₁, Function.update_of_ne hne, hqn])
    refine ⟨d₂, ?_, hc₂.trans hc₁, by rw [hv₂, hv₁]⟩
    have hk : Fault.missing.kind = .notFound := rfl
    simp only [makeDirectories, hmissing, hk, if_true, h₁, h₂]
  · have hl : d.locate ((p.entry m).entry n) = .ok (q ++ [m] ++ [n]) :=
      (locate_entry hn).mpr ⟨hc, q ++ [m], hreach, hqm, hnn, rfl⟩
    obtain ⟨d', h', hc', hv'⟩ := makeDirectory_of_locate hl hqn
    refine ⟨d', by simp only [makeDirectories, h'], hc', ?_⟩
    have he : Function.update d.view (q ++ [m]) (some none) = d.view := by
      rw [← hqm, Function.update_eq_self]
    rw [hv', he]

theorem find_of_locate_error (h : d.locate p = .error f) : d.find p = .error f := by
  unfold find
  rw [resolve_eq, h]
  rfl

theorem find_of_view_none (h : d.locate p = .ok place) (hv : d.view place = none) :
    d.find p = .error .missing := by
  have he : d.lookup? place = none := Option.map_eq_none_iff.mp hv
  unfold find
  rw [resolve_eq, h, Except.map, he]
  rfl

theorem readText_of_locate_error (h : d.locate p = .error f) : d.readText p = .error f := by
  unfold readText
  rw [find_of_locate_error h]
  rfl

/-- The entries of a path stand where the path leads. -/
theorem reach_of_locate (h : d.locate p = .ok place) : d.reach p = .ok place := by
  obtain ⟨hc, hf⟩ := locate_eq_ok.mp h
  have he : p.text.isEmpty = false := by simpa using (checked_eq_ok.mp hc).2.1
  unfold reach Path.inner
  rw [he, if_neg (by simp)]
  split
  next hs =>
    obtain ⟨s, hs⟩ := List.isSuffixOf_iff_suffix.mp hs
    have hp : p.text = s ++ '/' :: [] := hs.symm
    rw [Path.pieces, hp, List.splitOn_append_cons_self, List.splitOn_nil, List.foldlM_append] at hf
    rw [Path.pieces, hp, List.splitOn_append_cons_self, List.splitOn_nil, List.dropLast_concat]
    cases hi : (s.splitOn '/').foldlM d.next (d.start p) with
    | error f => rw [hi] at hf; cases hf
    | ok q =>
      rw [hi] at hf
      rw [foldlM_idle_eq_ok (n := 1) hf]
  next => exact hf

end Disk

end DesignRecords
