import DesignRecords.Proofs.Workspace.Link

namespace DesignRecords

namespace Path

variable {p : Path} {n : Text} {here there : List Text} {parts : List Part}

/-- Where one part of a link leads from a directory that stands below a root along some names. The
directory above the root is out of reach, and so is what does not start from the directory. -/
def stepBelow (here : List Text) : Part → Option (List Text)
  | .root => none
  | .here => some here
  | .up => if here.isEmpty then none else some here.dropLast
  | .name n => some (here ++ [n])

/-- Where the parts of a link lead, one after the other, without a step above the root. -/
def follow (here : List Text) (parts : List Part) : Option (List Text) :=
  parts.foldlM stepBelow here

theorem isName_of_mem_parts (h : .name n ∈ p.parts) : IsName n := by
  have hpiece : ∃ piece ∈ p.pieces, partOfPiece? piece = some (.name n) := by
    refine List.mem_filterMap.mp ((List.mem_append.mp h).resolve_left fun hlead => ?_)
    split at hlead
    · simp at hlead
    · split at hlead <;> simp at hlead
  obtain ⟨piece, hp, he⟩ := hpiece
  unfold partOfPiece? at he
  split at he
  · cases he
  next hidle =>
    split at he
    · cases he
    next hup =>
      cases he
      exact ⟨by simpa using hidle, by simpa using hup,
        fun hc => (Text.mem_of_mem_splitOn hp hc).2 rfl⟩

/-- A text put together of pieces that lead somewhere has their parts. -/
theorem parts_joined {pieces : List Text} (h : ∀ s ∈ pieces, isIdle s = false ∧ '/' ∉ s) :
    (Path.mk (Text.joined "/" pieces)).parts = pieces.filterMap partOfPiece? := by
  cases pieces with
  | nil => rfl
  | cons s pieces =>
    obtain ⟨hs, hslash⟩ := h s (by simp)
    have hsplit : (Path.mk (Text.joined "/" (s :: pieces))).pieces = s :: pieces :=
      List.splitOn_intercalate '/' (fun x hx => (h x hx).2) (by simp)
    have hdot : (some s == some ".".toList) = false := by
      rw [beq_eq_false_iff_ne]
      rintro ⟨⟩
      exact absurd hs (by decide)
    have habsolute : (Path.mk (Text.joined "/" (s :: pieces))).absolute = false := by
      rw [Bool.eq_false_iff]
      intro ha
      obtain ⟨r, hr⟩ := List.isPrefixOf_iff_prefix.mp ha
      have hr : (Path.mk (Text.joined "/" (s :: pieces))).text = [] ++ '/' :: r := hr.symm
      rw [Path.pieces, hr, List.splitOn_append_cons_self, List.splitOn_nil] at hsplit
      rw [← (List.cons.inj hsplit).1] at hs
      exact absurd hs (by decide)
    rw [parts, habsolute, hsplit, List.head?_cons, hdot]
    rfl

theorem follow_append (here : List Text) (parts parts' : List Part) :
    follow here (parts ++ parts') = (follow here parts).bind (follow · parts') :=
  List.foldlM_append

theorem follow_cons (here : List Text) (part : Part) (parts : List Part) :
    follow here (part :: parts) = (stepBelow here part).bind (follow · parts) :=
  List.foldlM_cons

theorem follow_up (here up : List Text) :
    follow (here ++ up) (List.replicate up.length .up) = some here := by
  induction up using List.reverseRecOn with
  | nil => simp [follow]
  | append_singleton up n ih =>
    have hstep : stepBelow (here ++ (up ++ [n])) .up = some (here ++ up) := by
      rw [← List.append_assoc, stepBelow, List.dropLast_concat]
      simp
    rw [List.length_append, List.length_singleton, List.replicate_succ, follow_cons, hstep]
    exact ih

theorem follow_names (here names : List Text) :
    follow here (names.map .name) = some (here ++ names) := by
  induction names generalizing here with
  | nil => simp [follow]
  | cons n names ih =>
    rw [List.map_cons, follow_cons, stepBelow, Option.bind_some, ih, List.append_assoc]
    rfl

/-- A link keeps what its steps up leave of the way down to its start. -/
theorem take_prefix_of_follow (h : follow here parts = some there) :
    here.take (here.length - parts.count .up) <+: there := by
  -- Each part moves the start of those behind it: what is kept is counted from there.
  induction parts generalizing here with
  | nil =>
    cases h
    exact List.take_prefix _ _
  | cons part parts ih =>
    rw [follow_cons] at h
    obtain ⟨next, hnext, h⟩ := Option.bind_eq_some_iff.mp h
    have hkept := ih h
    cases part with
    | root => cases hnext
    | here =>
      cases hnext
      simpa using hkept
    | up =>
      rw [stepBelow] at hnext
      split at hnext
      · cases hnext
      · cases hnext
        rw [List.length_dropLast, List.dropLast_eq_take, List.take_take] at hkept
        rw [List.count_cons_self]
        have hle : here.length - (parts.count .up + 1) ≤
            min (here.length - 1 - parts.count .up) (here.length - 1) := by omega
        exact (List.take_prefix_take_left hle).trans hkept
    | name n =>
      cases hnext
      rw [List.length_append, List.length_singleton] at hkept
      rw [List.count_cons_of_ne (by simp)]
      have htake : here.take (here.length - parts.count .up) =
          (here ++ [n]).take (here.length - parts.count .up) := by
        rw [List.take_append_of_le_length (Nat.sub_le _ _)]
      rw [htake]
      exact (List.take_prefix_take_left (by omega)).trans hkept

end Path

namespace Layout

/-- The directory that two others have in common and that is the deepest such one: all the names
that the ways down to them share. -/
structure Meet (shared here there : List Text) : Prop where
  left : shared <+: here
  right : shared <+: there
  deepest : ∀ other, other <+: here → other <+: there → other <+: shared

section

variable {α : Type} [DecidableEq α]

theorem exists_shared (as bs : List α) : ∃ shared,
    as = shared ++ (withoutShared as bs).1 ∧ bs = shared ++ (withoutShared as bs).2 ∧
      ∀ a ∈ (withoutShared as bs).1.head?, ∀ b ∈ (withoutShared as bs).2.head?, a ≠ b := by
  fun_induction withoutShared as bs with
  | case1 as a bs ih =>
    obtain ⟨shared, has, hbs, hapart⟩ := ih
    exact ⟨a :: shared, congrArg (a :: ·) has, congrArg (a :: ·) hbs, hapart⟩
  | case2 a as b bs hne => exact ⟨[], rfl, rfl, by simpa using hne⟩
  | case3 as bs hne =>
    refine ⟨[], rfl, rfl, fun a ha b hb => ?_⟩
    obtain ⟨as, rfl⟩ := List.head?_eq_some_iff.mp ha
    obtain ⟨bs, rfl⟩ := List.head?_eq_some_iff.mp hb
    exact absurd rfl (hne a as b bs rfl)

end

variable {l : Layout} {start target : Path} {here there shared up down : List Text}

/-- Two ways part where the ways to their deepest common directory end. -/
theorem meet_of_apart (h : ∀ m ∈ up.head?, ∀ n ∈ down.head?, m ≠ n) :
    Meet shared (shared ++ up) (shared ++ down) := by
  refine ⟨List.prefix_append _ _, List.prefix_append _ _, fun other hup hdown => ?_⟩
  -- A common directory that is deeper would have the next name of both ways.
  rcases List.prefix_or_prefix_of_prefix hup (List.prefix_append shared up) with hle | ⟨rest, rfl⟩
  · exact hle
  · rw [List.prefix_append_right_inj] at hup hdown
    cases rest with
    | nil => simp
    | cons n rest =>
      obtain ⟨up, rfl⟩ := hup
      obtain ⟨down, rfl⟩ := hdown
      exact absurd rfl (h n rfl n rfl)

theorem Meet.length_le_count {parts : List Path.Part} (h : Meet shared (shared ++ up) there)
    (hf : Path.follow (shared ++ up) parts = some there) : up.length ≤ parts.count .up := by
  have hshort := (h.deepest _ (List.take_prefix _ _) (Path.take_prefix_of_follow hf)).length_le
  rw [List.length_take, List.length_append] at hshort
  omega

theorem isName_of_below? {names : List Text} (h : l.root.below? start = some (names.map .name)) :
    ∀ n ∈ names, Path.IsName n := by
  intro n hn
  have hparts : start.parts = l.root.parts ++ names.map .name :=
    (List.isPrefixOf?_eq_some_iff_append_eq.mp h).symm
  refine Path.isName_of_mem_parts (p := start) ?_
  rw [hparts]
  exact List.mem_append_right _ (List.mem_map_of_mem hn)

/-- The parts of a link are the steps up and the names down that it is made of. -/
theorem parts_link (hdown : ∀ n ∈ down, Path.IsName n) (k : Nat) :
    (Path.mk (Text.joined "/" (List.replicate k "..".toList ++ down))).parts =
      List.replicate k .up ++ down.map .name := by
  have hpieces : ∀ s ∈ List.replicate k "..".toList ++ down,
      Path.isIdle s = false ∧ '/' ∉ s := by
    intro s hs
    rcases List.mem_append.mp hs with hs | hs
    · rw [List.eq_of_mem_replicate hs]
      decide
    · exact ⟨(hdown s hs).idle, (hdown s hs).slash⟩
  have hnames : down.filterMap Path.partOfPiece? = down.map .name := by
    rw [← List.filterMap_eq_map]
    exact List.filterMap_congr fun n hn => Path.partOfPiece?_name (hdown n hn)
  rw [Path.parts_joined hpieces, List.filterMap_append, hnames, List.filterMap_replicate]
  rfl

/-- The link between two paths below the root goes up to the deepest directory that has both in it,
and down from there by the names that are left. It leads to its target without a step above the
root, and whatever else leads there so has as many steps up. -/
theorem link_leads (hstart : l.root.below? start = some (here.map .name))
    (htarget : l.root.below? target = some (there.map .name)) :
    ∃ shared up down, here = shared ++ up ∧ there = shared ++ down ∧ Meet shared here there ∧
      l.link start target = Text.joined "/" (List.replicate up.length "..".toList ++ down) ∧
      Path.follow here (Path.mk (l.link start target)).parts = some there ∧
      ∀ parts, Path.follow here parts = some there → up.length ≤ parts.count .up := by
  obtain ⟨shared, hhere, hthere, hapart⟩ := exists_shared here there
  generalize (withoutShared here there).1 = up at hhere hapart
  generalize (withoutShared here there).2 = down at hthere hapart
  have hdown := isName_of_below? htarget
  subst hhere hthere
  have hmeet : Meet shared (shared ++ up) (shared ++ down) := meet_of_apart hapart
  have hlink : l.link start target =
      Text.joined "/" (List.replicate up.length "..".toList ++ down) :=
    link_of_partsBelow (by rw [partsBelow, hstart]; rfl) (by rw [partsBelow, htarget]; rfl) hapart
  refine ⟨shared, up, down, rfl, rfl, hmeet, hlink, ?_, fun parts => hmeet.length_le_count⟩
  rw [hlink, parts_link fun n hn => hdown n (List.mem_append_right _ hn), Path.follow_append,
    Path.follow_up]
  exact Path.follow_names shared down

/-- A workspace whose root has a step up in it. -/
def team : Layout := ⟨⟨"ws/../team"⟩⟩

/-- A directory in a ticket of the workspace, written with what leads nowhere. -/
def notes : Path := ⟨"ws/../team//tickets/T-1/./notes/"⟩

def notesNames : List Text := ["tickets", "T-1", "notes"]

/-- A file in a ticket whose name starts like that of the other one. -/
def plan : Path := ⟨"ws/./../team/tickets/T-10/T-1"⟩

def planNames : List Text := ["tickets", "T-10", "T-1"]

theorem link_leads_nested :
    team.root.below? notes = some (notesNames.map .name) ∧
    team.root.below? plan = some (planNames.map .name) ∧
    ∃ shared up down, notesNames = shared ++ up ∧ planNames = shared ++ down ∧
      Meet shared notesNames planNames ∧
      team.link notes plan = Text.joined "/" (List.replicate up.length "..".toList ++ down) ∧
      Path.follow notesNames (Path.mk (team.link notes plan)).parts = some planNames ∧
      ∀ parts, Path.follow notesNames parts = some planNames → up.length ≤ parts.count .up := by
  have hstart : team.root.below? notes = some (notesNames.map .name) := by decide +kernel
  have htarget : team.root.below? plan = some (planNames.map .name) := by decide +kernel
  exact ⟨hstart, htarget, link_leads hstart htarget⟩

example : team.link notes plan = "../../T-10/T-1" := by decide +kernel

end Layout

end DesignRecords
