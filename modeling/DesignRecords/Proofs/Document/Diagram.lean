import DesignRecords.Proofs.Document.Distinct
import DesignRecords.Proofs.Document.NodeId
import Mathlib.Data.List.Nodup

namespace DesignRecords

namespace Text

variable {s l : Text} {ls : List Text}

/-- Whether a text is read as one line wherever it is put. -/
structure Whole (l : Text) : Prop where
  not_feed_mem : '\n' ∉ l
  ends : ∃ c, l.getLast? = some c ∧ c ≠ '\r'

theorem Whole.append_left (h : l.Whole) (hs : '\n' ∉ s) : Whole (s ++ l) where
  not_feed_mem hm := (List.mem_append.mp hm).elim hs h.not_feed_mem
  ends := by
    obtain ⟨c, hc, hne⟩ := h.ends
    exact ⟨c, by rw [List.getLast?_append, hc, Option.some_or], hne⟩

theorem Whole.ne_nil (h : l.Whole) : l ≠ [] := by
  rintro rfl
  obtain ⟨c, hc, _⟩ := h.ends
  cases hc

theorem Whole.dropReturn_eq (h : l.Whole) : dropReturn l = l := by
  apply dropReturn_of_not_suffix
  rintro ⟨s, rfl⟩
  obtain ⟨c, hc, hne⟩ := h.ends
  rw [List.getLast?_concat] at hc
  exact hne (Option.some.inj hc).symm

theorem lines_ofLines_of_whole (h : ∀ l ∈ ls, l.Whole) : lines (ofLines ls) = ls := by
  induction ls with
  | nil => rfl
  | cons l ls ih =>
    have hl : l.Whole := h l (by simp)
    by_cases hn : ls = []
    · subst hn
      rw [ofLines_singleton, lines_of_single hl.not_feed_mem hl.ne_nil]
    · rw [ofLines_cons l hn, lines_piece hl.not_feed_mem, hl.dropReturn_eq,
        ih fun x hx => h x (List.mem_cons_of_mem l hx)]

end Text

namespace Diagram

variable {c : Component} {components nodes : List Component} {name s : Text} {x : Char}
  {p : Text × Text} {pairs : List (Text × Text)}

/-- The identifier behind the indentation of a line. -/
def idOnLine (line : Text) : Text := (line.drop 4).takeWhile isIdChar

/-- The two identifiers on the line of an edge. -/
def endsOnLine (line : Text) : Text × Text :=
  (idOnLine line, (line.drop 4).dropWhile isIdChar |>.drop 5)

theorem nodeLine_eq (c : Component) : nodeLine c = "    ".toList ++ (nodeId c.name ++
    '[' :: ('"' :: Text.replaced '"' "#quot;" c.name ++ "\"]".toList)) := by
  unfold nodeLine
  simp only [List.append_assoc]
  rfl

theorem edgeLine_eq (p : Text × Text) :
    edgeLine p = "    ".toList ++ (p.1 ++ ' ' :: ("--> ".toList ++ p.2)) := by
  unfold edgeLine
  simp only [List.append_assoc]
  rfl

section

variable (hx : isIdChar x = false) (hs : ∀ y ∈ s, isIdChar y = true) (t : Text)

include hx hs

theorem takeWhile_isIdChar : (s ++ x :: t).takeWhile isIdChar = s := by
  rw [List.takeWhile_append_of_pos hs, List.takeWhile_cons_of_neg (by simp [hx]), List.append_nil]

theorem dropWhile_isIdChar : (s ++ x :: t).dropWhile isIdChar = x :: t := by
  rw [List.dropWhile_append_of_pos hs, List.dropWhile_cons_of_neg (by simp [hx])]

end

theorem idOnLine_nodeLine (c : Component) : idOnLine (nodeLine c) = nodeId c.name := by
  rw [nodeLine_eq]
  exact takeWhile_isIdChar rfl (fun _ hy => isIdChar_of_mem_nodeId hy) _

theorem endsOnLine_edgeLine (from' to' : Text) :
    endsOnLine (edgeLine (nodeId from', nodeId to')) = (nodeId from', nodeId to') := by
  have hid : ∀ y ∈ nodeId from', isIdChar y = true := fun _ hy => isIdChar_of_mem_nodeId hy
  rw [edgeLine_eq]
  have htake := takeWhile_isIdChar (x := ' ') rfl hid ("--> ".toList ++ nodeId to')
  have hdrop := dropWhile_isIdChar (x := ' ') rfl hid ("--> ".toList ++ nodeId to')
  exact Prod.ext htake (congrArg (List.drop 5) hdrop)

/-- Behind the identifier stands a bracket on the line of a node and a space on that of an edge. -/
theorem nodeLine_ne_edgeLine (c : Component) (name name' : Text) :
    nodeLine c ≠ edgeLine (nodeId name, nodeId name') := by
  intro h
  rw [nodeLine_eq, edgeLine_eq] at h
  have h := congrArg (List.dropWhile isIdChar) (List.append_cancel_left h)
  rw [dropWhile_isIdChar rfl fun _ hy => isIdChar_of_mem_nodeId hy,
    dropWhile_isIdChar rfl fun _ hy => isIdChar_of_mem_nodeId hy] at h
  cases (List.cons.inj h).1

theorem not_feed_mem_nodeId (name : Text) : '\n' ∉ nodeId name :=
  fun hm => nomatch isIdChar_of_mem_nodeId hm

theorem not_feed_mem_label (h : '\n' ∉ name) : '\n' ∉ Text.replaced '"' "#quot;" name := by
  intro hm
  obtain ⟨y, hy, hin⟩ := List.mem_flatMap.mp hm
  split at hin
  next => revert hin; decide
  next => exact h (List.mem_singleton.mp hin ▸ hy)

theorem whole_nodeId (name : Text) : (nodeId name).Whole where
  not_feed_mem := not_feed_mem_nodeId name
  ends := by
    have hne := nodeId_ne_nil name
    refine ⟨_, List.getLast?_eq_some_getLast hne, fun hr => ?_⟩
    exact nomatch hr ▸ isIdChar_of_mem_nodeId (List.getLast_mem hne)

theorem whole_nodeLine (h : '\n' ∉ c.name) : (nodeLine c).Whole := by
  have hend : Text.Whole "\"]" := ⟨by decide, ']', rfl, by decide⟩
  refine hend.append_left ?_
  have hlabel := not_feed_mem_label h
  have hid := not_feed_mem_nodeId c.name
  generalize Text.replaced '"' "#quot;" c.name = label at hlabel ⊢
  simp [hid, hlabel]

theorem whole_edgeLine (name name' : Text) : (edgeLine (nodeId name, nodeId name')).Whole := by
  have hid := not_feed_mem_nodeId name
  exact (whole_nodeId name').append_left (by simp [hid])

theorem mem_edges : p ∈ edges components ↔
    ∃ c ∈ components, ∃ name ∈ c.dependencies, p = (nodeId c.name, nodeId name) := by
  simp [edges, eq_comm]

/-- The nodes and edges of a diagram: the first component of each identifier, and each pair of
identifiers that a component and a dependency of it have, in the order of their first places. -/
structure Draws (components nodes : List Component) (pairs : List (Text × Text)) : Prop where
  nodes_first : FirstsBy (fun c => nodeId c.name) components nodes
  pairs_first : FirstsBy id (edges components) pairs
  declared_once : (nodes.map fun c => nodeId c.name).Nodup
  drawn_once : pairs.Nodup
  component_declared : ∀ c ∈ components, ∃ node ∈ nodes, nodeId node.name = nodeId c.name
  dependency_drawn : ∀ c ∈ components, ∀ name ∈ c.dependencies,
    (nodeId c.name, nodeId name) ∈ pairs
  start_declared : ∀ p ∈ pairs, ∃ node ∈ nodes, nodeId node.name = p.1

theorem draws_of_firsts (hn : FirstsBy (fun c => nodeId c.name) components nodes)
    (hp : FirstsBy id (edges components) pairs) : Draws components nodes pairs where
  nodes_first := hn
  pairs_first := hp
  declared_once := hn.nodup
  drawn_once := by simpa using hp.nodup
  component_declared _ hc := hn.exists_key_eq hc
  dependency_drawn c hc name hname := by
    obtain ⟨p, hmem, he⟩ := hp.exists_key_eq (mem_edges.mpr ⟨c, hc, name, hname, rfl⟩)
    have he : p = (nodeId c.name, nodeId name) := he
    rwa [← he]
  start_declared p hmem := by
    obtain ⟨c, hc, name, _, rfl⟩ := mem_edges.mp (hp.mem hmem)
    exact hn.exists_key_eq hc

namespace Draws

variable (h : Draws components nodes pairs)

include h

theorem ends_of_mem (hp : p ∈ pairs) : ∃ name name', p = (nodeId name, nodeId name') := by
  obtain ⟨c, _, name, _, rfl⟩ := mem_edges.mp (h.pairs_first.mem hp)
  exact ⟨c.name, name, rfl⟩

theorem nodup_nodeLines : (nodes.map nodeLine).Nodup := by
  apply List.Nodup.of_map idOnLine
  simpa [Function.comp_def, idOnLine_nodeLine] using h.declared_once

theorem nodup_edgeLines : (pairs.map edgeLine).Nodup := by
  apply List.Nodup.of_map endsOnLine
  have hback : (pairs.map edgeLine).map endsOnLine = pairs := by
    rw [List.map_map]
    refine (List.map_congr_left fun p hp => ?_).trans (List.map_id pairs)
    obtain ⟨name, name', rfl⟩ := h.ends_of_mem hp
    exact endsOnLine_edgeLine name name'
  rw [hback]
  exact h.drawn_once

theorem nodup_lines :
    ("graph TB".toList :: nodes.map nodeLine ++ pairs.map edgeLine).Nodup := by
  have hindent : ∀ s : Text, "graph TB".toList ≠ "    " ++ s := fun s hs => by cases hs
  refine List.nodup_cons.mpr ⟨fun hm => ?_, List.nodup_append.mpr
    ⟨h.nodup_nodeLines, h.nodup_edgeLines, fun l hl l' hl' => ?_⟩⟩
  · rcases List.mem_append.mp hm with hm | hm
    · obtain ⟨c, _, hc⟩ := List.mem_map.mp hm
      exact hindent _ ((nodeLine_eq c).symm.trans hc).symm
    · obtain ⟨p, _, hp⟩ := List.mem_map.mp hm
      exact hindent _ ((edgeLine_eq p).symm.trans hp).symm
  · obtain ⟨c, _, rfl⟩ := List.mem_map.mp hl
    obtain ⟨p, hp, rfl⟩ := List.mem_map.mp hl'
    obtain ⟨name, name', rfl⟩ := h.ends_of_mem hp
    exact nodeLine_ne_edgeLine c name name'

theorem whole_of_mem (hf : ∀ c ∈ components, '\n' ∉ c.name) :
    ∀ l ∈ "graph TB".toList :: nodes.map nodeLine ++ pairs.map edgeLine, Text.Whole l := by
  intro l hl
  rcases List.mem_append.mp hl with hl | hl
  · rcases List.mem_cons.mp hl with rfl | hl
    · exact ⟨by decide, 'B', rfl, by decide⟩
    · obtain ⟨c, hc, rfl⟩ := List.mem_map.mp hl
      exact whole_nodeLine (hf c (h.nodes_first.mem hc))
  · obtain ⟨p, hp, rfl⟩ := List.mem_map.mp hl
    obtain ⟨name, name', rfl⟩ := h.ends_of_mem hp
    exact whole_edgeLine name name'

end Draws

end Diagram

/-- The lines of a diagram are its head, the nodes and the edges, and no line stands in it twice. -/
theorem Document.diagram_draws (d : Document) (hc : d.components ≠ [])
    (hf : ∀ c ∈ d.components, '\n' ∉ c.name) :
    ∃ nodes pairs, Diagram.Draws d.components nodes pairs ∧ d.diagram.lines.Nodup ∧
      d.diagram.lines =
        "graph TB".toList :: nodes.map Diagram.nodeLine ++ pairs.map Diagram.edgeLine := by
  have hdraws := Diagram.draws_of_firsts (firstsBy_distinctBy _ d.components)
    (firstsBy_distinctBy id (Diagram.edges d.components))
  have hlines : d.diagram.lines = Diagram.lines d.components := by
    rw [diagram, if_neg (by simpa using hc)]
    exact Text.lines_ofLines_of_whole (hdraws.whole_of_mem hf)
  refine ⟨_, _, hdraws, ?_, hlines⟩
  rw [hlines]
  exact hdraws.nodup_lines

/-- Two names with one identifier, a name without letters, and a dependency on the part itself. -/
def collidingNames : Document where
  __ := Document.scaffold "T-1"
  components := [⟨"Mail Queue", [], [], ["Mail-Queue", "!"]⟩,
    ⟨"Mail/Queue", [], [], ["?", "Relay"]⟩, ⟨"\"!\"", [], [], []⟩]

theorem diagram_draws_collidingNames :
    ∃ nodes pairs, Diagram.Draws collidingNames.components nodes pairs ∧
      collidingNames.diagram.lines.Nodup ∧ collidingNames.diagram.lines =
        "graph TB".toList :: nodes.map Diagram.nodeLine ++ pairs.map Diagram.edgeLine :=
  collidingNames.diagram_draws (List.cons_ne_nil _ _) (by decide)

example : collidingNames.diagram = "graph TB
    Mail_Queue[\"Mail Queue\"]
    node[\"#quot;!#quot;\"]
    Mail_Queue --> Mail_Queue
    Mail_Queue --> node
    Mail_Queue --> Relay".toList := by decide +kernel

end DesignRecords
