import Cartridge.Proofs.World.Grid
import Cartridge.Walk.Graph
import Mathlib.Data.List.Basic

/-!
# Graph — the nodes of a map

Setting links changes nothing else about the nodes.  So the graph of a map has a node for every cell
that can be stood on, and no other (`WalkGraph.isStandable_ofMap`), and every node stands at the
place of its cell (`WalkGraph.placed_ofMap`).
-/

namespace Cartridge

/-- The node before any links are set. -/
def WalkNode.bare (n : WalkNode) : WalkNode :=
  { n with links := {} }

namespace WalkGraph

/-! ## Links -/

variable {m : Map} {settings : WalkSettings} {nodes : Array (Option WalkNode)}

/-- The nodes before any links are set. -/
def bareNodes (nodes : Array (Option WalkNode)) : Array (Option WalkNode) :=
  nodes.map (·.map WalkNode.bare)

theorem bareNodes_link (source : Nat) (d : Direction) (target : Nat) :
    bareNodes (link nodes source d target) = bareNodes nodes := by
  refine Array.ext_getElem? fun i => ?_
  simp only [bareNodes, link, Array.getElem?_map, Array.getElem?_modify]
  split
  · cases nodes[i]? with
    | none => rfl
    | some n? => cases n? <;> rfl
  · rfl

theorem bareNodes_linkToward (d : Direction) (c : Cell) :
    bareNodes (linkToward m d nodes c) = bareNodes nodes := by
  unfold linkToward
  split
  · split <;> split
    · rw [bareNodes_link, bareNodes_link]
    · rfl
    · split_ifs
      · exact bareNodes_link _ _ _
      · exact bareNodes_link _ _ _
      · rfl
    · rfl
  · rfl

theorem bareNodes_ofMap : bareNodes (ofMap m settings).nodes =
    (m.cells.map (bareNode? m settings)).toArray := by
  have hlinks (cells : List Cell) (nodes : Array (Option WalkNode)) :
      bareNodes (cells.foldl
        (fun nodes c => linkToward m .down (linkToward m .right nodes c) c) nodes) =
      bareNodes nodes := by
    induction cells generalizing nodes with
    | nil => rfl
    | cons c rest ih => rw [List.foldl_cons, ih, bareNodes_linkToward, bareNodes_linkToward]
  rw [ofMap, hlinks]
  refine Array.ext_getElem? fun i => ?_
  simp only [bareNodes, Array.getElem?_map, List.getElem?_toArray, List.getElem?_map,
    Option.map_map]
  cases m.cells[i]? with
  | none => rfl
  | some c =>
    have hbare : (bareNode? m settings c).map WalkNode.bare = bareNode? m settings c := by
      unfold bareNode?
      cases m.tile? c with
      | none => rfl
      | some tile => by_cases h : tile.isStandable = true <;> simp [h, WalkNode.bare]
    exact congrArg some hbare

/-! ## Nodes -/

theorem node?_eq_some_iff {i : Nat} {n : WalkNode} :
    node? nodes i = some n ↔ nodes[i]? = some (some n) := by
  unfold node?
  cases nodes[i]? with
  | none => simp
  | some n? => simp

theorem lt_size_of_node? {i : Nat} {n : WalkNode} (h : node? nodes i = some n) :
    i < nodes.size :=
  (Array.getElem?_eq_some_iff.mp (node?_eq_some_iff.mp h)).1

theorem node?_bareNodes (i : Nat) :
    node? (bareNodes nodes) i = (node? nodes i).map WalkNode.bare := by
  unfold node? bareNodes
  rw [Array.getElem?_map]
  cases nodes[i]? <;> rfl

/-- The bare node at a place of the graph. -/
theorem bare_node?_ofMap (m : Map) (settings : WalkSettings) (i : Nat) :
    (node? (ofMap m settings).nodes i).map WalkNode.bare =
      (m.cells[i]?).bind (bareNode? m settings) := by
  rw [← node?_bareNodes, bareNodes_ofMap, node?, List.getElem?_toArray, List.getElem?_map]
  cases m.cells[i]? <;> rfl

theorem bareNode?_isSome (settings : WalkSettings) {c : Cell} :
    (bareNode? m settings c).isSome ↔ ∃ tile, m.tile? c = some tile ∧ tile.isStandable = true := by
  unfold bareNode?
  cases m.tile? c with
  | none => simp
  | some tile => by_cases h : tile.isStandable = true <;> simp [h]

theorem cell_of_bareNode? {c : Cell} {n : WalkNode} (h : bareNode? m settings c = some n) :
    n.cell = c := by
  unfold bareNode? at h
  obtain ⟨tile, -, h⟩ := Option.bind_eq_some_iff.mp h
  split at h
  · cases h
    rfl
  · cases h

/-- Every node stands at the place of its cell. -/
def Placed (g : WalkGraph) : Prop :=
  ∀ i n, node? g.nodes i = some n → g.map.index? n.cell = some i

theorem placed_ofMap (m : Map) (settings : WalkSettings) : (ofMap m settings).Placed := by
  intro i n hn
  have hbare := bare_node?_ofMap m settings i
  rw [hn, Option.map_some] at hbare
  obtain ⟨c, hc, hnode⟩ := Option.bind_eq_some_iff.mp hbare.symm
  obtain rfl : n.bare.cell = c := cell_of_bareNode? hnode
  exact Map.index?_eq_some_iff.mpr hc

variable {g : WalkGraph} {c d : Cell} {i : Nat} {n : WalkNode}

theorem index?_eq_some_iff :
    g.index? c = some i ↔ g.map.index? c = some i ∧ ∃ n, node? g.nodes i = some n := by
  unfold index? indexIn?
  rw [Option.filter_eq_some_iff, Option.isSome_iff_exists]

namespace Placed

theorem index?_cell (hg : g.Placed) (hn : node? g.nodes i = some n) : g.index? n.cell = some i :=
  index?_eq_some_iff.mpr ⟨hg i n hn, n, hn⟩

/-- The node at the place of a cell is the cell's own. -/
theorem exists_node (hg : g.Placed) (hc : g.index? c = some i) :
    ∃ n, node? g.nodes i = some n ∧ n.cell = c := by
  obtain ⟨hindex, n, hn⟩ := index?_eq_some_iff.mp hc
  exact ⟨n, hn, Map.index?_inj (hg i n hn) hindex⟩

/-- The neighbours of a node's cell are the cells of the nodes that its links lead to. -/
theorem mem_neighbors (hg : g.Placed) (hn : node? g.nodes i = some n) :
    d ∈ g.neighbors n.cell ↔
      ∃ j k, j ∈ n.links.toList ∧ node? g.nodes j = some k ∧ k.cell = d := by
  unfold neighbors
  rw [hg.index?_cell hn, Option.bind_some, hn]
  simp only [List.mem_filterMap, Option.map_eq_some_iff]
  constructor
  · rintro ⟨j, hj, k, hk, hd⟩
    exact ⟨j, k, hj, hk, hd⟩
  · rintro ⟨j, k, hj, hk, hd⟩
    exact ⟨j, hj, k, hk, hd⟩

end Placed

/-- **A cell has a node** exactly if its tile can be stood on. -/
theorem isStandable_ofMap :
    (ofMap m settings).isStandable c = true ↔
      ∃ tile, m.tile? c = some tile ∧ tile.isStandable = true := by
  rw [← bareNode?_isSome settings, isStandable, Option.isSome_iff_exists]
  have hnode (i : Nat) (hi : m.cells[i]? = some c) :
      (∃ n, node? (ofMap m settings).nodes i = some n) ↔ (bareNode? m settings c).isSome := by
    have hbare := bare_node?_ofMap m settings i
    rw [hi, Option.bind_some] at hbare
    rw [← hbare, Option.isSome_map, Option.isSome_iff_exists]
  constructor
  · rintro ⟨i, hi⟩
    obtain ⟨hindex, hn⟩ := index?_eq_some_iff.mp hi
    exact (hnode i (Map.index?_eq_some_iff.mp hindex)).mp hn
  · intro h
    obtain ⟨tile, htile, -⟩ := (bareNode?_isSome settings).mp h
    obtain ⟨i, hindex, -⟩ := Option.bind_eq_some_iff.mp htile
    exact ⟨i, index?_eq_some_iff.mpr
      ⟨hindex, (hnode i (Map.index?_eq_some_iff.mp hindex)).mpr h⟩⟩

end WalkGraph

end Cartridge
