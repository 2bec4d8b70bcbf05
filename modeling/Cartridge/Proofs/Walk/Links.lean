import Cartridge.Proofs.Walk.Graph

/-!
# Links — the moves of a map are the links of its graph

While the links are set, every one of them is a move (`WalkGraph.Truthful`), and once set it stays.
The pass looks to the right and downwards only, but when it comes to a cell it sets the links both
ways, so in the end the link of every node in every direction leads where the move does
(`WalkGraph.linkAt_ofMap`).  The neighbours of a cell are the cells that its four moves lead to
(`WalkGraph.neighbors_ofMap`).
-/

namespace Cartridge

/-! ## Directions -/

theorem Direction.mem_inOrder (d : Direction) : d ∈ Direction.inOrder := by
  cases d <;> decide

theorem Direction.opposite_ne (d : Direction) : d.opposite ≠ d := by
  cases d <;> decide

theorem Direction.opposite_opposite (d : Direction) : d.opposite.opposite = d := by
  cases d <;> rfl

theorem Cell.move_opposite (c : Cell) (d : Direction) : (c.move d).move d.opposite = c := by
  obtain ⟨x, y⟩ := c
  cases d <;> simp only [move, Direction.opposite, Direction.delta, Cell.mk.injEq] <;> omega

theorem Cell.move_of_opposite (c : Cell) (d : Direction) : (c.move d.opposite).move d = c := by
  have h := move_opposite c d.opposite
  rwa [Direction.opposite_opposite] at h

theorem Cell.move_move_ne (c : Cell) (d e : Direction) : (c.move d).move d ≠ c.move e := by
  obtain ⟨x, y⟩ := c
  cases d <;> cases e <;> simp only [move, Direction.delta, ne_eq, Cell.mk.injEq] <;> omega

theorem Cell.move_move_inj {c : Cell} {d e : Direction}
    (h : (c.move d).move d = (c.move e).move e) : d = e := by
  obtain ⟨x, y⟩ := c
  cases d <;> cases e <;> simp only [move, Direction.delta, Cell.mk.injEq] at h <;> first
    | rfl
    | omega

theorem Tile.ledge?_eq_some_iff {behavior : UInt16} {d : Direction} :
    ledge? behavior = some d ↔ behavior = ledge d := by
  constructor
  · intro h
    have hsame := List.find?_some (p := fun d => ledge d == behavior) h
    exact (beq_iff_eq.mp hsame).symm
  · rintro rfl
    cases d <;> decide

/-! ## Moves -/

namespace Map

variable (m : Map)

/-- Whether a cell can be stood on. -/
def isStandable (c : Cell) : Bool :=
  (m.tile? c).any Tile.isStandable

/-- Whether a cell is a ledge that is jumped over in a direction. -/
def isLedge (c : Cell) (d : Direction) : Bool :=
  (m.tile? c).any (·.behavior == Tile.ledge d)

/-- Where a move leads from a cell that can be stood on: to the next cell if that can be stood on
too, over a ledge that is jumped in the direction of the move to the cell behind it, and nowhere
otherwise. -/
def moveTo? (c : Cell) (d : Direction) : Option Cell :=
  if !m.isStandable c then none
  else if m.isStandable (c.move d) then some (c.move d)
  else if m.isLedge (c.move d) d && m.isStandable ((c.move d).move d) then
    some ((c.move d).move d)
  else none

variable {m} {a b c : Cell} {d e : Direction}

theorem isStandable_iff :
    m.isStandable c = true ↔ ∃ tile, m.tile? c = some tile ∧ tile.isStandable = true :=
  Option.any_eq_true _ _

theorem isLedge_iff :
    m.isLedge c d = true ↔ ∃ tile, m.tile? c = some tile ∧ Tile.ledge? tile.behavior = some d := by
  simp only [isLedge, Option.any_eq_true, beq_iff_eq, Tile.ledge?_eq_some_iff]

/-- The tile of a cell that can be stood on is no ledge. -/
theorem exists_plain_tile (h : m.isStandable c = true) :
    ∃ tile, m.tile? c = some tile ∧ Tile.ledge? tile.behavior = none := by
  obtain ⟨tile, htile, hstandable⟩ := isStandable_iff.mp h
  exact ⟨tile, htile, Option.isNone_iff_eq_none.mp (Bool.and_eq_true_iff.mp hstandable).2⟩

/-- Nobody can stand on a ledge. -/
theorem isStandable_of_isLedge (h : m.isLedge c d = true) : m.isStandable c = false := by
  rw [Bool.eq_false_iff]
  intro hstandable
  obtain ⟨tile, htile, hledge⟩ := isLedge_iff.mp h
  obtain ⟨tile', htile', hplain⟩ := exists_plain_tile hstandable
  rw [htile, Option.some.injEq] at htile'
  rw [← htile', hledge] at hplain
  cases hplain

/-- A ledge is jumped over in one direction only. -/
theorem isLedge_unique (h : m.isLedge c d = true) (h' : m.isLedge c e = true) : d = e := by
  obtain ⟨tile, htile, hd⟩ := isLedge_iff.mp h
  obtain ⟨tile', htile', he⟩ := isLedge_iff.mp h'
  rw [htile, Option.some.injEq] at htile'
  rw [← htile', hd, Option.some.injEq] at he
  exact he

/-- **A move** is a step, or a jump over a ledge, between two cells that can be stood on. -/
theorem moveTo?_eq_some_iff : m.moveTo? a d = some b ↔
    m.isStandable a = true ∧ m.isStandable b = true ∧
      (b = a.move d ∨ b = (a.move d).move d ∧ m.isLedge (a.move d) d = true) := by
  unfold moveTo?
  constructor
  · intro h
    split_ifs at h with ha hstep hjump
    · cases h
      exact ⟨by simpa using ha, hstep, Or.inl rfl⟩
    · cases h
      rw [Bool.and_eq_true] at hjump
      exact ⟨by simpa using ha, hjump.2, Or.inr ⟨rfl, hjump.1⟩⟩
  · rintro ⟨ha, hb, rfl | ⟨rfl, hledge⟩⟩
    · simp [ha, hb]
    · simp [ha, hb, hledge, isStandable_of_isLedge hledge]

/-- Steps lead back. -/
theorem moveTo?_back (h : m.moveTo? a d = some (a.move d)) :
    m.moveTo? (a.move d) d.opposite = some a := by
  obtain ⟨ha, hb, -⟩ := moveTo?_eq_some_iff.mp h
  exact moveTo?_eq_some_iff.mpr ⟨hb, ha, Or.inl (Cell.move_opposite a d).symm⟩

end Map

theorem Links.get?_set (l : Links) (d d' : Direction) (node : Nat) :
    (l.set d node).get? d' = if d = d' then some node else l.get? d' := by
  cases d <;> cases d' <;> rfl

namespace WalkGraph

variable {m : Map} {settings : WalkSettings} {nodes nodes' : Array (Option WalkNode)}
  {i j s t : Nat} {n : WalkNode} {d e : Direction} {a b c : Cell} {cells : List Cell}

/-! ## Links while they are set -/

/-- The node that a move from a node leads to. -/
def linkAt? (nodes : Array (Option WalkNode)) (i : Nat) (d : Direction) : Option Nat :=
  (node? nodes i).bind (·.links.get? d)

theorem node?_link : node? (link nodes s d t) i =
    if s = i then (node? nodes i).map fun n => { n with links := n.links.set d t }
    else node? nodes i := by
  simp only [node?, link, Array.getElem?_modify]
  split
  · cases nodes[i]? <;> rfl
  · rfl

theorem linkAt_link : linkAt? (link nodes s e t) i d =
    if s = i ∧ e = d then (node? nodes s).map fun _ => t else linkAt? nodes i d := by
  unfold linkAt?
  rw [node?_link]
  by_cases hs : s = i
  · subst hs
    cases node? nodes s <;> simp [Links.get?_set]
  · simp [hs]

variable (m settings nodes) in
/-- Links between the nodes of a map, each of which is a move. -/
structure Truthful : Prop where
  bare : bareNodes nodes = bareNodes (ofMap m settings).nodes
  move : ∀ i d j, linkAt? nodes i d = some j →
    ∃ a b, m.index? a = some i ∧ m.index? b = some j ∧ m.moveTo? a d = some b

variable (m nodes) in
/-- Some link is set for the move from a cell. -/
def Linked (a : Cell) (d : Direction) : Prop :=
  ∃ i, m.index? a = some i ∧ (linkAt? nodes i d).isSome

theorem Linked.link (h : Linked m nodes a d) (s : Nat) (e : Direction) (t : Nat) :
    Linked m (link nodes s e t) a d := by
  obtain ⟨i, hi, hsome⟩ := h
  refine ⟨i, hi, ?_⟩
  rw [linkAt_link]
  split
  · next hsame =>
    rw [linkAt?, ← hsame.1] at hsome
    cases hnode : node? nodes s with
    | none => rw [hnode] at hsome; cases hsome
    | some n => rfl
  · exact hsome

theorem index?_ofMap_iff : (ofMap m settings).index? c = some i ↔
    m.index? c = some i ∧ m.isStandable c = true := by
  constructor
  · intro h
    have hstandable : (ofMap m settings).isStandable c = true := by
      rw [isStandable, h]
      rfl
    exact ⟨(index?_eq_some_iff.mp h).1,
      Map.isStandable_iff.mpr (isStandable_ofMap.mp hstandable)⟩
  · rintro ⟨hindex, h⟩
    have hstandable : (ofMap m settings).isStandable c = true :=
      isStandable_ofMap.mpr (Map.isStandable_iff.mp h)
    obtain ⟨j, hj⟩ := Option.isSome_iff_exists.mp hstandable
    rw [hj, ← hindex]
    exact (index?_eq_some_iff.mp hj).1.symm

namespace Truthful

/-- Links change nothing about which cells have nodes. -/
theorem indexIn?_iff (h : Truthful m settings nodes) :
    indexIn? m nodes c = some i ↔ m.index? c = some i ∧ m.isStandable c = true := by
  have hsome (i : Nat) :
      (node? nodes i).isSome = (node? (ofMap m settings).nodes i).isSome := by
    rw [← Option.isSome_map (f := WalkNode.bare), ← node?_bareNodes, h.bare, node?_bareNodes,
      Option.isSome_map]
  refine Iff.trans ?_ (index?_ofMap_iff : (ofMap m settings).index? c = some i ↔ _)
  simp only [index?, indexIn?, hsome]
  rfl

/-- A cell that can be stood on has a place and a node. -/
theorem exists_node (h : Truthful m settings nodes) (ha : m.isStandable a = true) :
    ∃ i n, indexIn? m nodes a = some i ∧ m.index? a = some i ∧ node? nodes i = some n := by
  obtain ⟨tile, htile, -⟩ := Map.isStandable_iff.mp ha
  obtain ⟨i, hi, -⟩ := Option.bind_eq_some_iff.mp htile
  have hindex : indexIn? m nodes a = some i := h.indexIn?_iff.mpr ⟨hi, ha⟩
  obtain ⟨-, hnode⟩ := Option.filter_eq_some_iff.mp hindex
  obtain ⟨n, hn⟩ := Option.isSome_iff_exists.mp hnode
  exact ⟨i, n, hindex, hi, hn⟩

/-- One more link for a move. -/
theorem link (h : Truthful m settings nodes) (ha : m.index? a = some s)
    (hb : m.index? b = some t) (hmove : m.moveTo? a d = some b) :
    Truthful m settings (link nodes s d t) := by
  refine ⟨(bareNodes_link s d t).trans h.bare, fun i e j hj => ?_⟩
  rw [linkAt_link] at hj
  split at hj
  · next hsame =>
    obtain ⟨-, -, hto⟩ := Option.map_eq_some_iff.mp hj
    exact ⟨a, b, hsame.1 ▸ ha, hto ▸ hb, hsame.2 ▸ hmove⟩
  · exact h.move i e j hj

/-- Setting the link for a move sets it. -/
theorem linked_link (h : Truthful m settings nodes) (ha : m.index? a = some s)
    (hstandable : m.isStandable a = true) (d : Direction) (t : Nat) :
    Linked m (WalkGraph.link nodes s d t) a d := by
  obtain ⟨s', n, -, hs', hn⟩ := h.exists_node hstandable
  obtain rfl : s' = s := Option.some.inj (hs'.symm.trans ha)
  refine ⟨s', ha, ?_⟩
  rw [linkAt_link, if_pos ⟨rfl, rfl⟩, hn]
  rfl

/-- What holds of truthful links and is kept by one more is kept by looking in one direction. -/
theorem linkToward_induction {P : Array (Option WalkNode) → Prop}
    (h : Truthful m settings nodes) (hP : P nodes)
    (step : ∀ nodes s d t, Truthful m settings nodes → P nodes → P (WalkGraph.link nodes s d t))
    (e : Direction) (c : Cell) :
    Truthful m settings (linkToward m e nodes c) ∧ P (linkToward m e nodes c) := by
  unfold linkToward
  split
  · next here tile hhere htile =>
    obtain ⟨hc, hstand⟩ := h.indexIn?_iff.mp hhere
    split
    · split
      · next next hnext =>
        obtain ⟨hn, hthere⟩ := h.indexIn?_iff.mp hnext
        have hmove : m.moveTo? c e = some (c.move e) :=
          Map.moveTo?_eq_some_iff.mpr ⟨hstand, hthere, Or.inl rfl⟩
        have honto := h.link hc hn hmove
        exact ⟨honto.link hn hc (Map.moveTo?_back hmove), step _ _ _ _ honto (step _ _ _ _ h hP)⟩
      · exact ⟨h, hP⟩
    · next jump hjump =>
      have hledge : m.isLedge (c.move e) jump = true := Map.isLedge_iff.mpr ⟨tile, htile, hjump⟩
      split
      · next landing hlanding =>
        obtain ⟨hl, hland⟩ := h.indexIn?_iff.mp hlanding
        split_ifs with hahead hback
        · subst hahead
          exact ⟨h.link hc hl (Map.moveTo?_eq_some_iff.mpr ⟨hstand, hland, Or.inr ⟨rfl, hledge⟩⟩),
            step _ _ _ _ h hP⟩
        · subst hback
          refine ⟨h.link hl hc (Map.moveTo?_eq_some_iff.mpr ⟨hland, hstand, Or.inr ?_⟩),
            step _ _ _ _ h hP⟩
          rw [Cell.move_opposite, Cell.move_opposite]
          exact ⟨rfl, hledge⟩
        · exact ⟨h, hP⟩
      · exact ⟨h, hP⟩
  · exact ⟨h, hP⟩

theorem linkToward (h : Truthful m settings nodes) (e : Direction) (c : Cell) :
    Truthful m settings (linkToward m e nodes c) :=
  (h.linkToward_induction (P := fun _ => True) trivial (fun _ _ _ _ _ _ => trivial) e c).1

theorem linked_linkToward_of_linked (h : Truthful m settings nodes) (hl : Linked m nodes a d)
    (e : Direction) (c : Cell) : Linked m (WalkGraph.linkToward m e nodes c) a d :=
  (h.linkToward_induction (P := fun nodes => Linked m nodes a d) hl
    (fun _ s e t _ hl => hl.link s e t) e c).2

/-- Looking in the direction of a move from where it starts sets its link. -/
theorem linked_ahead (h : Truthful m settings nodes) (hmove : m.moveTo? c e = some b) :
    Linked m (WalkGraph.linkToward m e nodes c) c e := by
  obtain ⟨hc, hb, hstep⟩ := Map.moveTo?_eq_some_iff.mp hmove
  obtain ⟨s, n, hs, hindex, -⟩ := h.exists_node hc
  obtain ⟨t, k, ht, htindex, -⟩ := h.exists_node hb
  rcases hstep with rfl | ⟨rfl, hledge⟩
  · obtain ⟨tile, htile, hplain⟩ := Map.exists_plain_tile hb
    simp only [WalkGraph.linkToward, hs, htile, hplain, ht]
    exact (h.linked_link hindex hc e t).link _ _ _
  · obtain ⟨tile, htile, hjump⟩ := Map.isLedge_iff.mp hledge
    simp only [WalkGraph.linkToward, hs, htile, hjump, ht, if_true]
    exact h.linked_link hindex hc e t

/-- Looking against the direction of a move from where it ends sets its link. -/
theorem linked_behind (h : Truthful m settings nodes) (hmove : m.moveTo? b e.opposite = some c) :
    Linked m (WalkGraph.linkToward m e nodes c) b e.opposite := by
  obtain ⟨hb, hc, hstep⟩ := Map.moveTo?_eq_some_iff.mp hmove
  obtain ⟨s, n, hs, hindex, -⟩ := h.exists_node hc
  obtain ⟨t, k, ht, htindex, -⟩ := h.exists_node hb
  rcases hstep with rfl | ⟨rfl, hledge⟩
  · obtain ⟨tile, htile, hplain⟩ := Map.exists_plain_tile hb
    have hnext : (b.move e.opposite).move e = b := Cell.move_of_opposite b e
    simp only [WalkGraph.linkToward, hs, hnext, htile, hplain, ht]
    have honto := h.link hindex htindex (d := e)
      (Map.moveTo?_eq_some_iff.mpr ⟨hc, hb, Or.inl hnext.symm⟩)
    exact honto.linked_link htindex hb e.opposite s
  · obtain ⟨tile, htile, hjump⟩ := Map.isLedge_iff.mp hledge
    have hover : ((b.move e.opposite).move e.opposite).move e = b.move e.opposite :=
      Cell.move_of_opposite _ e
    have hland : (b.move e.opposite).move e = b := Cell.move_of_opposite b e
    simp only [WalkGraph.linkToward, hs, hover, htile, hjump, hland, ht, e.opposite_ne, if_false,
      if_true]
    exact h.linked_link htindex hb e.opposite s

end Truthful

/-! ## The pass over all cells -/

/-- Sets the links of a cell to the right and downwards, and those back. -/
def linkBoth (m : Map) (nodes : Array (Option WalkNode)) (c : Cell) : Array (Option WalkNode) :=
  linkToward m .down (linkToward m .right nodes c) c

namespace Truthful

theorem linkBoth (h : Truthful m settings nodes) (c : Cell) :
    Truthful m settings (linkBoth m nodes c) :=
  (h.linkToward .right c).linkToward .down c

theorem foldl (h : Truthful m settings nodes) (cells : List Cell) :
    Truthful m settings (cells.foldl (WalkGraph.linkBoth m) nodes) := by
  induction cells generalizing nodes with
  | nil => exact h
  | cons c rest ih => exact ih (h.linkBoth c)

/-- A link that is set stays to the end. -/
theorem linked_foldl (h : Truthful m settings nodes) (hl : Linked m nodes a d)
    (cells : List Cell) : Linked m (cells.foldl (WalkGraph.linkBoth m) nodes) a d := by
  induction cells generalizing nodes with
  | nil => exact hl
  | cons c rest ih =>
    exact ih (h.linkBoth c) ((h.linkToward .right c).linked_linkToward_of_linked
      (h.linked_linkToward_of_linked hl .right c) .down c)

/-- When the pass comes to a cell, the moves from it to the right and downwards are linked. -/
theorem linked_from (h : Truthful m settings nodes) (he : e = .right ∨ e = .down)
    (hmove : m.moveTo? c e = some b) : Linked m (WalkGraph.linkBoth m nodes c) c e := by
  rcases he with rfl | rfl
  · exact (h.linkToward .right c).linked_linkToward_of_linked (h.linked_ahead hmove) .down c
  · exact (h.linkToward .right c).linked_ahead hmove

/-- When the pass comes to a cell, the moves onto it to the left and upwards are linked. -/
theorem linked_onto (h : Truthful m settings nodes) (he : e = .right ∨ e = .down)
    (hmove : m.moveTo? b e.opposite = some c) :
    Linked m (WalkGraph.linkBoth m nodes c) b e.opposite := by
  rcases he with rfl | rfl
  · exact (h.linkToward .right c).linked_linkToward_of_linked (h.linked_behind hmove) .down c
  · exact (h.linkToward .right c).linked_behind hmove

end Truthful

theorem bareNodes_linkBoth (cells : List Cell) :
    bareNodes (cells.foldl (linkBoth m) nodes) = bareNodes nodes := by
  induction cells generalizing nodes with
  | nil => rfl
  | cons c rest ih => rw [List.foldl_cons, ih, linkBoth, bareNodes_linkToward, bareNodes_linkToward]

/-- Before the pass there are no links. -/
theorem truthful_bare (m : Map) (settings : WalkSettings) :
    Truthful m settings (m.cells.map (bareNode? m settings)).toArray := by
  refine ⟨(bareNodes_linkBoth m.cells).symm, fun i d j hj => ?_⟩
  obtain ⟨n, hn, hlink⟩ := Option.bind_eq_some_iff.mp hj
  rw [node?, List.getElem?_toArray, List.getElem?_map, Option.join_eq_some_iff,
    Option.map_eq_some_iff] at hn
  obtain ⟨c, -, hnode⟩ := hn
  obtain ⟨tile, -, hnode⟩ := Option.bind_eq_some_iff.mp hnode
  split at hnode
  · cases hnode
    cases d <;> cases hlink
  · cases hnode

theorem truthful_ofMap (m : Map) (settings : WalkSettings) :
    Truthful m settings (ofMap m settings).nodes :=
  (truthful_bare m settings).foldl m.cells

/-- What the pass does to a cell of the map is not undone. -/
theorem linked_of_linkBoth (hc : m.index? c = some i)
    (h : ∀ nodes, Truthful m settings nodes → Linked m (linkBoth m nodes c) a d) :
    Linked m (ofMap m settings).nodes a d := by
  obtain ⟨before, after, hcells⟩ :=
    List.append_of_mem (List.mem_of_getElem? (Map.index?_eq_some_iff.mp hc))
  have hbefore := (truthful_bare m settings).foldl before
  have hpass : (ofMap m settings).nodes = after.foldl (linkBoth m) (linkBoth m
      (before.foldl (linkBoth m) (m.cells.map (bareNode? m settings)).toArray) c) := by
    rw [← List.foldl_cons, ← List.foldl_append, ← hcells]
    rfl
  rw [hpass]
  exact (hbefore.linkBoth c).linked_foldl (h _ hbefore) after

/-- Every move is linked in the end. -/
theorem linked_ofMap (hmove : m.moveTo? a d = some b) : Linked m (ofMap m settings).nodes a d := by
  obtain ⟨ha, hb, -⟩ := Map.moveTo?_eq_some_iff.mp hmove
  obtain ⟨i, -, -, hi, -⟩ := (truthful_ofMap m settings).exists_node ha
  obtain ⟨j, -, -, hj, -⟩ := (truthful_ofMap m settings).exists_node hb
  -- Moves to the left and upwards are linked from where they end.
  have hback (he : d.opposite = .right ∨ d.opposite = .down) :
      Linked m (ofMap m settings).nodes a d := by
    rw [← d.opposite_opposite] at hmove ⊢
    exact linked_of_linkBoth hj fun nodes h => h.linked_onto he hmove
  cases d with
  | right => exact linked_of_linkBoth hi fun nodes h => h.linked_from (Or.inl rfl) hmove
  | down => exact linked_of_linkBoth hi fun nodes h => h.linked_from (Or.inr rfl) hmove
  | left => exact hback (Or.inl rfl)
  | up => exact hback (Or.inr rfl)

/-- **The link of a node leads where the move does.** -/
theorem linkAt_ofMap (hi : m.index? a = some i) (d : Direction) :
    linkAt? (ofMap m settings).nodes i d = (m.moveTo? a d).bind m.index? := by
  have htruthful := truthful_ofMap m settings
  cases hlink : linkAt? (ofMap m settings).nodes i d with
  | some j =>
    obtain ⟨a', b, ha', hb, hmove⟩ := htruthful.move i d j hlink
    obtain rfl : a' = a := Map.index?_inj ha' hi
    rw [hmove, Option.bind_some, hb]
  | none =>
    cases hmove : m.moveTo? a d with
    | none => rfl
    | some b =>
      obtain ⟨i', hi', hsome⟩ : Linked m (ofMap m settings).nodes a d := linked_ofMap hmove
      obtain rfl : i' = i := Option.some.inj (hi'.symm.trans hi)
      rw [hlink] at hsome
      cases hsome

/-! ## Neighbours -/

/-- **The neighbours of a cell** are the cells that its moves lead to, in the order in which moves
are tried. -/
theorem neighbors_ofMap (m : Map) (settings : WalkSettings) (a : Cell) :
    (ofMap m settings).neighbors a = Direction.inOrder.filterMap (m.moveTo? a) := by
  have hplaced := placed_ofMap m settings
  cases ha : m.isStandable a with
  | false =>
    have hindex : (ofMap m settings).index? a = none := by
      rw [Option.eq_none_iff_forall_ne_some]
      intro i hi
      rw [(index?_ofMap_iff.mp hi).2] at ha
      cases ha
    have hnone : m.moveTo? a = fun _ => none := by
      funext d
      simp [Map.moveTo?, ha]
    rw [neighbors, hindex, hnone]
    rfl
  | true =>
    obtain ⟨i, n, -, hi, hn⟩ := (truthful_ofMap m settings).exists_node ha
    have hindex : (ofMap m settings).index? a = some i := index?_ofMap_iff.mpr ⟨hi, ha⟩
    rw [neighbors, hindex, Option.bind_some, hn]
    simp only [Links.toList, List.filterMap_filterMap]
    refine List.filterMap_congr fun d _ => ?_
    have hlinkAt : linkAt? (ofMap m settings).nodes i d = (m.moveTo? a d).bind m.index? :=
      linkAt_ofMap hi d
    have hlink : n.links.get? d = (m.moveTo? a d).bind m.index? := by
      rw [← hlinkAt, linkAt?, hn, Option.bind_some]
    rw [hlink]
    cases hmove : m.moveTo? a d with
    | none => rfl
    | some b =>
      obtain ⟨-, hb, -⟩ := Map.moveTo?_eq_some_iff.mp hmove
      obtain ⟨j, k, -, hj, hk⟩ := (truthful_ofMap m settings).exists_node hb
      have hcell : k.cell = b := Map.index?_inj (hplaced j k hk) hj
      rw [Option.bind_some, hj, Option.bind_some, hk, Option.map_some, hcell]

theorem mem_neighbors_ofMap :
    b ∈ (ofMap m settings).neighbors a ↔ ∃ d, m.moveTo? a d = some b := by
  rw [neighbors_ofMap, List.mem_filterMap]
  exact exists_congr fun d => and_iff_right d.mem_inOrder

/-- Cells next to each other are neighbours both ways, or not at all. -/
theorem mem_neighbors_move_iff : a.move d ∈ (ofMap m settings).neighbors a ↔
    m.isStandable a = true ∧ m.isStandable (a.move d) = true := by
  rw [mem_neighbors_ofMap]
  constructor
  · rintro ⟨e, hmove⟩
    obtain ⟨ha, hb, -⟩ := Map.moveTo?_eq_some_iff.mp hmove
    exact ⟨ha, hb⟩
  · rintro ⟨ha, hb⟩
    exact ⟨d, Map.moveTo?_eq_some_iff.mpr ⟨ha, hb, Or.inl rfl⟩⟩

theorem isStandable_ofMap_eq (c : Cell) :
    (ofMap m settings).isStandable c = m.isStandable c := by
  rw [Bool.eq_iff_iff, isStandable_ofMap, Map.isStandable_iff]

/-- **Two cells next to each other are neighbours** if both can be stood on. -/
theorem mem_neighbors_move (ha : (ofMap m settings).isStandable a = true)
    (hb : (ofMap m settings).isStandable (a.move d) = true) :
    a.move d ∈ (ofMap m settings).neighbors a := by
  rw [isStandable_ofMap_eq] at ha hb
  exact mem_neighbors_move_iff.mpr ⟨ha, hb⟩

/-- Neighbours can be stood on. -/
theorem isStandable_of_mem_neighbors (h : c ∈ (ofMap m settings).neighbors a) :
    (ofMap m settings).isStandable c = true := by
  obtain ⟨d, hmove⟩ := mem_neighbors_ofMap.mp h
  rw [isStandable_ofMap_eq]
  exact (Map.moveTo?_eq_some_iff.mp hmove).2.1

/-- Two cells are only covered over a ledge that is jumped in that direction. -/
theorem isLedge_of_mem_neighbors (h : (a.move d).move d ∈ (ofMap m settings).neighbors a) :
    m.isLedge (a.move d) d = true := by
  obtain ⟨e, hmove⟩ := mem_neighbors_ofMap.mp h
  obtain ⟨-, -, hstep | ⟨hjump, hledge⟩⟩ := Map.moveTo?_eq_some_iff.mp hmove
  · exact absurd hstep (Cell.move_move_ne a d e)
  · obtain rfl := Cell.move_move_inj hjump
    exact hledge

/-- The link of a cell's node in a direction; a cell outside the map has none. -/
def linkOf? (g : WalkGraph) (c : Cell) (d : Direction) : Option Nat :=
  (g.map.index? c).bind fun i => linkAt? g.nodes i d

/-- **The graph of a map holds its moves and no others.**  The link of every cell in every direction
leads where the move does; so cells next to each other are neighbours both ways or not at all, and
nobody jumps back over a ledge. -/
theorem links_ofMap (m : Map) (settings : WalkSettings) (a : Cell) (d : Direction) :
    (ofMap m settings).linkOf? a d = (m.moveTo? a d).bind m.index? ∧
    (ofMap m settings).neighbors a = Direction.inOrder.filterMap (m.moveTo? a) ∧
    (a.move d ∈ (ofMap m settings).neighbors a ↔ a ∈ (ofMap m settings).neighbors (a.move d)) ∧
    ((a.move d).move d ∈ (ofMap m settings).neighbors a →
      a ∉ (ofMap m settings).neighbors ((a.move d).move d)) := by
  refine ⟨?_, neighbors_ofMap m settings a, ?_, fun hjump hback => ?_⟩
  · unfold linkOf?
    change (m.index? a).bind _ = _
    cases ha : m.index? a with
    | some i => exact linkAt_ofMap ha d
    | none =>
      have hmove : m.moveTo? a d = none := by
        simp [Map.moveTo?, Map.isStandable, Map.tile?, ha]
      rw [hmove]
      rfl
  · have hreturn : (a.move d).move d.opposite ∈ (ofMap m settings).neighbors (a.move d) ↔ _ :=
      mem_neighbors_move_iff
    rw [Cell.move_opposite] at hreturn
    rw [mem_neighbors_move_iff, hreturn, and_comm]
  · have hmiddle : ((a.move d).move d).move d.opposite = a.move d := Cell.move_opposite _ d
    have hahead := isLedge_of_mem_neighbors hjump
    have hbehind := isLedge_of_mem_neighbors (d := d.opposite)
      (by rwa [hmiddle, Cell.move_opposite] : _ ∈ (ofMap m settings).neighbors _)
    rw [hmiddle] at hbehind
    exact d.opposite_ne (Map.isLedge_unique hbehind hahead)

/-- Ground, a ledge to jump to the right, ground, a ledge to jump to the left, ground. -/
def terrace : Map where
  id := ⟨0, 0⟩
  width := 5
  height := 1
  tiles := #[.ground, .withBehavior (Tile.ledge .right), .ground,
    .withBehavior (Tile.ledge .left), .ground]

theorem links_ofMap_terrace :
    ⟨2, 0⟩ ∈ (ofMap terrace {}).neighbors ⟨0, 0⟩ ∧ ⟨0, 0⟩ ∉ (ofMap terrace {}).neighbors ⟨2, 0⟩ ∧
    ⟨2, 0⟩ ∈ (ofMap terrace {}).neighbors ⟨4, 0⟩ ∧ (ofMap terrace {}).neighbors ⟨2, 0⟩ = [] := by
  obtain ⟨-, hleft, -, hjump⟩ := links_ofMap terrace {} ⟨0, 0⟩ .right
  obtain ⟨-, hright, -, -⟩ := links_ofMap terrace {} ⟨4, 0⟩ .left
  obtain ⟨-, hmiddle, -, -⟩ := links_ofMap terrace {} ⟨2, 0⟩ .left
  have hover : (⟨2, 0⟩ : Cell) ∈ (ofMap terrace {}).neighbors ⟨0, 0⟩ := by
    rw [hleft]
    decide
  exact ⟨hover, hjump hover, by rw [hright]; decide, by rw [hmiddle]; decide⟩

end WalkGraph

end Cartridge
