import Cartridge.Proofs.Walk.History
import Cartridge.Proofs.Walk.Lineage

/-!
# Walkable — every walk that a search finds can be walked

The way back from a node that a search has seen is a walk to it (`Finder.leads_of_lineage`): from
neighbour to neighbour over free cells, and none before the last lies at the goal, since a node at
the goal is not expanded.  A walk is such a way, behind the step off a warp if there is one
(`Finder.search_walkable`).
-/

namespace Cartridge.Finder

variable {g : WalkGraph} {occupied : Cell → Bool} {goal : WalkGoal} {origin i j : Nat}
  {p q : Progress} {ids : List Nat} {start finish next : Cell} {cells : List Cell}
  {m : Map} {settings : WalkSettings} {f : Finder}

/-! ## Ways over cells -/

/-- The cells lead from one cell to another, over free cells and to the goal at the last one only,
if at all. -/
structure Leads (g : WalkGraph) (occupied : Cell → Bool) (goal : WalkGoal) (start : Cell)
    (cells : List Cell) (finish : Cell) : Prop where
  linked : (start :: cells).IsChain fun a b => b ∈ g.neighbors a
  last : (start :: cells).getLast? = some finish
  clear : ∀ c ∈ cells, g.isStandable c = true ∧ occupied c = false
  onward : ∀ c ∈ (start :: cells).dropLast, reached g goal c = false

namespace Leads

theorem refl (start : Cell) : Leads g occupied goal start [] start :=
  ⟨List.isChain_singleton _, rfl, fun _ hc => absurd hc List.not_mem_nil,
    fun _ hc => absurd hc List.not_mem_nil⟩

/-- A way goes on to a free neighbour of its last cell. -/
theorem snoc (h : Leads g occupied goal start cells finish) (hnext : next ∈ g.neighbors finish)
    (hclear : g.isStandable next = true ∧ occupied next = false)
    (honward : reached g goal finish = false) :
    Leads g occupied goal start (cells ++ [next]) next := by
  have hsplit : (start :: cells).dropLast ++ [finish] = start :: cells :=
    List.dropLast_append_getLast? finish h.last
  constructor
  case linked =>
    rw [← List.cons_append, List.isChain_append]
    refine ⟨h.linked, List.isChain_singleton _, fun a ha b hb => ?_⟩
    rw [h.last] at ha
    cases ha
    cases hb
    exact hnext
  case last => rw [← List.cons_append, List.getLast?_concat]
  case clear =>
    intro c hc
    rcases List.mem_append.mp hc with hc | hc
    · exact h.clear c hc
    · exact List.mem_singleton.mp hc ▸ hclear
  case onward =>
    intro c hc
    rw [← List.cons_append, List.dropLast_concat, ← hsplit] at hc
    rcases List.mem_append.mp hc with hc | hc
    · exact h.onward c hc
    · exact List.mem_singleton.mp hc ▸ honward

end Leads

/-- **The way back from a node is a way to its cell.** -/
theorem leads_of_lineage (hg : g.Placed) {labels : Array Label}
    (h : Grounded g occupied goal origin labels) {first : WalkNode}
    (hfirst : WalkGraph.node? g.nodes origin = some first) (hids : Lineage labels origin j ids) :
    ∃ n, WalkGraph.node? g.nodes j = some n ∧
      Leads g occupied goal first.cell (cellsOf g ids).reverse n.cell := by
  induction hids with
  | origin => exact ⟨first, hfirst, .refl _⟩
  | @step i j ids came _ ih =>
    obtain ⟨n, hn, hleads⟩ := ih
    obtain ⟨-, n', k, hstep⟩ := h.came i j came
    obtain rfl : n = n' := Option.some.inj (hn.symm.trans hstep.source)
    refine ⟨k, hstep.target, ?_⟩
    have hcells : (cellsOf g (j :: ids)).reverse = (cellsOf g ids).reverse ++ [k.cell] := by
      simp [cellsOf, hstep.target]
    rw [hcells]
    refine hleads.snoc ((hg.mem_neighbors hn).mpr ⟨j, k, hstep.linked, hstep.target, rfl⟩)
      ⟨?_, hstep.free⟩ hstep.onward
    rw [WalkGraph.isStandable, hg.index?_cell hstep.target]
    rfl

/-- Different nodes have different cells. -/
theorem nodup_cellsOf (hg : g.Placed) (hids : ids.Nodup) : (cellsOf g ids).Nodup := by
  refine hids.filterMap fun i i' c hc hc' => ?_
  obtain ⟨n, hn, rfl⟩ := Option.map_eq_some_iff.mp hc
  obtain ⟨n', hn', hcell⟩ := Option.map_eq_some_iff.mp hc'
  have hplace := hg i n hn
  rw [← hcell, hg i' n' hn'] at hplace
  exact (Option.some.inj hplace).symm

/-! ## Turns keep the ways -/

/-- The labels of a search are grounded, and only seen nodes wait. -/
structure Sound (g : WalkGraph) (occupied : Cell → Bool) (goal : WalkGoal) (origin : Nat)
    (p : Progress) : Prop where
  grounded : Grounded g occupied goal origin p.labels
  seen : ∀ c ∈ p.frontier.toList, worthAt p.labels c.node < ⊤

/-- The node that is given out has been seen. -/
theorem Sound.seen_top (h : Sound g occupied goal origin p) {c : Candidate} {rest : Frontier}
    (htop : p.frontier.pop? = some (c, rest)) : worthAt p.labels c.node < ⊤ :=
  h.seen c ((Frontier.mem_of_pop htop).mpr (Or.inl rfl))

theorem Sound.takeUp {weight : Cost} {n k : WalkNode} {next : Nat}
    (h : Sound g occupied goal origin p)
    (hweight : (labelAt p.labels i).weight? = some weight)
    (hnode : WalkGraph.node? g.nodes i = some n) (honward : reached g goal n.cell = false)
    (himproves : Improves g occupied n weight next k p) :
    Sound g occupied goal origin (takeUp goal i next k (weight.add k.cost) p) ∧
      (labelAt (Finder.takeUp goal i next k (weight.add k.cost) p).labels i).weight? =
        some weight := by
  obtain ⟨hgrounded, hkeeps⟩ := h.grounded.takeUp hweight hnode honward himproves
  refine ⟨⟨hgrounded, fun c hc => ?_⟩, hkeeps⟩
  rcases Frontier.mem_push.mp hc with rfl | hc
  · have hsize : next < p.labels.size :=
      h.grounded.size ▸ WalkGraph.lt_size_of_node? himproves.node
    rw [Finder.takeUp, worthAt, labelAt_set_self hsize]
    exact WithTop.coe_lt_top _
  · exact ((Advances.takeUp himproves.cheaper).worthAt_le c.node).trans_lt (h.seen c hc)

theorem Sound.turn (h : Sound g occupied goal origin p) (hturn : Turn g occupied goal p q) :
    Sound g occupied goal origin q := by
  cases hturn with
  | stale htop =>
    refine ⟨h.grounded, fun c hc => h.seen c ?_⟩
    exact (Frontier.mem_of_pop htop).mpr (Or.inr hc)
  | @expand c rest n l htop hnode hlabel hwaits honward =>
    obtain ⟨weight, hweight⟩ := exists_weight_of_worthAt (h.seen_top htop)
    have hl : l.weight? = some weight := by rwa [labelAt_of_getElem? hlabel] at hweight
    have hclose : Sound g occupied goal origin (close c.node { p with frontier := rest } l) := by
      refine ⟨h.grounded.close (p := { p with frontier := rest }) hlabel, fun d hd => ?_⟩
      rw [worthAt_close (p := { p with frontier := rest }) hlabel]
      exact h.seen d ((Frontier.mem_of_pop htop).mpr (Or.inr hd))
    -- The ways of the nodes that are taken up go on from the weight of the expanded one.
    refine (expand_induction (P := fun p => Sound g occupied goal origin p ∧
      (labelAt p.labels c.node).weight? = some weight) ⟨hclose, ?_⟩
      fun p next k hp himproves => ?_).1
    · rw [weight_close (p := { p with frontier := rest }) hlabel, hweight]
    · rw [hl] at himproves ⊢
      exact hp.1.takeUp hp.2 hnode honward himproves

theorem Sound.turns (h : Sound g occupied goal origin p)
    (hturns : Relation.ReflTransGen (Turn g occupied goal) p q) :
    Sound g occupied goal origin q := by
  induction hturns with
  | refl => exact h
  | tail _ hturn ih => exact ih.turn hturn

/-- A node that is found lies at the goal and has a way back. -/
theorem Sound.of_ends (h : Sound g occupied goal origin p) (hends : Ends g goal p (some j)) :
    ∃ ids n, Lineage p.labels origin j ids ∧ WalkGraph.node? g.nodes j = some n ∧
      reached g goal n.cell = true := by
  cases hends with
  | found htop hnode hlabel hwaits hreached =>
    obtain ⟨ids, hids⟩ := h.grounded.lineage _ (h.seen_top htop)
    exact ⟨ids, _, hids, hnode, hreached⟩

/-- Tracing back from a node gives the cells of its whole way. -/
theorem Sound.traceBack (h : Sound g occupied goal origin p)
    (hids : Lineage p.labels origin j ids) :
    traceBack g p.labels [] p.labels.size j = (cellsOf g ids).reverse := by
  have hnodes : ∀ i ∈ ids, ∃ n, WalkGraph.node? g.nodes i = some n := by
    intro i hi
    obtain ⟨before, hcame⟩ := hids.cameFrom hi
    obtain ⟨-, _, k, hstep⟩ := h.grounded.came before i hcame
    exact ⟨k, hstep.target⟩
  have htrace := traceBack_eq hids h.grounded.first hnodes [] (hids.length_le h.grounded.first)
  rwa [List.append_nil] at htrace

/-- At first only the origin is seen. -/
theorem labelAt_opening {first : WalkNode} (hfirst : WalkGraph.node? g.nodes origin = some first)
    (j : Nat) :
    labelAt (opening g origin).labels j =
      if origin = j then { weight? := some .zero } else {} := by
  have hsize : origin < (blankLabels g).size := by
    rw [blankLabels, Array.size_replicate]
    exact WalkGraph.lt_size_of_node? hfirst
  by_cases hj : origin = j
  · subst hj
    rw [if_pos rfl]
    exact labelAt_set_self hsize
  · rw [if_neg hj, opening, labelAt_set_of_ne hj, labelAt, blankLabels, Array.getElem?_replicate]
    split <;> rfl

/-- At first only the origin waits. -/
theorem eq_of_mem_opening {c : Candidate} (hc : c ∈ (opening g origin).frontier.toList) :
    c = ⟨.zero, 0, origin⟩ := by
  rcases Frontier.mem_push.mp hc with rfl | hc
  · rfl
  · rw [Frontier.toList_empty] at hc
    exact absurd hc List.not_mem_nil

theorem sound_opening {first : WalkNode} (hfirst : WalkGraph.node? g.nodes origin = some first) :
    Sound g occupied goal origin (opening g origin) := by
  have hlabel (j : Nat) := labelAt_opening hfirst j
  have hself : labelAt (opening g origin).labels origin = { weight? := some .zero } := by
    rw [hlabel, if_pos rfl]
  refine ⟨⟨?_, by rw [hself], by rw [hself], fun j cost hj => ?_, fun i j hj => ?_,
    fun j hj => ?_⟩, fun c hc => ?_⟩
  · rw [opening, Array.size_setIfInBounds, blankLabels, Array.size_replicate]
  · rw [hlabel] at hj
    split at hj
    · cases hj
      exact Cost.isRounded_zero
    · cases hj
  · rw [hlabel] at hj
    split at hj <;> cases hj
  · rw [worthAt, hlabel] at hj
    split at hj
    · next horigin => exact ⟨[], horigin ▸ .origin⟩
    · exact absurd hj (lt_irrefl _)
  · obtain rfl := eq_of_mem_opening hc
    rw [worthAt, hself]
    exact WithTop.coe_lt_top _

/-! ## Walks -/

/-- Where a walk sets out, and what it has walked to get there: it stays, or steps off a warp that
pushes. -/
inductive SetsOut (m : Map) (start : Cell) : List Cell → Cell → Prop where
  | here : SetsOut m start [] start
  | pushed {tile : Tile} {d : Direction} (under : m.tile? start = some tile)
    (push : Tile.push? tile.behavior = some d) : SetsOut m start [start.move d] (start.move d)

theorem setsOut_pushedFrom (g : WalkGraph) (occupied : Cell → Bool) (start : Cell) :
    SetsOut g.map start (pushedFrom g occupied start).toList
        ((pushedFrom g occupied start).getD start) ∧
      ∀ c ∈ (pushedFrom g occupied start).toList, g.isStandable c = true ∧ occupied c = false := by
  cases h : pushedFrom g occupied start with
  | none => exact ⟨.here, fun c hc => absurd hc List.not_mem_nil⟩
  | some stepped =>
    obtain ⟨tile, htile, h⟩ := Option.bind_eq_some_iff.mp h
    obtain ⟨d, hd, h⟩ := Option.bind_eq_some_iff.mp h
    dsimp only at h
    split at h
    · next hclear =>
      cases h
      refine ⟨.pushed htile hd, fun c hc => ?_⟩
      obtain rfl := List.mem_singleton.mp hc
      simpa using hclear
    · cases h

/-- A walk sets out and goes on by the way back from the node that the turns of its search have
found. -/
theorem walk?_lineage (hg : g.Placed) {budget : Nat} {path : List Cell}
    (h : walk? g budget start goal occupied = some path) :
    ∃ i first q j ids, g.index? ((pushedFrom g occupied start).getD start) = some i ∧
      WalkGraph.node? g.nodes i = some first ∧
      first.cell = (pushedFrom g occupied start).getD start ∧
      Relation.ReflTransGen (Turn g occupied goal) (opening g i) q ∧ Ends g goal q (some j) ∧
      Lineage q.labels i j ids ∧
      path = (pushedFrom g occupied start).toList ++ (cellsOf g ids).reverse := by
  unfold walk? at h
  dsimp only at h
  generalize pushedFrom g occupied start = pushed? at h ⊢
  cases hindex : g.index? (pushed?.getD start) with
  | none =>
    rw [hindex] at h
    cases h
  | some i =>
    rw [hindex] at h
    dsimp only at h
    obtain ⟨first, hfirst, hcell⟩ := hg.exists_node hindex
    cases hexplore : explore g occupied goal budget (opening g i) with
    | mk found? labels =>
      rw [hexplore] at h
      obtain ⟨j, rfl, rfl⟩ := Option.map_eq_some_iff.mp h
      obtain ⟨q, hturns, hends, rfl⟩ := explore_found hexplore
      have hsound : Sound g occupied goal i q := (sound_opening hfirst).turns hturns
      obtain ⟨ids, -, hids, -, -⟩ := hsound.of_ends hends
      refine ⟨i, first, q, j, ids, rfl, hfirst, hcell, hturns, hends, hids, ?_⟩
      rw [hsound.traceBack hids]

/-- A walk sets out and goes on by a way that comes to no cell twice, up to the goal. -/
theorem walk?_leads (hg : g.Placed) {budget : Nat} {path : List Cell}
    (h : walk? g budget start goal occupied = some path) :
    ∃ walked finish, path = (pushedFrom g occupied start).toList ++ walked ∧
      Leads g occupied goal ((pushedFrom g occupied start).getD start) walked finish ∧
      ((pushedFrom g occupied start).getD start :: walked).Nodup ∧
      reached g goal finish = true := by
  obtain ⟨i, first, q, j, ids, -, hfirst, hcell, hturns, hends, hids, hpath⟩ := walk?_lineage hg h
  have hsound : Sound g occupied goal i q := (sound_opening hfirst).turns hturns
  obtain ⟨ids', n, hids', hn, hreached⟩ := hsound.of_ends hends
  obtain rfl : ids = ids' := hids.unique hids' hsound.grounded.first
  obtain ⟨n', hn', hleads⟩ := leads_of_lineage hg hsound.grounded hfirst hids
  obtain rfl : n = n' := Option.some.inj (hn.symm.trans hn')
  have hnodup : (first.cell :: (cellsOf g ids).reverse).Nodup := by
    have hcells := nodup_cellsOf hg (hids.nodup hsound.grounded.first)
    simpa [cellsOf, hfirst] using hcells
  exact ⟨(cellsOf g ids).reverse, n.cell, hpath, hcell ▸ hleads, hcell ▸ hnodup, hreached⟩

/-- The node that is first given out is the origin. -/
theorem exists_opening_top {first : WalkNode} (hfirst : WalkGraph.node? g.nodes origin = some first) :
    (∃ rest, (opening g origin).frontier.pop? = some (⟨.zero, 0, origin⟩, rest)) ∧
      (opening g origin).labels[origin]? = some { weight? := some .zero } := by
  constructor
  · cases htop : (opening g origin).frontier.pop? with
    | none =>
      have hwaits : (⟨.zero, 0, origin⟩ : Candidate) ∈ (opening g origin).frontier.toList :=
        Frontier.mem_push.mpr (Or.inl rfl)
      rw [Frontier.pop?_eq_none_iff.mp htop] at hwaits
      exact absurd hwaits List.not_mem_nil
    | some top =>
      obtain ⟨c, rest⟩ := top
      obtain rfl := eq_of_mem_opening ((Frontier.mem_of_pop htop).mpr (Or.inl rfl))
      exact ⟨rest, rfl⟩
  · have hsize : origin < (blankLabels g).size := by
      rw [blankLabels, Array.size_replicate]
      exact WalkGraph.lt_size_of_node? hfirst
    exact Array.getElem?_setIfInBounds_self_of_lt hsize

/-- Whoever stands at the goal and is not pushed off need not walk, whatever the budget. -/
theorem walk?_of_reached (hg : g.Placed) (hstays : pushedFrom g occupied start = none)
    (hstandable : g.isStandable start = true) (h : reached g goal start = true) (budget : Nat) :
    walk? g budget start goal occupied = some [] := by
  obtain ⟨i, hindex⟩ := Option.isSome_iff_exists.mp hstandable
  obtain ⟨first, hfirst, rfl⟩ := hg.exists_node hindex
  obtain ⟨⟨rest, htop⟩, hlabel⟩ := exists_opening_top hfirst
  have hends : Ends g goal (opening g i) (some i) := .found htop hfirst hlabel rfl h
  have hback : traceBack g (opening g i).labels [] (opening g i).labels.size i = [] := by
    cases (opening g i).labels.size with
    | zero => rfl
    | succ fuel => simp [traceBack, hlabel]
  unfold walk?
  dsimp only
  rw [hstays, Option.getD_none, hindex]
  dsimp only
  rw [explore_of_ends hends, Option.map_some, hback]
  rfl

/-- A search that may expand nothing finds a walk only if it sets out at the goal. -/
theorem reached_of_walk?_zero (hg : g.Placed) {path : List Cell}
    (h : walk? g 0 start goal occupied = some path) :
    reached g goal ((pushedFrom g occupied start).getD start) = true := by
  unfold walk? at h
  dsimp only at h
  generalize pushedFrom g occupied start = pushed? at h ⊢
  cases hindex : g.index? (pushed?.getD start) with
  | none =>
    rw [hindex] at h
    cases h
  | some i =>
    rw [hindex] at h
    obtain ⟨first, hfirst, hcell⟩ := hg.exists_node hindex
    obtain ⟨⟨rest, htop⟩, hlabel⟩ := exists_opening_top hfirst
    by_contra hfar
    have hnone : (explore g occupied goal 0 (opening g i)).1 = none := by
      rw [explore_of_pop htop]
      simp [hfirst, hlabel, hcell, hfar]
    obtain ⟨j, hj, -⟩ := Option.map_eq_some_iff.mp h
    rw [hnone] at hj
    cases hj

/-- **Every walk that a search finds can be walked.**  It sets out and goes on from neighbour to
neighbour, over cells that can be stood on and are free, coming to none twice, and only its last
cell lies at the goal. -/
theorem search_walkable (h : Session m settings f) (start : Cell) (goal : WalkGoal)
    (occupied : Cell → Bool) {path : List Cell}
    (hr : (f.search start goal occupied).1 = some path) :
    ∃ pushed origin walked, path = pushed ++ walked ∧ SetsOut m start pushed origin ∧
      (∀ c ∈ path, (∃ tile, m.tile? c = some tile ∧ tile.isStandable = true) ∧
        occupied c = false) ∧
      (origin :: walked).IsChain (fun a b => b ∈ (WalkGraph.ofMap m settings).neighbors a) ∧
      (origin :: walked).Nodup ∧
      (∃ finish, (origin :: walked).getLast? = some finish ∧
        reached (.ofMap m settings) goal finish = true) ∧
      ∀ c ∈ (origin :: walked).dropLast, reached (.ofMap m settings) goal c = false := by
  rw [h.search_eq] at hr
  obtain ⟨walked, finish, rfl, hleads, hnodup, hreached⟩ :=
    walk?_leads (WalkGraph.placed_ofMap m settings) hr
  obtain ⟨hset, hpushed⟩ := setsOut_pushedFrom (.ofMap m settings) occupied start
  refine ⟨_, _, walked, rfl, hset, fun c hc => ?_, hleads.linked, hnodup,
    ⟨finish, hleads.last, hreached⟩, hleads.onward⟩
  have hclear : (WalkGraph.ofMap m settings).isStandable c = true ∧ occupied c = false :=
    (List.mem_append.mp hc).elim (hpushed c) (hleads.clear c)
  exact ⟨WalkGraph.isStandable_ofMap.mp hclear.1, hclear.2⟩

/-- A house whose door opens onto a yard; a ledge leads from its left to its right side. -/
def yard : Map :=
  .ofRows ⟨0, 0⟩ ["d#.", ".>."]

/-- Onto the upper right corner of the yard. -/
def toCorner : WalkGoal where
  distance := Cell.steps ⟨2, 0⟩
  target := 0

/-- A finder of the yard that has looked for a way back over the ledge. -/
def afterLook : Finder :=
  ((ofMap yard {}).search ⟨2, 1⟩ ⟨Cell.steps ⟨0, 1⟩, 0⟩ fun _ => false).2

theorem search_walkable_yard :
    Session yard {} afterLook ∧
    (afterLook.search ⟨0, 0⟩ toCorner fun _ => false).1 =
      some [⟨0, 1⟩, ⟨2, 1⟩, ⟨2, 0⟩] ∧
    ∃ pushed origin walked, [⟨0, 1⟩, ⟨2, 1⟩, ⟨2, 0⟩] = pushed ++ walked ∧
      SetsOut yard ⟨0, 0⟩ pushed origin ∧
      (origin :: walked).IsChain (fun a b => b ∈ (WalkGraph.ofMap yard {}).neighbors a) := by
  have hsession : Session yard {} afterLook := .search .fresh _ _ _
  have hpath : (afterLook.search ⟨0, 0⟩ toCorner fun _ => false).1 =
      some [⟨0, 1⟩, ⟨2, 1⟩, ⟨2, 0⟩] := by
    rw [hsession.search_eq]
    have hwalk : walkIn? (.ofMap yard {}) 10 ⟨0, 0⟩ toCorner (fun _ => false) =
      some (some [⟨0, 1⟩, ⟨2, 1⟩, ⟨2, 0⟩]) := by decide +kernel
    exact walk?_of_walkIn? hwalk (by decide)
  obtain ⟨pushed, origin, walked, hsplit, hset, -, hlinked, -⟩ :=
    search_walkable hsession ⟨0, 0⟩ toCorner (fun _ => false) hpath
  exact ⟨hsession, hpath, pushed, origin, walked, hsplit, hset, hlinked⟩

end Cartridge.Finder
