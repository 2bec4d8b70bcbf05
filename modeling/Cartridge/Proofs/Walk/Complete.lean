import Cartridge.Proofs.Walk.Walkable

/-!
# Complete — a search finds a walk if there is one

At every moment of a search the nodes that it has seen wait in the frontier or have been expanded,
and the free neighbours of an expanded one have been seen (`Finder.Swept`).  So a search whose
frontier is spent has expanded every node that can be reached, and none of them lies at the goal
(`Swept.not_reached`).  Since every search comes to an end, a large enough budget decides whether
there is a walk, and a smaller one finds the same walk or none (`search_complete`).
-/

namespace Cartridge.Finder

variable {g : WalkGraph} {occupied : Cell → Bool} {goal : WalkGoal} {origin i j : Nat}
  {p q : Progress} {start finish : Cell} {cells : List Cell}

/-! ## Reachable cells -/

/-- One move leads from a cell to a free one. -/
def Moves (g : WalkGraph) (occupied : Cell → Bool) (a b : Cell) : Prop :=
  b ∈ g.neighbors a ∧ occupied b = false

/-- A way leads by moves to its last cell. -/
theorem Leads.reachable (h : Leads g occupied goal start cells finish) :
    Relation.ReflTransGen (Moves g occupied) start finish := by
  induction cells generalizing start with
  | nil =>
    obtain rfl : start = finish := Option.some.inj h.last
    exact .refl
  | cons c rest ih =>
    obtain ⟨hlink, hlinked⟩ := List.isChain_cons_cons.mp h.linked
    have hmove : Moves g occupied start c := ⟨hlink, (h.clear c List.mem_cons_self).2⟩
    have hrest : Leads g occupied goal c rest finish := by
      refine ⟨hlinked, ?_, fun d hd => h.clear d (List.mem_cons_of_mem _ hd), fun d hd => ?_⟩
      · rw [← List.getLast?_cons_cons]
        exact h.last
      · exact h.onward d (List.mem_cons_of_mem _ hd)
    exact .head hmove (ih hrest)

/-! ## What has been seen -/

/-- Seen nodes have a node in the graph. -/
theorem Sound.exists_node (h : Sound g occupied goal origin p)
    (hfirst : ∃ n, WalkGraph.node? g.nodes origin = some n) (hseen : worthAt p.labels j < ⊤) :
    ∃ n, WalkGraph.node? g.nodes j = some n := by
  obtain ⟨ids, hids⟩ := h.grounded.lineage j hseen
  cases hids with
  | origin => exact hfirst
  | step came =>
    obtain ⟨-, n, k, hstep⟩ := h.grounded.came _ _ came
    exact ⟨k, hstep.target⟩

/-- Every seen node waits or has been expanded, and what is next to an expanded one is seen. -/
structure Swept (g : WalkGraph) (occupied : Cell → Bool) (goal : WalkGoal) (origin : Nat)
    (p : Progress) : Prop where
  origin : worthAt p.labels origin < ⊤
  waits : ∀ j, worthAt p.labels j < ⊤ → (labelAt p.labels j).closed = false →
    ∃ c ∈ p.frontier.toList, c.node = j
  onward : ∀ i n, (labelAt p.labels i).closed = true → WalkGraph.node? g.nodes i = some n →
    reached g goal n.cell = false
  spread : ∀ i n j k, (labelAt p.labels i).closed = true → WalkGraph.node? g.nodes i = some n →
    j ∈ n.links.toList → WalkGraph.node? g.nodes j = some k → occupied k.cell = false →
    worthAt p.labels j < ⊤

namespace Swept

/-- Passing over a candidate leaves every open node that is seen in the frontier. -/
theorem stale {c : Candidate} {rest : Frontier} (h : Swept g occupied goal origin p)
    (hnodes : ∀ j, worthAt p.labels j < ⊤ → ∃ n, WalkGraph.node? g.nodes j = some n)
    (hsize : p.labels.size = g.nodes.size) (htop : p.frontier.pop? = some (c, rest))
    (hclosed : ∀ n l, WalkGraph.node? g.nodes c.node = some n → p.labels[c.node]? = some l →
      l.closed = true) :
    Swept g occupied goal origin { p with frontier := rest } := by
  refine ⟨h.origin, fun j hseen hopen => ?_, h.onward, h.spread⟩
  obtain ⟨d, hd, rfl⟩ := h.waits j hseen hopen
  rcases (Frontier.mem_of_pop htop).mp hd with rfl | hd
  · obtain ⟨n, hn⟩ := hnodes d.node hseen
    have hbound : d.node < p.labels.size := hsize ▸ WalkGraph.lt_size_of_node? hn
    have hlabel : p.labels[d.node]? = some p.labels[d.node] := Array.getElem?_eq_getElem hbound
    have hcontra := hclosed n _ hn hlabel
    rw [labelAt_of_getElem? hlabel, hcontra] at hopen
    cases hopen
  · exact ⟨d, hd, rfl⟩

/-- Expanding a node shows what is next to it. -/
theorem expand {c : Candidate} {rest : Frontier} {n : WalkNode} {l : Label}
    (h : Swept g occupied goal origin p) (hsize : p.labels.size = g.nodes.size)
    (htop : p.frontier.pop? = some (c, rest)) (hnode : WalkGraph.node? g.nodes c.node = some n)
    (hlabel : p.labels[c.node]? = some l) (honward : reached g goal n.cell = false) :
    Swept g occupied goal origin
      (expand g occupied goal c.node n l { p with frontier := rest }) := by
  -- Taking the candidate from the frontier changes no label.
  have hlabel : ({ p with frontier := rest } : Progress).labels[c.node]? = some l := hlabel
  have hworth (j : Nat) : worthAt (Finder.expand g occupied goal c.node n l
      { p with frontier := rest }).labels j ≤ worthAt p.labels j := worthAt_expand_mono hlabel j
  constructor
  case origin => exact (hworth origin).trans_lt h.origin
  case waits =>
    intro j hseen hopen
    rcases open_of_expand hlabel hopen with hwaits | ⟨hother, hsame⟩
    · exact hwaits
    · rw [worthAt, hsame] at hseen
      rw [hsame] at hopen
      obtain ⟨d, hd, rfl⟩ := h.waits j hseen hopen
      rcases (Frontier.mem_of_pop htop).mp hd with rfl | hd
      · exact absurd rfl hother
      · exact ⟨d, advances_expand.waiting d hd, rfl⟩
  case onward =>
    intro i n' hi hn'
    rcases closed_of_expand hlabel hi with rfl | hi
    · obtain rfl : n = n' := Option.some.inj (hnode.symm.trans hn')
      exact honward
    · exact h.onward i n' hi hn'
  case spread =>
    intro i n' j k hi hn' hj hk hfree
    rcases closed_of_expand hlabel hi with rfl | hi
    · obtain rfl : n = n' := Option.some.inj (hnode.symm.trans hn')
      have hle : worthAt (Finder.expand g occupied goal c.node n l
          { p with frontier := rest }).labels j ≤ ((l.weight?.getD .zero).add k.cost).value :=
        worthAt_expand_le hj hk hfree hsize
      exact hle.trans_lt (WithTop.coe_lt_top _)
    · exact (hworth j).trans_lt (h.spread i n' j k hi hn' hj hk hfree)

/-- **A turn keeps everything swept.** -/
theorem turn (h : Swept g occupied goal origin p) (hsound : Sound g occupied goal origin p)
    (hfirst : ∃ n, WalkGraph.node? g.nodes origin = some n) (hturn : Turn g occupied goal p q) :
    Swept g occupied goal origin q := by
  have hsize := hsound.grounded.size
  cases hturn with
  | stale htop hclosed =>
    exact h.stale (fun j hseen => hsound.exists_node hfirst hseen) hsize htop hclosed
  | expand htop hnode hlabel _ honward => exact h.expand hsize htop hnode hlabel honward

theorem turns (h : Swept g occupied goal origin p) (hsound : Sound g occupied goal origin p)
    (hfirst : ∃ n, WalkGraph.node? g.nodes origin = some n)
    (hturns : Relation.ReflTransGen (Turn g occupied goal) p q) :
    Swept g occupied goal origin q := by
  induction hturns with
  | refl => exact h
  | tail hbefore hturn ih => exact ih.turn (hsound.turns hbefore) hfirst hturn

end Swept

theorem swept_opening {first : WalkNode} (hfirst : WalkGraph.node? g.nodes origin = some first) :
    Swept g occupied goal origin (opening g origin) := by
  have hlabel (j : Nat) := labelAt_opening hfirst j
  have hopen (j : Nat) : (labelAt (opening g origin).labels j).closed = false := by
    rw [hlabel]
    split <;> rfl
  refine ⟨?_, fun j hseen _ => ?_, fun i n hi => ?_, fun i n j k hi => ?_⟩
  · rw [worthAt, hlabel, if_pos rfl]
    exact WithTop.coe_lt_top _
  · have hj : origin = j := by
      by_contra hne
      rw [worthAt, hlabel, if_neg hne] at hseen
      exact absurd hseen (lt_irrefl _)
    refine ⟨⟨.zero, 0, origin⟩, ?_, hj⟩
    exact Frontier.mem_push.mpr (Or.inl rfl)
  · rw [hopen] at hi
    cases hi
  · rw [hopen] at hi
    cases hi

/-! ## The end of a search -/

namespace Swept

/-- Once the frontier is spent, every reachable cell belongs to an expanded node. -/
theorem exists_closed (h : Swept g occupied goal origin p) (hg : g.Placed)
    (hspent : p.frontier.pop? = none) {first : WalkNode}
    (hfirst : WalkGraph.node? g.nodes origin = some first)
    (hreachable : Relation.ReflTransGen (Moves g occupied) first.cell finish) :
    ∃ i n, WalkGraph.node? g.nodes i = some n ∧ n.cell = finish ∧
      (labelAt p.labels i).closed = true := by
  have hclosed (j : Nat) (hseen : worthAt p.labels j < ⊤) :
      (labelAt p.labels j).closed = true := by
    by_contra hopen
    obtain ⟨c, hc, -⟩ := h.waits j hseen (by simpa using hopen)
    rw [Frontier.pop?_eq_none_iff.mp hspent] at hc
    exact List.not_mem_nil hc
  induction hreachable with
  | refl => exact ⟨origin, first, hfirst, rfl, hclosed origin h.origin⟩
  | @tail b c _ hmove ih =>
    obtain ⟨i, n, hn, rfl, hi⟩ := ih
    obtain ⟨j, k, hj, hk, rfl⟩ := (hg.mem_neighbors hn).mp hmove.1
    exact ⟨j, k, hk, rfl, hclosed j (h.spread i n j k hi hn hj hk hmove.2)⟩

/-- **A search that is spent** has seen no cell at the goal, since none can be reached. -/
theorem not_reached (h : Swept g occupied goal origin p) (hg : g.Placed)
    (hspent : p.frontier.pop? = none) {first : WalkNode}
    (hfirst : WalkGraph.node? g.nodes origin = some first)
    (hreachable : Relation.ReflTransGen (Moves g occupied) first.cell finish) :
    reached g goal finish = false := by
  obtain ⟨i, n, hn, rfl, hi⟩ := h.exists_closed hg hspent hfirst hreachable
  exact h.onward i n hi hn

end Swept

/-- Whether a goal can be reached: what a walk sets out from can be stood on, and moves lead from it
to a cell at the goal. -/
def Reachable (g : WalkGraph) (occupied : Cell → Bool) (start : Cell) (goal : WalkGoal) : Prop :=
  g.isStandable ((pushedFrom g occupied start).getD start) = true ∧
    ∃ finish, Relation.ReflTransGen (Moves g occupied)
      ((pushedFrom g occupied start).getD start) finish ∧ reached g goal finish = true

/-- A walk is found only if the goal can be reached. -/
theorem reachable_of_walk? (hg : g.Placed) {budget : Nat} {path : List Cell}
    (h : walk? g budget start goal occupied = some path) : Reachable g occupied start goal := by
  obtain ⟨walked, finish, -, hleads, -, hreached⟩ := walk?_leads hg h
  refine ⟨?_, finish, hleads.reachable, hreached⟩
  unfold walk? at h
  dsimp only at h
  rw [WalkGraph.isStandable]
  cases hindex : g.index? ((pushedFrom g occupied start).getD start) with
  | none =>
    rw [hindex] at h
    cases h
  | some i => rfl

/-- **What a search comes to** when its budget is large enough: a walk if the goal can be reached.
Smaller budgets give the same walk or none. -/
theorem walk?_settles (hg : g.Placed) (start : Cell) (goal : WalkGoal) (occupied : Cell → Bool) :
    ∃ enough path?, (∀ budget, enough ≤ budget → walk? g budget start goal occupied = path?) ∧
      (∀ budget path, walk? g budget start goal occupied = some path → path? = some path) ∧
      (Reachable g occupied start goal → path?.isSome) := by
  cases hindex : g.index? ((pushedFrom g occupied start).getD start) with
  | none =>
    have hnone (budget : Nat) : walk? g budget start goal occupied = none := by
      unfold walk?
      dsimp only
      rw [hindex]
    refine ⟨0, none, fun budget _ => hnone budget, fun budget path hpath => ?_, fun h => ?_⟩
    · rw [hnone] at hpath
      cases hpath
    · have hstandable := h.1
      rw [WalkGraph.isStandable, hindex] at hstandable
      cases hstandable
  | some i =>
    obtain ⟨first, hfirst, hcell⟩ := hg.exists_node hindex
    obtain ⟨q, found?, hturns, hends⟩ := exists_end g occupied goal (opening g i)
    obtain ⟨enough, henough⟩ := explore_of_turns_ends hturns hends
    have hwalk (budget : Nat) : walk? g budget start goal occupied =
        (explore g occupied goal budget (opening g i)).1.map fun j =>
          (pushedFrom g occupied start).toList ++ traceBack g
            (explore g occupied goal budget (opening g i)).2 []
            (explore g occupied goal budget (opening g i)).2.size j := by
      unfold walk?
      dsimp only
      rw [hindex]
    refine ⟨enough, _, fun budget hbudget => by rw [hwalk, henough budget hbudget],
      fun budget path hpath => ?_, fun h => ?_⟩
    · -- What is found under a small budget is the end of the turns, so a large one finds it too.
      rw [hwalk] at hpath
      obtain ⟨j, hj, hpath⟩ := Option.map_eq_some_iff.mp hpath
      obtain ⟨q', hturns', hends', hlabels⟩ := explore_found (Prod.ext hj rfl)
      obtain ⟨enough', henough'⟩ := explore_of_turns_ends hturns' hends'
      have hsame : (found?, q.labels) = (some j, q'.labels) :=
        (henough (max enough enough') (le_max_left _ _)).symm.trans
          (henough' (max enough enough') (le_max_right _ _))
      obtain ⟨rfl, hqlabels⟩ := Prod.mk.inj hsame
      rw [Option.map_some, hqlabels, ← hlabels, hpath]
    · obtain ⟨-, finish, hreachable, hreached⟩ := h
      cases hends with
      | found => rfl
      | spent hspent =>
        have hswept : Swept g occupied goal i q :=
          (swept_opening hfirst).turns (sound_opening hfirst) ⟨first, hfirst⟩ hturns
        rw [← hcell] at hreachable
        rw [hswept.not_reached hg hspent hfirst hreachable] at hreached
        cases hreached

/-- **A search is complete.**  Under every budget that is large enough it finds a walk exactly if
the goal can be reached, and under a smaller one it finds the same walk or none, whatever the finder
has searched before. -/
theorem search_complete (m : Map) (settings : WalkSettings) (start : Cell) (goal : WalkGoal)
    (occupied : Cell → Bool) :
    ∃ enough path?,
      (∀ budget f, Session m { settings with maxExpansions := budget } f → enough ≤ budget →
        (f.search start goal occupied).1 = path?) ∧
      (∀ budget f, Session m { settings with maxExpansions := budget } f →
        (f.search start goal occupied).1 = none ∨ (f.search start goal occupied).1 = path?) ∧
      (path?.isSome ↔ Reachable (.ofMap m settings) occupied start goal) := by
  have hg : (WalkGraph.ofMap m settings).Placed := WalkGraph.placed_ofMap m settings
  obtain ⟨enough, path?, hlarge, hsmall, hfinds⟩ := walk?_settles hg start goal occupied
  -- The budget is no part of the graph.
  have hsearch (budget : Nat) (f : Finder)
      (hf : Session m { settings with maxExpansions := budget } f) :
      (f.search start goal occupied).1 =
        walk? (.ofMap m settings) budget start goal occupied := hf.search_eq start goal occupied
  refine ⟨enough, path?, fun budget f hf hbudget => ?_, fun budget f hf => ?_, fun h => ?_, hfinds⟩
  · rw [hsearch budget f hf, hlarge budget hbudget]
  · rw [hsearch budget f hf]
    cases hpath : walk? (.ofMap m settings) budget start goal occupied with
    | none => exact Or.inl rfl
    | some path => exact Or.inr (hsmall budget path hpath).symm
  · obtain ⟨path, rfl⟩ := Option.isSome_iff_exists.mp h
    exact reachable_of_walk? hg (hlarge enough le_rfl)

end Cartridge.Finder
