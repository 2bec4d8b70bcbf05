import Cartridge.Proofs.Walk.Span
import Cartridge.Proofs.Walk.Walkable
import Cartridge.Proofs.Walk.Whole

/-!
# Price — what a search knows when its sums are exact

When entering a cell costs a whole number (`Prices`) and every sum that the search forms is below
`2 ^ 24` (`Exact`), the labels hold whole costs.  Then a node's label is worth at least the way back
from it, and the frontier asks no more for an open node than its label and the missing distance
come to (`Priced`); and no free neighbour of a closed node is worth more than the way through that
node (`Spread`).  Turns keep both (`Priced.turn`, `Spread.turn`).
-/

namespace Cartridge.Finder

variable {g : WalkGraph} {occupied : Cell → Bool} {goal : WalkGoal} {price : Cell → Nat}
  {origin i j next a b : Nat} {p q : Progress} {labels : Array Label} {n k : WalkNode} {l : Label}
  {weight : Cost}

/-! ## Prices and exact sums -/

/-- Entering the cell of a node has a whole price, and nothing is free. -/
structure Prices (g : WalkGraph) (price : Cell → Nat) : Prop where
  cost : ∀ i k, WalkGraph.node? g.nodes i = some k → k.cost = .whole (price k.cell)
  positive : ∀ c, 1 ≤ price c

/-- The next turn looks at a node on a way of some cost through the node that it expands. -/
inductive Looks (g : WalkGraph) (occupied : Cell → Bool) (goal : WalkGoal) (p : Progress) :
    Cost → Nat → WalkNode → Prop where
  | through {c : Candidate} {rest : Frontier} {n : WalkNode} {l : Label} {next : Nat} {k : WalkNode}
    (top : p.frontier.pop? = some (c, rest)) (node : WalkGraph.node? g.nodes c.node = some n)
    (label : p.labels[c.node]? = some l) (waits : l.closed = false)
    (onward : reached g goal n.cell = false) (linked : next ∈ n.links.toList)
    (target : WalkGraph.node? g.nodes next = some k) (free : occupied k.cell = false) :
    Looks g occupied goal p (l.weight?.getD .zero) next k

/-- The sums that the next turn forms are below `2 ^ 24`: what the way to each node costs that it
looks at and, if it takes the node up, what the missing distance adds to that. -/
def SumsBelow (g : WalkGraph) (occupied : Cell → Bool) (goal : WalkGoal) (p : Progress) : Prop :=
  ∀ weight next k, Looks g occupied goal p weight next k →
    weight.Below k.cost ∧
      (((weight.add k.cost).value : WithTop (WithTop Nat)) < worthAt p.labels next →
        (weight.add k.cost).Below (.ofNat (missing goal k.cell)))

/-- All sums of a search from a node are below `2 ^ 24`. -/
def Exact (g : WalkGraph) (occupied : Cell → Bool) (goal : WalkGoal) (origin : Nat) : Prop :=
  ∀ p, Relation.ReflTransGen (Turn g occupied goal) (opening g origin) p →
    SumsBelow g occupied goal p

/-! ## Whole labels -/

/-- The best way to a node costs a whole number. -/
def Weighs (labels : Array Label) (j a : Nat) : Prop :=
  (labelAt labels j).weight? = some (.whole a)

theorem Weighs.worthAt (h : Weighs labels j a) : worthAt labels j = (Cost.whole a).value :=
  worthAt_of_weight h

theorem Weighs.unique (h : Weighs labels j a) (h' : Weighs labels j b) : a = b :=
  Cost.whole_inj.mp (Option.some.inj (h.symm.trans h'))

/-- The labels hold whole costs. -/
def WholeLabels (labels : Array Label) : Prop :=
  ∀ j cost, (labelAt labels j).weight? = some cost → ∃ a, cost = .whole a

theorem WholeLabels.exists_weighs (h : WholeLabels labels) (hseen : worthAt labels j < ⊤) :
    ∃ a, Weighs labels j a := by
  obtain ⟨cost, hcost⟩ := exists_weight_of_worthAt hseen
  obtain ⟨a, rfl⟩ := h j cost hcost
  exact ⟨a, hcost⟩

/-- What is not worth more than a whole cost has a whole cost that is no greater. -/
theorem WholeLabels.exists_le (h : WholeLabels labels)
    (hle : worthAt labels j ≤ (Cost.whole b).value) : ∃ a ≤ b, Weighs labels j a := by
  obtain ⟨a, ha⟩ := h.exists_weighs (hle.trans_lt (WithTop.coe_lt_top _))
  rw [ha.worthAt, WithTop.coe_le_coe, Cost.value_whole_le_iff] at hle
  exact ⟨a, hle, ha⟩

/-! ## The node that is expanded -/

/-- The next turn takes a candidate out and expands its node. -/
structure Expands (g : WalkGraph) (goal : WalkGoal) (p : Progress) (c : Candidate)
    (rest : Frontier) (n : WalkNode) (l : Label) : Prop where
  top : p.frontier.pop? = some (c, rest)
  node : WalkGraph.node? g.nodes c.node = some n
  label : p.labels[c.node]? = some l
  waits : l.closed = false
  onward : reached g goal n.cell = false

namespace Expands

variable {c : Candidate} {rest : Frontier}

/-- Taking the candidate from the frontier changes no label. -/
theorem label_rest (h : Expands g goal p c rest n l) :
    ({ p with frontier := rest } : Progress).labels[c.node]? = some l :=
  h.label

theorem getD_weight (h : Expands g goal p c rest n l) (ha : Weighs p.labels c.node a) :
    l.weight?.getD .zero = .whole a := by
  rw [Weighs, labelAt_of_getElem? h.label] at ha
  rw [ha, Option.getD_some]

/-- The sums at a free neighbour are formed with the weight of the node. -/
theorem sums (h : Expands g goal p c rest n l) (hbelow : SumsBelow g occupied goal p)
    (ha : Weighs p.labels c.node a) (hlinked : next ∈ n.links.toList)
    (hk : WalkGraph.node? g.nodes next = some k) (hfree : occupied k.cell = false) :
    (Cost.whole a).Below k.cost ∧
      ((((Cost.whole a).add k.cost).value : WithTop (WithTop Nat)) < worthAt p.labels next →
        ((Cost.whole a).add k.cost).Below (.ofNat (missing goal k.cell))) := by
  have hlooks : Looks g occupied goal p (l.weight?.getD .zero) next k :=
    .through h.top h.node h.label h.waits h.onward hlinked hk hfree
  rw [h.getD_weight ha] at hlooks
  exact hbelow _ next k hlooks

end Expands

/-! ## What labels and frontier come to -/

/-- Labels and frontier of a search agree with the prices. -/
structure Priced (g : WalkGraph) (goal : WalkGoal) (price : Cell → Nat) (p : Progress) : Prop where
  whole : WholeLabels p.labels
  came : ∀ i j, (labelAt p.labels j).cameFrom? = some i → ∃ a b k, Weighs p.labels i a ∧
    Weighs p.labels j b ∧ WalkGraph.node? g.nodes j = some k ∧ a + price k.cell ≤ b
  ordered : p.frontier.Ordered
  paid : ∀ c ∈ p.frontier.toList, worthAt p.labels c.node ≤ c.estimate.value
  waits : ∀ j b k, Weighs p.labels j b → (labelAt p.labels j).closed = false →
    WalkGraph.node? g.nodes j = some k → ∃ c ∈ p.frontier.toList, c.node = j ∧
      c.estimate.value ≤ (Cost.whole (b + missing goal k.cell)).value

/-- Taking up a node with exact sums. -/
theorem takeUp_eq (hk : k.cost = .whole (price k.cell)) (hsum : (Cost.whole a).Below k.cost)
    (hestimate : ((Cost.whole a).add k.cost).Below (.ofNat (missing goal k.cell))) :
    takeUp goal i next k ((Cost.whole a).add k.cost) p =
      { labels := p.labels.setIfInBounds next
          { weight? := some (.whole (a + price k.cell)), cameFrom? := some i }
        frontier := p.frontier.push
          ⟨.whole (a + price k.cell + missing goal k.cell), p.arrivals + 1, next⟩
        arrivals := p.arrivals + 1 } := by
  rw [hk] at hsum hestimate ⊢
  rw [Cost.add_whole hsum] at hestimate ⊢
  have hmissing : Cost.ofNat (missing goal k.cell) = .whole (missing goal k.cell) :=
    Cost.ofNat_eq_whole (Cost.lt_of_below_ofNat hestimate)
  rw [hmissing] at hestimate
  have hadd : (Cost.whole (a + price k.cell)).add (Cost.ofNat (missing goal k.cell)) =
      .whole (a + price k.cell + missing goal k.cell) := by
    rw [hmissing, Cost.add_whole hestimate]
  rw [← hadd]
  rfl

namespace Priced

/-- **Taking up a node keeps labels and frontier priced.** -/
theorem takeUp (h : Priced g goal price p) (hg : Prices g price) (hi : Weighs p.labels i a)
    (hsize : p.labels.size = g.nodes.size)
    (himproves : Improves g occupied n (.whole a) next k p) (hsum : (Cost.whole a).Below k.cost)
    (hestimate : ((Cost.whole a).add k.cost).Below (.ofNat (missing goal k.cell))) :
    Priced g goal price (takeUp goal i next k ((Cost.whole a).add k.cost) p) ∧
      Weighs (takeUp goal i next k ((Cost.whole a).add k.cost) p).labels i a := by
  have hk : k.cost = .whole (price k.cell) := hg.cost next k himproves.node
  have hpos : 1 ≤ price k.cell := hg.positive k.cell
  have hbound : next < p.labels.size := hsize ▸ WalkGraph.lt_size_of_node? himproves.node
  have hadvances : Advances p (Finder.takeUp goal i next k ((Cost.whole a).add k.cost) p) :=
    Advances.takeUp himproves.cheaper
  have hcheaper : ((Cost.whole (a + price k.cell)).value : WithTop (WithTop Nat)) <
      worthAt p.labels next := by
    have hsum' := hsum
    rw [hk] at hsum'
    rw [← Cost.add_whole hsum', ← hk]
    exact himproves.cheaper
  rw [takeUp_eq hk hsum hestimate] at hadvances ⊢
  have hself : Weighs (p.labels.setIfInBounds next
      { weight? := some (.whole (a + price k.cell)), cameFrom? := some i }) next
      (a + price k.cell) := by
    rw [Weighs, labelAt_set_self hbound]
  have hother (j : Nat) (hj : next ≠ j) : labelAt (p.labels.setIfInBounds next
      { weight? := some (.whole (a + price k.cell)), cameFrom? := some i }) j =
      labelAt p.labels j := labelAt_set_of_ne hj
  -- No label grows, and the node's own only if it was worth more before.
  have hshrinks (j b : Nat) (hb : Weighs p.labels j b) : ∃ b' ≤ b, Weighs (p.labels.setIfInBounds
      next { weight? := some (.whole (a + price k.cell)), cameFrom? := some i }) j b' := by
    by_cases hj : next = j
    · subst hj
      rw [hb.worthAt, WithTop.coe_lt_coe, Cost.value_whole_lt_iff] at hcheaper
      exact ⟨_, hcheaper.le, hself⟩
    · exact ⟨b, le_rfl, by rwa [Weighs, hother j hj]⟩
  have hne : next ≠ i := by
    rintro rfl
    rw [hi.worthAt, WithTop.coe_lt_coe, Cost.value_whole_lt_iff] at hcheaper
    omega
  refine ⟨⟨?whole, ?came, h.ordered.push _, ?paid, ?waits⟩, by rwa [Weighs, hother i hne]⟩
  case whole =>
    intro j cost hcost
    by_cases hj : next = j
    · subst hj
      exact ⟨_, Option.some.inj (hcost.symm.trans hself)⟩
    · exact h.whole j cost (by rwa [hother j hj] at hcost)
  case came =>
    intro i' j hcame
    by_cases hj : next = j
    · subst hj
      rw [labelAt_set_self hbound] at hcame
      cases hcame
      exact ⟨a, _, k, by rwa [Weighs, hother i hne], hself, himproves.node, le_rfl⟩
    · rw [hother j hj] at hcame
      obtain ⟨a', b, k', ha', hb, hk', hle⟩ := h.came i' j hcame
      obtain ⟨a'', ha'', hweighs⟩ := hshrinks i' a' ha'
      exact ⟨a'', b, k', hweighs, by rwa [Weighs, hother j hj], hk', by omega⟩
  case paid =>
    intro c hc
    rcases Frontier.mem_push.mp hc with rfl | hc
    · rw [hself.worthAt, WithTop.coe_le_coe, Cost.value_whole_le_iff]
      exact Nat.le_add_right _ _
    · exact (hadvances.worthAt_le c.node).trans (h.paid c hc)
  case waits =>
    intro j b k' hb hopen hk'
    by_cases hj : next = j
    · subst hj
      obtain rfl := hself.unique hb
      obtain rfl : k = k' := Option.some.inj (himproves.node.symm.trans hk')
      exact ⟨_, Frontier.mem_push.mpr (Or.inl rfl), rfl, le_rfl⟩
    · rw [hother j hj] at hopen
      obtain ⟨c, hc, hnode, hle⟩ := h.waits j b k' (by rwa [Weighs, hother j hj] at hb) hopen hk'
      exact ⟨c, Frontier.mem_push.mpr (Or.inr hc), hnode, hle⟩

variable {c : Candidate} {rest : Frontier}

/-- Taking out a candidate keeps what the others pay. -/
theorem paid_rest (h : Priced g goal price p) (htop : p.frontier.pop? = some (c, rest)) :
    ∀ d ∈ rest.toList, worthAt p.labels d.node ≤ d.estimate.value := by
  intro d hd
  exact h.paid d ((Frontier.mem_of_pop htop).mpr (Or.inr hd))

/-- A node that waits for another candidate than the one taken out still waits. -/
theorem waits_rest (h : Priced g goal price p) (htop : p.frontier.pop? = some (c, rest))
    (hb : Weighs p.labels j b) (hopen : (labelAt p.labels j).closed = false)
    (hk : WalkGraph.node? g.nodes j = some k) (hother : c.node ≠ j) :
    ∃ d ∈ rest.toList, d.node = j ∧
      d.estimate.value ≤ (Cost.whole (b + missing goal k.cell)).value := by
  obtain ⟨d, hd, hnode, hle⟩ := h.waits j b k hb hopen hk
  rcases (Frontier.mem_of_pop htop).mp hd with rfl | hd
  · exact absurd hnode hother
  · exact ⟨d, hd, hnode, hle⟩

/-- Passing over a candidate. -/
theorem stale (h : Priced g goal price p) (hsize : p.labels.size = g.nodes.size)
    (htop : p.frontier.pop? = some (c, rest))
    (hclosed : ∀ n l, WalkGraph.node? g.nodes c.node = some n → p.labels[c.node]? = some l →
      l.closed = true) :
    Priced g goal price { p with frontier := rest } := by
  refine ⟨h.whole, h.came, (h.ordered.pop htop).1, h.paid_rest htop, ?_⟩
  intro j b k hb hopen hk
  refine h.waits_rest htop hb hopen hk ?_
  rintro rfl
  have hbound : c.node < p.labels.size := hsize ▸ WalkGraph.lt_size_of_node? hk
  have hlabel : p.labels[c.node]? = some p.labels[c.node] := Array.getElem?_eq_getElem hbound
  rw [labelAt_of_getElem? hlabel, hclosed k _ hk hlabel] at hopen
  cases hopen

/-- Closing the node of the candidate that is taken out. -/
theorem close (h : Priced g goal price p) (htop : p.frontier.pop? = some (c, rest))
    (hlabel : p.labels[c.node]? = some l) :
    Priced g goal price (close c.node { p with frontier := rest } l) := by
  have hlabel' : ({ p with frontier := rest } : Progress).labels[c.node]? = some l := hlabel
  have hweighs (j b : Nat) :
      Weighs (Finder.close c.node { p with frontier := rest } l).labels j b ↔
        Weighs p.labels j b := by
    rw [Weighs, Weighs, weight_close hlabel']
  refine ⟨?whole, ?came, (h.ordered.pop htop).1, ?paid, ?waits⟩
  case whole =>
    intro j cost hcost
    rw [weight_close hlabel'] at hcost
    exact h.whole j cost hcost
  case came =>
    intro i j hcame
    rw [cameFrom_close hlabel'] at hcame
    obtain ⟨a, b, k, ha, hb, hk, hle⟩ := h.came i j hcame
    exact ⟨a, b, k, (hweighs i a).mpr ha, (hweighs j b).mpr hb, hk, hle⟩
  case paid =>
    intro d hd
    rw [worthAt_close hlabel']
    exact h.paid_rest htop d hd
  case waits =>
    intro j b k hb hopen hk
    rw [labelAt_close hlabel'] at hopen
    split at hopen
    · cases hopen
    · next hother => exact h.waits_rest htop ((hweighs j b).mp hb) hopen hk hother

end Priced

/-! ## Expanding a node -/

/-- What a search that is priced keeps while it looks at what is next to a node: the node's weight,
the number of labels and, for each label, what it was worth at most. -/
structure Expanding (g : WalkGraph) (goal : WalkGoal) (price : Cell → Nat) (p : Progress)
    (i a : Nat) (q : Progress) : Prop where
  priced : Priced g goal price q
  weighs : Weighs q.labels i a
  size : q.labels.size = g.nodes.size
  less : ∀ j, worthAt q.labels j ≤ worthAt p.labels j

variable {c : Candidate} {rest : Frontier}

theorem Expanding.close (h : Priced g goal price p) (hsize : p.labels.size = g.nodes.size)
    (hexpands : Expands g goal p c rest n l) (ha : Weighs p.labels c.node a) :
    Expanding g goal price p c.node a (close c.node { p with frontier := rest } l) where
  priced := h.close hexpands.top hexpands.label
  weighs := (weight_close hexpands.label_rest c.node).trans ha
  size := Array.size_setIfInBounds.trans hsize
  less j := (worthAt_close hexpands.label_rest j).le

/-- Taking up a node forms the sums that the turn began with, since no label has grown. -/
theorem Expanding.takeUp (h : Expanding g goal price p c.node a q) (hg : Prices g price)
    (hbelow : SumsBelow g occupied goal p) (hexpands : Expands g goal p c rest n l)
    (ha : Weighs p.labels c.node a) (himproves : Improves g occupied n (.whole a) next k q) :
    (Cost.whole a).Below k.cost ∧ Expanding g goal price p c.node a
      (takeUp goal c.node next k ((Cost.whole a).add k.cost) q) := by
  obtain ⟨hsum, hestimate⟩ :=
    hexpands.sums hbelow ha himproves.linked himproves.node himproves.free
  obtain ⟨hpriced, hkept⟩ := h.priced.takeUp hg h.weighs h.size himproves hsum
    (hestimate (himproves.cheaper.trans_le (h.less next)))
  have hadvances : Advances q (Finder.takeUp goal c.node next k ((Cost.whole a).add k.cost) q) :=
    .takeUp himproves.cheaper
  exact ⟨hsum, hpriced, hkept, hadvances.size.trans h.size,
    fun j => (hadvances.worthAt_le j).trans (h.less j)⟩

namespace Priced

/-- **The rule for expansions with exact sums**: labels and frontier stay priced, the expanded node
keeps its weight, and so does whatever taking up a node for a whole cost keeps. -/
theorem expand_induction {P : Progress → Prop} (h : Priced g goal price p) (hg : Prices g price)
    (hsize : p.labels.size = g.nodes.size) (hbelow : SumsBelow g occupied goal p)
    (hexpands : Expands g goal p c rest n l) (ha : Weighs p.labels c.node a)
    (hclose : P (Finder.close c.node { p with frontier := rest } l))
    (htake : ∀ q next k, P q → Expanding g goal price p c.node a q →
      Improves g occupied n (.whole a) next k q → (Cost.whole a).Below k.cost →
      P (Finder.takeUp goal c.node next k ((Cost.whole a).add k.cost) q)) :
    Expanding g goal price p c.node a
        (expand g occupied goal c.node n l { p with frontier := rest }) ∧
      P (expand g occupied goal c.node n l { p with frontier := rest }) := by
  refine Finder.expand_induction (P := fun q => Expanding g goal price p c.node a q ∧ P q)
    ⟨.close h hsize hexpands ha, hclose⟩ ?_
  rintro q next k ⟨hq, hP⟩ himproves
  rw [hexpands.getD_weight ha] at himproves ⊢
  obtain ⟨hsum, htaken⟩ := hq.takeUp hg hbelow hexpands ha himproves
  exact ⟨htaken, htake q next k hP hq himproves hsum⟩

/-- **Expanding a node keeps labels and frontier priced**, and the node's own weight. -/
theorem expand (h : Priced g goal price p) (hg : Prices g price)
    (hsize : p.labels.size = g.nodes.size) (hbelow : SumsBelow g occupied goal p)
    (hexpands : Expands g goal p c rest n l) (ha : Weighs p.labels c.node a) :
    Expanding g goal price p c.node a
      (expand g occupied goal c.node n l { p with frontier := rest }) :=
  (h.expand_induction (P := fun _ => True) hg hsize hbelow hexpands ha trivial
    fun _ _ _ _ _ _ _ => trivial).1

/-- **A turn keeps labels and frontier priced** if its sums are exact. -/
theorem turn (h : Priced g goal price p) (hg : Prices g price)
    (hsound : Sound g occupied goal origin p) (hbelow : SumsBelow g occupied goal p)
    (hturn : Turn g occupied goal p q) : Priced g goal price q := by
  have hsize := hsound.grounded.size
  cases hturn with
  | stale htop hclosed => exact h.stale hsize htop hclosed
  | @expand c rest n l htop hnode hlabel hwaits honward =>
    have hexpands : Expands g goal p c rest n l := ⟨htop, hnode, hlabel, hwaits, honward⟩
    obtain ⟨a, ha⟩ := h.whole.exists_weighs (hsound.seen_top htop)
    exact (h.expand hg hsize hbelow hexpands ha).priced

end Priced

/-! ## What is next to closed nodes -/

/-- No free neighbour of a closed node is worth more than the way through that node. -/
def Spread (g : WalkGraph) (occupied : Cell → Bool) (price : Cell → Nat) (labels : Array Label) :
    Prop :=
  ∀ i n a j k, (labelAt labels i).closed = true → Weighs labels i a →
    WalkGraph.node? g.nodes i = some n → j ∈ n.links.toList →
    WalkGraph.node? g.nodes j = some k → occupied k.cell = false →
    ∃ b ≤ a + price k.cell, Weighs labels j b

/-- **Expanding a node** makes its neighbours as cheap as that, and no node worth more. -/
theorem Spread.expand (h : Spread g occupied price p.labels) (hp : Priced g goal price p)
    (hg : Prices g price) (hsize : p.labels.size = g.nodes.size)
    (hbelow : SumsBelow g occupied goal p) (hexpands : Expands g goal p c rest n l)
    (ha : Weighs p.labels c.node a) :
    Spread g occupied price
      (expand g occupied goal c.node n l { p with frontier := rest }).labels := by
  have hq := hp.expand hg hsize hbelow hexpands ha
  intro i n' a' j k hclosed ha' hn' hj hk hfree
  by_cases hi : c.node = i
  · -- The neighbours of the node just expanded have been looked at.
    subst hi
    obtain rfl : n = n' := Option.some.inj (hexpands.node.symm.trans hn')
    obtain rfl : a = a' := hq.weighs.unique ha'
    obtain ⟨hsum, -⟩ := hexpands.sums hbelow ha hj hk hfree
    have hle : worthAt (Finder.expand g occupied goal c.node n l
        { p with frontier := rest }).labels j ≤ ((l.weight?.getD .zero).add k.cost).value :=
      worthAt_expand_le hj hk hfree hsize
    rw [hg.cost j k hk] at hsum
    rw [hexpands.getD_weight ha, hg.cost j k hk, Cost.add_whole hsum] at hle
    exact hq.priced.whole.exists_le hle
  · -- Those of the others are worth no more than before.
    have hold := labelAt_expand_of_closed hexpands.label_rest hi hclosed
    rw [hold] at hclosed
    rw [Weighs, hold] at ha'
    obtain ⟨b, hb, hweighs⟩ := h i n' a' j k hclosed ha' hn' hj hk hfree
    have hmono : worthAt (Finder.expand g occupied goal c.node n l
        { p with frontier := rest }).labels j ≤ worthAt p.labels j :=
      worthAt_expand_mono hexpands.label_rest j
    rw [hweighs.worthAt] at hmono
    obtain ⟨b', hb', hweighs'⟩ := hq.priced.whole.exists_le hmono
    exact ⟨b', hb'.trans hb, hweighs'⟩

/-- **A turn keeps what is next to closed nodes cheap.** -/
theorem Spread.turn (h : Spread g occupied price p.labels) (hp : Priced g goal price p)
    (hg : Prices g price) (hsound : Sound g occupied goal origin p)
    (hbelow : SumsBelow g occupied goal p) (hturn : Turn g occupied goal p q) :
    Spread g occupied price q.labels := by
  cases hturn with
  | stale => exact h
  | @expand c rest n l htop hnode hlabel hwaits honward =>
    have hexpands : Expands g goal p c rest n l := ⟨htop, hnode, hlabel, hwaits, honward⟩
    obtain ⟨a, ha⟩ := hp.whole.exists_weighs (hsound.seen_top htop)
    exact h.expand hp hg hsound.grounded.size hbelow hexpands ha

/-! ## Whole searches -/

theorem priced_opening {first : WalkNode}
    (hfirst : WalkGraph.node? g.nodes origin = some first) :
    Priced g goal price (opening g origin) ∧
      Spread g occupied price (opening g origin).labels := by
  have hlabel (j : Nat) := labelAt_opening hfirst j
  have horigin : Weighs (opening g origin).labels origin 0 := by
    rw [Weighs, hlabel, if_pos rfl, Cost.whole_zero]
  have hempty : Frontier.empty.Ordered := trivial
  refine ⟨⟨?whole, ?came, hempty.push _, ?paid, ?waits⟩, ?spread⟩
  case whole =>
    intro j cost hcost
    rw [hlabel] at hcost
    split at hcost
    · exact ⟨0, (Option.some.inj hcost).symm⟩
    · cases hcost
  case came =>
    intro i j hcame
    rw [hlabel] at hcame
    split at hcame <;> cases hcame
  case paid =>
    intro c hc
    obtain rfl := eq_of_mem_opening hc
    rw [horigin.worthAt, Cost.whole_zero]
  case waits =>
    intro j b k hb hopen hk
    have hj : origin = j := by
      by_contra hne
      rw [Weighs, hlabel, if_neg hne] at hb
      cases hb
    refine ⟨_, Frontier.mem_push.mpr (Or.inl rfl), hj, ?_⟩
    exact Cost.value_zero_le _
  case spread =>
    intro i n a j k hclosed
    rw [hlabel] at hclosed
    split at hclosed <;> cases hclosed

/-- **Throughout a search with exact sums** labels and frontier are priced, and the neighbours of
closed nodes are cheap. -/
theorem priced_of_turns (hg : Prices g price) (hexact : Exact g occupied goal origin)
    {first : WalkNode} (hfirst : WalkGraph.node? g.nodes origin = some first)
    (hturns : Relation.ReflTransGen (Turn g occupied goal) (opening g origin) p) :
    Priced g goal price p ∧ Spread g occupied price p.labels := by
  induction hturns with
  | refl => exact priced_opening hfirst
  | tail hbefore hturn ih =>
    obtain ⟨hpriced, hspread⟩ := ih
    have hsound : Sound g occupied goal origin _ := (sound_opening hfirst).turns hbefore
    have hbelow := hexact _ hbefore
    exact ⟨hpriced.turn hg hsound hbelow hturn, hspread.turn hpriced hg hsound hbelow hturn⟩

end Cartridge.Finder
