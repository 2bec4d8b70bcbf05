import Cartridge.Proofs.Walk.Price
import Mathlib.Data.Finset.Card

/-!
# Small — maps on which every sum is exact

A node is taken up for the weight of another one and its own price, and with it one node more is
worth no more than that.  So no weight is greater than the highest price times the number of nodes
that are worth no more (`Graded`), and on a map with few enough nodes all sums of a search are exact
(`exact_of_small`).
-/

namespace Cartridge.Finder

variable {g : WalkGraph} {occupied : Cell → Bool} {goal : WalkGoal} {price : Cell → Nat}
  {origin i j next a b highest : Nat} {p q : Progress} {labels : Array Label} {n k : WalkNode}

/-- The nodes that are worth no more than a whole cost. -/
def nodesWithin (labels : Array Label) (a : Nat) : Finset Nat :=
  (Finset.range labels.size).filter fun j => worthAt labels j ≤ (Cost.whole a).value

theorem mem_nodesWithin :
    j ∈ nodesWithin labels a ↔ j < labels.size ∧ worthAt labels j ≤ (Cost.whole a).value := by
  rw [nodesWithin, Finset.mem_filter, Finset.mem_range]

theorem card_nodesWithin_le : (nodesWithin labels a).card ≤ labels.size := by
  have h : (nodesWithin labels a).card ≤ (Finset.range labels.size).card :=
    Finset.card_le_card (Finset.filter_subset _ _)
  rwa [Finset.card_range] at h

/-- No weight is greater than the highest price for each node that is worth no more. -/
def Graded (highest : Nat) (labels : Array Label) : Prop :=
  ∀ j a, Weighs labels j a → a ≤ highest * (nodesWithin labels a).card

theorem Graded.le (h : Graded highest labels) (ha : Weighs labels j a) :
    a ≤ highest * labels.size :=
  (h j a ha).trans (Nat.mul_le_mul_left _ card_nodesWithin_le)

/-- **Taking up a node** brings one node more within its weight. -/
theorem Graded.takeUp (h : Graded highest p.labels) (hg : Prices g price)
    (hhighest : ∀ c, price c ≤ highest) (hi : Weighs p.labels i a)
    (hsize : p.labels.size = g.nodes.size) (himproves : Improves g occupied n (.whole a) next k p)
    (hsum : (Cost.whole a).Below k.cost) :
    Graded highest (takeUp goal i next k ((Cost.whole a).add k.cost) p).labels := by
  have hbound : next < p.labels.size := hsize ▸ WalkGraph.lt_size_of_node? himproves.node
  have hcheaper := himproves.cheaper
  have hadvances : Advances p (Finder.takeUp goal i next k ((Cost.whole a).add k.cost) p) :=
    Advances.takeUp himproves.cheaper
  rw [hg.cost next k himproves.node] at hsum
  rw [hg.cost next k himproves.node, Cost.add_whole hsum] at hadvances hcheaper ⊢
  have hself : Weighs (Finder.takeUp goal i next k (.whole (a + price k.cell)) p).labels next
      (a + price k.cell) := by
    rw [Weighs, Finder.takeUp, labelAt_set_self hbound]
  have hgrows (b : Nat) : nodesWithin p.labels b ⊆
      nodesWithin (Finder.takeUp goal i next k (.whole (a + price k.cell)) p).labels b := by
    intro j hj
    obtain ⟨hlt, hle⟩ := mem_nodesWithin.mp hj
    exact mem_nodesWithin.mpr ⟨hadvances.size ▸ hlt, (hadvances.worthAt_le j).trans hle⟩
  intro j b hb
  by_cases hj : next = j
  · subst hj
    obtain rfl := hself.unique hb
    -- The node itself was not within the weight of the one that it now comes from.
    have hnew : next ∉ nodesWithin p.labels a := by
      intro hmem
      have hle := (mem_nodesWithin.mp hmem).2
      have hlt := hcheaper.trans_le hle
      rw [WithTop.coe_lt_coe, Cost.value_whole_lt_iff] at hlt
      omega
    have hsub : insert next (nodesWithin p.labels a) ⊆ nodesWithin
        (Finder.takeUp goal i next k (.whole (a + price k.cell)) p).labels (a + price k.cell) := by
      intro v hv
      rcases Finset.mem_insert.mp hv with rfl | hv
      · exact mem_nodesWithin.mpr ⟨hadvances.size ▸ hbound, hself.worthAt.le⟩
      · obtain ⟨hlt, hle⟩ := mem_nodesWithin.mp (hgrows a hv)
        refine mem_nodesWithin.mpr ⟨hlt, hle.trans ?_⟩
        rw [WithTop.coe_le_coe, Cost.value_whole_le_iff]
        exact Nat.le_add_right _ _
    have hcard := Finset.card_le_card hsub
    rw [Finset.card_insert_of_notMem hnew] at hcard
    calc a + price k.cell ≤ highest * (nodesWithin p.labels a).card + highest :=
          Nat.add_le_add (h i a hi) (hhighest k.cell)
      _ = highest * ((nodesWithin p.labels a).card + 1) := (Nat.mul_succ _ _).symm
      _ ≤ _ := Nat.mul_le_mul_left _ hcard
  · have hold : Weighs p.labels j b := by
      rw [Weighs, Finder.takeUp, labelAt_set_of_ne hj] at hb
      exact hb
    exact (h j b hold).trans (Nat.mul_le_mul_left _ (Finset.card_le_card (hgrows b)))

/-- The nodes are so few that what all of them cost, and one more, and any missing distance are
below `2 ^ 24` together. -/
def Few (g : WalkGraph) (goal : WalkGoal) (highest : Nat) : Prop :=
  ∀ i k, WalkGraph.node? g.nodes i = some k →
    highest * (g.nodes.size + 1) + missing goal k.cell < 2 ^ 24

theorem few_of_all (h : (g.nodes.toList.all fun n? => n?.all fun k =>
    highest * (g.nodes.size + 1) + missing goal k.cell < 2 ^ 24) = true) : Few g goal highest := by
  intro i k hk
  have hmem : some k ∈ g.nodes.toList :=
    Array.mem_toList_iff.mpr (Array.mem_of_getElem? (WalkGraph.node?_eq_some_iff.mp hk))
  have hall := List.all_eq_true.mp h (some k) hmem
  rwa [Option.all_some, decide_eq_true_iff] at hall

theorem Graded.sumsBelow (h : Graded highest p.labels) (hg : Prices g price)
    (hhighest : ∀ c, price c ≤ highest) (hfew : Few g goal highest)
    (hwhole : WholeLabels p.labels) (hsize : p.labels.size = g.nodes.size) :
    SumsBelow g occupied goal p := by
  rintro _ next k ⟨-, -, hlabel, -, -, -, hk, -⟩
  next c _ _ l =>
  have hsmall := hfew next k hk
  rw [Nat.mul_succ] at hsmall
  have hprice := hhighest k.cell
  obtain ⟨a, hweight, ha⟩ : ∃ a, l.weight?.getD .zero = .whole a ∧ a ≤ highest * g.nodes.size := by
    cases hl : l.weight? with
    | none => exact ⟨0, rfl, Nat.zero_le _⟩
    | some cost =>
      have hcost : (labelAt p.labels c.node).weight? = some cost := by
        rw [labelAt_of_getElem? hlabel, hl]
      obtain ⟨a, rfl⟩ := hwhole c.node cost hcost
      exact ⟨a, rfl, hsize ▸ h.le hcost⟩
  rw [hweight, hg.cost next k hk]
  have hsum : (Cost.whole a).Below (.whole (price k.cell)) :=
    Cost.below_whole_iff.mpr (by omega)
  refine ⟨hsum, fun _ => ?_⟩
  have hmissing : missing goal k.cell < 2 ^ 24 := by omega
  rw [Cost.add_whole hsum, Cost.ofNat_eq_whole hmissing]
  exact Cost.below_whole_iff.mpr (by omega)

/-- **A turn keeps the labels graded** if its sums are exact. -/
theorem Graded.turn (h : Graded highest p.labels) (hp : Priced g goal price p)
    (hg : Prices g price) (hhighest : ∀ c, price c ≤ highest)
    (hsound : Sound g occupied goal origin p) (hbelow : SumsBelow g occupied goal p)
    (hturn : Turn g occupied goal p q) : Graded highest q.labels := by
  cases hturn with
  | stale => exact h
  | @expand c rest n l htop hnode hlabel hwaits honward =>
    have hexpands : Expands g goal p c rest n l := ⟨htop, hnode, hlabel, hwaits, honward⟩
    obtain ⟨a, ha⟩ := hp.whole.exists_weighs (hsound.seen_top htop)
    have hclose : Graded highest (close c.node { p with frontier := rest } l).labels := by
      intro j b hb
      have hsame : nodesWithin (close c.node { p with frontier := rest } l).labels b =
          nodesWithin p.labels b := by
        ext v
        rw [mem_nodesWithin, mem_nodesWithin, worthAt_close hexpands.label_rest, close,
          Array.size_setIfInBounds]
      rw [Weighs, weight_close hexpands.label_rest] at hb
      rw [hsame]
      exact h j b hb
    exact (hp.expand_induction (P := fun q => Graded highest q.labels) hg hsound.grounded.size
      hbelow hexpands ha hclose fun q next k hq hexpanding himproves hsum =>
        hq.takeUp hg hhighest hexpanding.weighs hexpanding.size himproves hsum).2

/-- **On a small map every sum is exact.** -/
theorem exact_of_small (hg : Prices g price) (hhighest : ∀ c, price c ≤ highest)
    (hfew : Few g goal highest) {first : WalkNode}
    (hfirst : WalkGraph.node? g.nodes origin = some first) : Exact g occupied goal origin := by
  intro p hturns
  have hkeeps : Priced g goal price p ∧ Graded highest p.labels := by
    induction hturns with
    | refl =>
      have hopening : Priced g goal price (opening g origin) ∧
          Spread g occupied price (opening g origin).labels := priced_opening hfirst
      refine ⟨hopening.1, fun j a ha => ?_⟩
      rw [Weighs, labelAt_opening hfirst] at ha
      split at ha
      · have hzero : Cost.whole 0 = .whole a := Cost.whole_zero.trans (Option.some.inj ha)
        rw [← Cost.whole_inj.mp hzero]
        exact Nat.zero_le _
      · cases ha
    | tail hbefore hturn ih =>
      obtain ⟨hpriced, hgraded⟩ := ih
      have hsound : Sound g occupied goal origin _ := (sound_opening hfirst).turns hbefore
      have hbelow : SumsBelow g occupied goal _ :=
        hgraded.sumsBelow hg hhighest hfew hpriced.whole hsound.grounded.size
      exact ⟨hpriced.turn hg hsound hbelow hturn,
        hgraded.turn hpriced hg hhighest hsound hbelow hturn⟩
  have hsound : Sound g occupied goal origin p := (sound_opening hfirst).turns hturns
  exact hkeeps.2.sumsBelow hg hhighest hfew hkeeps.1.whole hsound.grounded.size

end Cartridge.Finder
