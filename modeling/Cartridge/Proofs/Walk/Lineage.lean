import Cartridge.Proofs.Walk.Turn
import Mathlib.Data.List.Chain

/-!
# Lineage — the way back from a node

Every seen node has come from another one, and so on back to the origin, although the pointers are
overwritten whenever a cheaper way is found.  They never form a cycle: along the way back the worth
does not grow, so a node that is taken up for less than it was worth does not lie on the way to the
node that it now comes from (`Lineage.takeUp`).  Therefore the search traces back the whole way
(`traceBack_eq`).
-/

namespace Cartridge.Finder

variable {g : WalkGraph} {occupied : Cell → Bool} {goal : WalkGoal} {origin : Nat}
  {labels : Array Label} {p q : Progress} {i j next : Nat} {ids ids' : List Nat}

/-! ## The way back -/

/-- The nodes on the way back from a node to the origin, which is left out. -/
inductive Lineage (labels : Array Label) (origin : Nat) : Nat → List Nat → Prop where
  | origin : Lineage labels origin origin []
  | step {i j : Nat} {ids : List Nat} (came : (labelAt labels j).cameFrom? = some i)
    (before : Lineage labels origin i ids) : Lineage labels origin j (j :: ids)

namespace Lineage

theorem unique (h : Lineage labels origin j ids) (h' : Lineage labels origin j ids')
    (horigin : (labelAt labels origin).cameFrom? = none) : ids = ids' := by
  induction h generalizing ids' with
  | origin =>
    cases h' with
    | origin => rfl
    | step came => rw [horigin] at came; cases came
  | step came _ ih =>
    cases h' with
    | origin => rw [horigin] at came; cases came
    | step came' before' =>
      rw [came] at came'
      cases came'
      rw [ih before']

/-- From every node on the way back there is a way back. -/
theorem exists_suffix (h : Lineage labels origin j ids) (hi : i ∈ ids) :
    ∃ ids', Lineage labels origin i ids' ∧ ids' <:+ ids := by
  induction h with
  | origin => exact absurd hi List.not_mem_nil
  | step came before ih =>
    rcases List.mem_cons.mp hi with rfl | hi
    · exact ⟨_, .step came before, List.suffix_rfl⟩
    · obtain ⟨ids', hids', hsuffix⟩ := ih hi
      exact ⟨ids', hids', hsuffix.trans (List.suffix_cons _ _)⟩

theorem cameFrom (h : Lineage labels origin j ids) (hi : i ∈ ids) :
    ∃ before, (labelAt labels i).cameFrom? = some before := by
  induction h with
  | origin => exact absurd hi List.not_mem_nil
  | step came _ ih =>
    rcases List.mem_cons.mp hi with rfl | hi
    · exact ⟨_, came⟩
    · exact ih hi

/-- **The way back comes to no node twice**, nor to the origin before its end. -/
theorem nodup (h : Lineage labels origin j ids)
    (horigin : (labelAt labels origin).cameFrom? = none) : (origin :: ids.reverse).Nodup := by
  refine List.nodup_cons.mpr ⟨fun hmem => ?_, List.nodup_reverse.mpr ?_⟩
  · obtain ⟨before, hcame⟩ := h.cameFrom (List.mem_reverse.mp hmem)
    rw [horigin] at hcame
    cases hcame
  · induction h with
    | origin => exact List.nodup_nil
    | @step i j ids came before ih =>
      refine List.nodup_cons.mpr ⟨fun hmem => ?_, ih⟩
      -- A way back from `j` that is part of the one behind it would be shorter than itself.
      obtain ⟨ids', hids', hsuffix⟩ := before.exists_suffix hmem
      have hlength := hsuffix.length_le
      rw [← (Lineage.step came before).unique hids' horigin, List.length_cons] at hlength
      omega

theorem lt_size (h : Lineage labels origin j ids) (hi : i ∈ ids) : i < labels.size := by
  obtain ⟨before, hcame⟩ := h.cameFrom hi
  by_contra hout
  rw [labelAt, Array.getElem?_eq_none (not_lt.mp hout)] at hcame
  cases hcame

theorem length_le (h : Lineage labels origin j ids)
    (horigin : (labelAt labels origin).cameFrom? = none) : ids.length ≤ labels.size := by
  have hnodup : ids.Nodup := List.nodup_reverse.mp (List.nodup_cons.mp (h.nodup horigin)).2
  have hsub : ids ⊆ List.range labels.size := fun i hi => List.mem_range.mpr (h.lt_size hi)
  simpa using (hnodup.subperm hsub).length_le

end Lineage

/-- The cells of nodes. -/
def cellsOf (g : WalkGraph) (ids : List Nat) : List Cell :=
  ids.filterMap fun i => (WalkGraph.node? g.nodes i).map (·.cell)

/-- **Tracing back collects the whole way** if there is fuel for its nodes. -/
theorem traceBack_eq (h : Lineage labels origin j ids)
    (horigin : (labelAt labels origin).cameFrom? = none)
    (hnodes : ∀ i ∈ ids, ∃ n, WalkGraph.node? g.nodes i = some n) (walked : List Cell) {fuel : Nat}
    (hfuel : ids.length ≤ fuel) :
    traceBack g labels walked fuel j = (cellsOf g ids).reverse ++ walked := by
  induction h generalizing walked fuel with
  | origin =>
    cases fuel with
    | zero => rfl
    | succ fuel =>
      have hnone : (labels[origin]?).bind (·.cameFrom?) = none := by
        rw [← horigin, labelAt]
        cases labels[origin]? <;> rfl
      rw [traceBack, hnone]
      rfl
  | @step i j ids came before ih =>
    cases fuel with
    | zero => exact absurd hfuel (Nat.not_succ_le_zero _)
    | succ fuel =>
      obtain ⟨n, hn⟩ := hnodes j List.mem_cons_self
      have hcame : (labels[j]?).bind (·.cameFrom?) = some i := by
        rw [← came, labelAt]
        cases labels[j]? <;> rfl
      rw [traceBack, hcame, hn]
      simp only [cellsOf, List.filterMap_cons, hn, Option.map_some, List.reverse_cons,
        List.append_assoc, List.singleton_append]
      exact ih (fun i hi => hnodes i (List.mem_cons_of_mem _ hi)) _ (Nat.le_of_succ_le_succ hfuel)

/-! ## Labels that point back -/

/-- One node is expanded on the way to another, which is next to it and free. -/
structure Onward (g : WalkGraph) (occupied : Cell → Bool) (goal : WalkGoal) (i j : Nat)
    (n k : WalkNode) : Prop where
  source : WalkGraph.node? g.nodes i = some n
  linked : j ∈ n.links.toList
  target : WalkGraph.node? g.nodes j = some k
  free : occupied k.cell = false
  onward : reached g goal n.cell = false

/-- The labels of a search point back to the node that it started from. -/
structure Grounded (g : WalkGraph) (occupied : Cell → Bool) (goal : WalkGoal) (origin : Nat)
    (labels : Array Label) : Prop where
  size : labels.size = g.nodes.size
  weight : (labelAt labels origin).weight? = some .zero
  first : (labelAt labels origin).cameFrom? = none
  rounded : ∀ j cost, (labelAt labels j).weight? = some cost → cost.IsRounded
  came : ∀ i j, (labelAt labels j).cameFrom? = some i →
    worthAt labels i ≤ worthAt labels j ∧ ∃ n k, Onward g occupied goal i j n k
  lineage : ∀ j, worthAt labels j < ⊤ → ∃ ids, Lineage labels origin j ids

namespace Grounded

/-- Closing a node changes nothing about the ways. -/
theorem close {l : Label} (h : Grounded g occupied goal origin p.labels)
    (hlabel : p.labels[i]? = some l) :
    Grounded g occupied goal origin (close i p l).labels := by
  refine ⟨Array.size_setIfInBounds.trans h.size, (weight_close hlabel _).trans h.weight,
    (cameFrom_close hlabel _).trans h.first,
    fun j cost hj => h.rounded j cost ((weight_close hlabel j).symm.trans hj),
    fun i' j hj => ?_, fun j hj => ?_⟩
  · rw [worthAt_close hlabel, worthAt_close hlabel]
    exact h.came i' j ((cameFrom_close hlabel j).symm.trans hj)
  · obtain ⟨ids, hids⟩ := h.lineage j (worthAt_close hlabel j ▸ hj)
    refine ⟨ids, ?_⟩
    clear hj
    induction hids with
    | origin => exact .origin
    | step came _ ih => exact .step ((cameFrom_close hlabel _).trans came) ih

/-! ### Taking up a node -/

/-- A node that is worth less than the one that is taken up keeps its way back. -/
theorem lineage_of_lt (h : Grounded g occupied goal origin labels) {l : Label}
    (hids : Lineage labels origin j ids) (hless : worthAt labels j < worthAt labels next) :
    Lineage (labels.setIfInBounds next l) origin j ids := by
  induction hids with
  | origin => exact .origin
  | @step i j ids came before ih =>
    have hne : next ≠ j := by
      rintro rfl
      exact lt_irrefl _ hless
    exact .step (by rwa [labelAt_set_of_ne hne]) (ih ((h.came i j came).1.trans_lt hless))

variable {weight cost : Cost} {n k : WalkNode}

/-- A way that goes on from a node costs no less than the way to it. -/
theorem value_le (h : Grounded g occupied goal origin labels)
    (hweight : (labelAt labels i).weight? = some weight) (k : WalkNode) :
    worthAt labels i ≤ (weight.add k.cost).value := by
  rw [worthAt_of_weight hweight]
  exact WithTop.coe_le_coe.mpr (Cost.value_le_add (h.rounded i weight hweight) k.cost)

/-- The origin is never taken up again. -/
theorem ne_origin (h : Grounded g occupied goal origin labels)
    (hcheaper : (cost.value : WithTop (WithTop Nat)) < worthAt labels next) : next ≠ origin := by
  rintro rfl
  rw [worthAt_of_weight h.weight, WithTop.coe_lt_coe] at hcheaper
  exact absurd (Cost.value_zero_le cost) (not_le.mpr hcheaper)

/-- The node that is taken up and all behind it have a way back, since the node that it now comes
from had one that did not lead through it. -/
theorem exists_lineage (h : Grounded g occupied goal origin labels) {l : Label}
    (hsize : next < labels.size) (hl : l.cameFrom? = some i)
    (hless : worthAt labels i < worthAt labels next) :
    (∃ ids, Lineage (labels.setIfInBounds next l) origin next ids) ∧
      ∀ j ids, Lineage labels origin j ids →
        ∃ ids', Lineage (labels.setIfInBounds next l) origin j ids' := by
  obtain ⟨before, hbefore⟩ := h.lineage i (hless.trans_le le_top)
  have hnew : Lineage (labels.setIfInBounds next l) origin next (next :: before) :=
    .step (by rw [labelAt_set_self hsize, hl]) (h.lineage_of_lt hbefore hless)
  refine ⟨⟨_, hnew⟩, fun j ids hids => ?_⟩
  induction hids with
  | origin => exact ⟨_, .origin⟩
  | @step i' j ids came _ ih =>
    by_cases hj : next = j
    · subst hj
      exact ⟨_, hnew⟩
    · obtain ⟨ids', hids'⟩ := ih
      exact ⟨_, .step (by rwa [labelAt_set_of_ne hj]) hids'⟩

/-- **Taking up a node for less keeps the labels grounded.** -/
theorem takeUp (h : Grounded g occupied goal origin p.labels)
    (hweight : (labelAt p.labels i).weight? = some weight)
    (hnode : WalkGraph.node? g.nodes i = some n) (honward : reached g goal n.cell = false)
    (himproves : Improves g occupied n weight next k p) :
    Grounded g occupied goal origin (takeUp goal i next k (weight.add k.cost) p).labels ∧
      (labelAt (takeUp goal i next k (weight.add k.cost) p).labels i).weight? = some weight := by
  have hsize : next < p.labels.size := h.size ▸ WalkGraph.lt_size_of_node? himproves.node
  have hcost := h.value_le hweight k
  have hless : worthAt p.labels i < worthAt p.labels next := hcost.trans_lt himproves.cheaper
  have hi : next ≠ i := fun heq => absurd hless (heq ▸ lt_irrefl _)
  have horigin : next ≠ origin := h.ne_origin himproves.cheaper
  have hself : labelAt (Finder.takeUp goal i next k (weight.add k.cost) p).labels next =
      { weight? := some (weight.add k.cost), cameFrom? := some i } := labelAt_set_self hsize
  have hother (j : Nat) (hj : next ≠ j) :
      labelAt (Finder.takeUp goal i next k (weight.add k.cost) p).labels j = labelAt p.labels j :=
    labelAt_set_of_ne hj
  have hworth : worthAt (Finder.takeUp goal i next k (weight.add k.cost) p).labels next =
      (weight.add k.cost).value := worthAt_of_weight (by rw [hself])
  have hadvances : Advances p (Finder.takeUp goal i next k (weight.add k.cost) p) :=
    Advances.takeUp himproves.cheaper
  obtain ⟨hnew, hold⟩ := h.exists_lineage
    (l := { weight? := some (weight.add k.cost), cameFrom? := some i }) hsize rfl hless
  refine ⟨?_, by rw [hother i hi, hweight]⟩
  constructor
  case size => exact Array.size_setIfInBounds.trans h.size
  case weight => rw [hother origin horigin, h.weight]
  case first => rw [hother origin horigin, h.first]
  case rounded =>
    intro j cost hj
    by_cases hnext : next = j
    · subst hnext
      rw [hself] at hj
      cases hj
      exact Cost.isRounded_add _ _
    · rw [hother j hnext] at hj
      exact h.rounded j cost hj
  case came =>
    intro i' j hj
    by_cases hnext : next = j
    · subst hnext
      rw [hself] at hj
      cases hj
      refine ⟨?_, n, k, hnode, himproves.linked, himproves.node, himproves.free, honward⟩
      rw [hworth]
      exact (hadvances.worthAt_le i).trans hcost
    · rw [hother j hnext] at hj
      obtain ⟨hle, hstep⟩ := h.came i' j hj
      have hsame : worthAt (Finder.takeUp goal i next k (weight.add k.cost) p).labels j =
          worthAt p.labels j := by rw [worthAt, hother j hnext, worthAt]
      exact ⟨((hadvances.worthAt_le i').trans hle).trans hsame.ge, hstep⟩
  case lineage =>
    intro j hj
    by_cases hnext : next = j
    · subst hnext
      exact hnew
    · rw [worthAt, hother j hnext] at hj
      obtain ⟨ids, hids⟩ := h.lineage j hj
      exact hold j ids hids

end Grounded

end Cartridge.Finder
