import Cartridge.Proofs.Walk.Cost
import Cartridge.Proofs.Walk.Frontier
import Cartridge.Proofs.Walk.Graph
import Cartridge.Walk.Search

/-!
# Relax — what expanding a node changes

A node that is looked at is left as it is or taken up (`relax_cases`), and it is taken up only for
less than it was worth.  So whatever looking at a node keeps is kept by an expansion
(`expand_induction`): afterwards the labels are the same or are worth less and wait
(`advances_expand`), and no free neighbour is worth more than the way through the expanded node
(`worthAt_expand_le`).
-/

namespace Cartridge

/-- What the best way found so far costs; more than any cost while there is none. -/
def Label.worth (l : Label) : WithTop (WithTop Nat) :=
  match l.weight? with
  | none => ⊤
  | some cost => cost.value

namespace Finder

/-! ## Labels -/

/-- The label of a node; that of an unseen one if there is none. -/
def labelAt (labels : Array Label) (i : Nat) : Label :=
  (labels[i]?).getD {}

/-- What the best way to a node costs. -/
def worthAt (labels : Array Label) (i : Nat) : WithTop (WithTop Nat) :=
  (labelAt labels i).worth

variable {labels : Array Label} {i j next : Nat} {cost : Cost} {l : Label}

theorem worthAt_of_weight (h : (labelAt labels i).weight? = some cost) :
    worthAt labels i = cost.value := by
  rw [worthAt, Label.worth, h]

theorem exists_weight_of_worthAt (h : worthAt labels i < ⊤) :
    ∃ cost, (labelAt labels i).weight? = some cost := by
  cases hw : (labelAt labels i).weight? with
  | none =>
    rw [worthAt, Label.worth, hw] at h
    exact absurd h (lt_irrefl _)
  | some cost => exact ⟨cost, rfl⟩

theorem labelAt_of_getElem? (h : labels[i]? = some l) : labelAt labels i = l := by
  rw [labelAt, h, Option.getD_some]

theorem labelAt_set_self (h : i < labels.size) : labelAt (labels.setIfInBounds i l) i = l := by
  rw [labelAt, Array.getElem?_setIfInBounds, if_pos rfl, if_pos h, Option.getD_some]

theorem labelAt_set_of_ne (h : i ≠ j) :
    labelAt (labels.setIfInBounds i l) j = labelAt labels j := by
  rw [labelAt, labelAt, Array.getElem?_setIfInBounds, if_neg h]

/-! ## Looking at a node -/

variable (g : WalkGraph) (occupied : Cell → Bool) (goal : WalkGoal)

/-- The search once a node has been taken up. -/
def takeUp (source next : Nat) (k : WalkNode) (cost : Cost) (p : Progress) : Progress :=
  let missing := (goal.distance k.cell - goal.target).natAbs
  { labels := p.labels.setIfInBounds next { weight? := some cost, cameFrom? := some source }
    frontier := p.frontier.push ⟨cost.add (.ofNat missing), p.arrivals + 1, next⟩
    arrivals := p.arrivals + 1 }

/-- The node may be taken up from an expanded one: it is linked and free, and the way is cheaper. -/
structure Improves (n : WalkNode) (weight : Cost) (next : Nat) (k : WalkNode) (p : Progress) :
    Prop where
  linked : next ∈ n.links.toList
  node : WalkGraph.node? g.nodes next = some k
  free : occupied k.cell = false
  cheaper : ((weight.add k.cost).value : WithTop (WithTop Nat)) < worthAt p.labels next

variable {g occupied goal} {p q r : Progress} {source : Nat} {weight : Cost} {n k : WalkNode}

/-- A node is left as it is, no free one that is worth more, or taken up for less. -/
theorem relax_cases (linked : next ∈ n.links.toList) :
    (relax g occupied goal source weight p next = p ∧
      ∀ k, WalkGraph.node? g.nodes next = some k → occupied k.cell = false →
        worthAt p.labels next ≤ (weight.add k.cost).value) ∨
    ∃ k, Improves g occupied n weight next k p ∧
      relax g occupied goal source weight p next =
        takeUp goal source next k (weight.add k.cost) p := by
  unfold relax
  cases hnode : WalkGraph.node? g.nodes next with
  | none => exact Or.inl ⟨rfl, fun k hk => by cases hk⟩
  | some k =>
    by_cases hoccupied : occupied k.cell = true
    · refine Or.inl ⟨if_pos hoccupied, fun k' hk' hfree => ?_⟩
      cases hk'
      rw [hoccupied] at hfree
      cases hfree
    · have hbetter : (match (p.labels[next]?).bind (·.weight?) with
            | none => true
            | some known => (weight.add k.cost).less known) = true ↔
          ((weight.add k.cost).value : WithTop (WithTop Nat)) < worthAt p.labels next := by
        have hweight : (p.labels[next]?).bind (·.weight?) = (labelAt p.labels next).weight? := by
          rw [labelAt]
          cases p.labels[next]? <;> rfl
        rw [hweight, worthAt, Label.worth]
        cases (labelAt p.labels next).weight? with
        | none => exact iff_of_true rfl (WithTop.coe_lt_top _)
        | some known => rw [Cost.less_iff, WithTop.coe_lt_coe]
      simp only [hoccupied, Bool.false_eq_true, if_false]
      by_cases hcheaper : ((weight.add k.cost).value : WithTop (WithTop Nat)) <
          worthAt p.labels next
      · refine Or.inr ⟨k, ⟨linked, hnode, by simpa using hoccupied, hcheaper⟩, ?_⟩
        exact if_pos (hbetter.mpr hcheaper)
      · refine Or.inl ⟨if_neg (mt hbetter.mp hcheaper), fun k' hk' _ => ?_⟩
        cases hk'
        exact not_lt.mp hcheaper

/-! ## What only gets better -/

variable (p q) in
/-- From one state of a search to a later one the labels stay, or are worth less and wait. -/
structure Advances : Prop where
  size : q.labels.size = p.labels.size
  label : ∀ j, q.labels[j]? = p.labels[j]? ∨
    worthAt q.labels j < worthAt p.labels j ∧ (labelAt q.labels j).closed = false ∧
      ∃ c ∈ q.frontier.toList, c.node = j
  waiting : ∀ c ∈ p.frontier.toList, c ∈ q.frontier.toList

namespace Advances

theorem refl (p : Progress) : Advances p p :=
  ⟨rfl, fun _ => Or.inl rfl, fun _ hc => hc⟩

theorem worthAt_le (h : Advances p q) (j : Nat) : worthAt q.labels j ≤ worthAt p.labels j := by
  rcases h.label j with hsame | ⟨hless, -, -⟩
  · rw [worthAt, worthAt, labelAt, labelAt, hsame]
  · exact hless.le

theorem trans (h : Advances p q) (h' : Advances q r) : Advances p r := by
  refine ⟨h'.size.trans h.size, fun j => ?_, fun c hc => h'.waiting c (h.waiting c hc)⟩
  rcases h'.label j with hsame' | ⟨hless', hopen', hwaits'⟩
  · rcases h.label j with hsame | ⟨hless, hopen, c, hc, hnode⟩
    · exact Or.inl (hsame'.trans hsame)
    · refine Or.inr ⟨?_, ?_, c, h'.waiting c hc, hnode⟩
      · rwa [worthAt, labelAt, hsame']
      · rwa [labelAt, hsame']
  · exact Or.inr ⟨hless'.trans_le (h.worthAt_le j), hopen', hwaits'⟩

theorem takeUp (hcheaper : (cost.value : WithTop (WithTop Nat)) < worthAt p.labels next) :
    Advances p (takeUp goal source next k cost p) := by
  refine ⟨Array.size_setIfInBounds, fun j => ?_, fun c hc => ?_⟩
  · by_cases hj : next = j
    · subst hj
      by_cases hsize : next < p.labels.size
      · refine Or.inr ⟨?_, ?_, ?_⟩
        · rwa [worthAt, Finder.takeUp, labelAt_set_self hsize]
        · rw [Finder.takeUp, labelAt_set_self hsize]
        · exact ⟨_, Frontier.mem_push.mpr (Or.inl rfl), rfl⟩
      · refine Or.inl ?_
        rw [Finder.takeUp, Array.setIfInBounds_eq_of_size_le (not_lt.mp hsize)]
    · exact Or.inl (by rw [Finder.takeUp, Array.getElem?_setIfInBounds, if_neg hj])
  · exact Frontier.mem_push.mpr (Or.inr hc)

end Advances

/-! ## Expanding a node -/

variable (i p) in
/-- The search with a node closed. -/
def close (label : Label) : Progress :=
  { p with labels := p.labels.setIfInBounds i { label with closed := true } }

variable (g occupied goal) in
/-- Expands a node: closes it and looks at the nodes next to it, each time anew. -/
def expand (i : Nat) (n : WalkNode) (label : Label) (p : Progress) : Progress :=
  n.links.toList.foldl (relax g occupied goal i (label.weight?.getD .zero)) (close i p label)

theorem labelAt_close (hlabel : p.labels[i]? = some l) (j : Nat) :
    labelAt (close i p l).labels j =
      if i = j then { l with closed := true } else labelAt p.labels j := by
  split
  · next hij =>
    subst hij
    exact labelAt_set_self (Array.getElem?_eq_some_iff.mp hlabel).1
  · next hij => exact labelAt_set_of_ne hij

theorem weight_close (hlabel : p.labels[i]? = some l) (j : Nat) :
    (labelAt (close i p l).labels j).weight? = (labelAt p.labels j).weight? := by
  rw [labelAt_close hlabel]
  split
  · next hij => rw [← hij, labelAt_of_getElem? hlabel]
  · rfl

theorem cameFrom_close (hlabel : p.labels[i]? = some l) (j : Nat) :
    (labelAt (close i p l).labels j).cameFrom? = (labelAt p.labels j).cameFrom? := by
  rw [labelAt_close hlabel]
  split
  · next hij => rw [← hij, labelAt_of_getElem? hlabel]
  · rfl

theorem worthAt_close (hlabel : p.labels[i]? = some l) (j : Nat) :
    worthAt (close i p l).labels j = worthAt p.labels j := by
  rw [worthAt, worthAt, Label.worth, Label.worth, weight_close hlabel]

/-- What taking up a node keeps is kept by looking at some of the linked nodes. -/
theorem foldl_relax_induction {P : Progress → Prop}
    (htake : ∀ q next k, P q → Improves g occupied n weight next k q →
      P (takeUp goal source next k (weight.add k.cost) q))
    {links : List Nat} (hlinks : ∀ next ∈ links, next ∈ n.links.toList) (hp : P p) :
    P (links.foldl (relax g occupied goal source weight) p) := by
  induction links generalizing p with
  | nil => exact hp
  | cons next rest ih =>
    rw [List.foldl_cons]
    refine ih (fun next' hnext' => hlinks next' (List.mem_cons_of_mem _ hnext')) ?_
    rcases relax_cases (p := p) (hlinks next List.mem_cons_self) with
      ⟨hsame, -⟩ | ⟨k, himproves, htaken⟩
    · rwa [hsame]
    · rw [htaken]
      exact htake p next k hp himproves

theorem advances_foldl {links : List Nat} (hlinks : ∀ next ∈ links, next ∈ n.links.toList) :
    Advances p (links.foldl (relax g occupied goal source weight) p) :=
  foldl_relax_induction (fun _ _ _ hq himproves => hq.trans (Advances.takeUp himproves.cheaper))
    hlinks (Advances.refl p)

/-- **The rule for expansions**: what closing the node gives and taking up a node keeps. -/
theorem expand_induction {P : Progress → Prop} (hclose : P (close i p l))
    (htake : ∀ q next k, P q → Improves g occupied n (l.weight?.getD .zero) next k q →
      P (takeUp goal i next k ((l.weight?.getD .zero).add k.cost) q)) :
    P (expand g occupied goal i n l p) :=
  foldl_relax_induction htake (fun _ hnext => hnext) hclose

theorem advances_expand : Advances (close i p l) (expand g occupied goal i n l p) :=
  advances_foldl fun _ hnext => hnext

/-- An expansion makes no node worth more. -/
theorem worthAt_expand_mono (hlabel : p.labels[i]? = some l) (j : Nat) :
    worthAt (expand g occupied goal i n l p).labels j ≤ worthAt p.labels j := by
  rw [← worthAt_close hlabel j]
  exact advances_expand.worthAt_le j

/-- A node that is closed after an expansion is the expanded one, or nothing has changed about it. -/
theorem labelAt_expand_of_closed (hlabel : p.labels[i]? = some l) (hij : i ≠ j)
    (hclosed : (labelAt (expand g occupied goal i n l p).labels j).closed = true) :
    labelAt (expand g occupied goal i n l p).labels j = labelAt p.labels j := by
  have hadvances : Advances (close i p l) (expand g occupied goal i n l p) := advances_expand
  rcases hadvances.label j with hsame | ⟨-, hopen, -⟩
  · rw [labelAt, hsame, ← labelAt, labelAt_close hlabel, if_neg hij]
  · rw [hopen] at hclosed
    cases hclosed

/-- A node that is closed after an expansion is the expanded one or was closed before. -/
theorem closed_of_expand (hlabel : p.labels[i]? = some l)
    (hclosed : (labelAt (expand g occupied goal i n l p).labels j).closed = true) :
    i = j ∨ (labelAt p.labels j).closed = true := by
  by_cases hij : i = j
  · exact Or.inl hij
  · rw [labelAt_expand_of_closed hlabel hij hclosed] at hclosed
    exact Or.inr hclosed

/-- A node that is open after an expansion waits, or it is another one and nothing has changed about
it. -/
theorem open_of_expand (hlabel : p.labels[i]? = some l)
    (hopen : (labelAt (expand g occupied goal i n l p).labels j).closed = false) :
    (∃ c ∈ (expand g occupied goal i n l p).frontier.toList, c.node = j) ∨
      i ≠ j ∧ labelAt (expand g occupied goal i n l p).labels j = labelAt p.labels j := by
  have hadvances : Advances (close i p l) (expand g occupied goal i n l p) := advances_expand
  rcases hadvances.label j with hsame | ⟨-, -, hwaits⟩
  · have hlabels : labelAt (expand g occupied goal i n l p).labels j =
        if i = j then { l with closed := true } else labelAt p.labels j := by
      rw [← labelAt_close hlabel, labelAt, hsame, ← labelAt]
    by_cases hij : i = j
    · rw [hlabels, if_pos hij] at hopen
      cases hopen
    · exact Or.inr ⟨hij, hlabels.trans (if_neg hij)⟩
  · exact Or.inl hwaits

/-- A node that has been looked at is not worth more than the way to it. -/
theorem worthAt_relax_le (hlinked : next ∈ n.links.toList)
    (hnode : WalkGraph.node? g.nodes next = some k) (hfree : occupied k.cell = false)
    (hbound : next < p.labels.size) :
    worthAt (relax g occupied goal source weight p next).labels next ≤
      (weight.add k.cost).value := by
  rcases relax_cases (p := p) hlinked with ⟨hsame, hknown⟩ | ⟨k', himproves, htaken⟩
  · rw [hsame]
    exact hknown k hnode hfree
  · obtain rfl : k = k' := Option.some.inj (hnode.symm.trans himproves.node)
    rw [htaken, worthAt, takeUp, labelAt_set_self hbound]
    exact le_rfl

/-- After an expansion no free neighbour is worth more than the way through the node. -/
theorem worthAt_expand_le (hlinked : next ∈ n.links.toList)
    (hnode : WalkGraph.node? g.nodes next = some k) (hfree : occupied k.cell = false)
    (hsize : p.labels.size = g.nodes.size) :
    worthAt (expand g occupied goal i n l p).labels next ≤
      ((l.weight?.getD .zero).add k.cost).value := by
  obtain ⟨before, after, hsplit⟩ := List.append_of_mem hlinked
  have hbefore : ∀ j ∈ before, j ∈ n.links.toList := fun j hj =>
    hsplit ▸ List.mem_append_left _ hj
  have hafter : ∀ j ∈ after, j ∈ n.links.toList := fun j hj =>
    hsplit ▸ List.mem_append_right _ (List.mem_cons_of_mem _ hj)
  rw [expand, hsplit, List.foldl_append, List.foldl_cons]
  refine ((advances_foldl hafter).worthAt_le next).trans (worthAt_relax_le hlinked hnode hfree ?_)
  rw [(advances_foldl hbefore).size, close, Array.size_setIfInBounds, hsize]
  exact WalkGraph.lt_size_of_node? hnode

end Finder

end Cartridge
