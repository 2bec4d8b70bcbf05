import Cartridge.Proofs.Walk.Relax
import Mathlib.Data.DFinsupp.WellFounded
import Mathlib.Data.Fintype.Order
import Mathlib.Data.Prod.Lex

/-!
# Turn — a search as a sequence of turns

In each turn a search passes over a candidate or expands a node, until it finds a node at its goal
or has no candidate left.  Every turn lowers the rank of the labels, so each search comes to an end
(`exists_end`).  The budget decides only whether it gets there: what is found under some budget lies
at the end of turns (`explore_found`), and where turns end is the answer under every budget that is
large enough (`explore_of_turns_ends`).
-/

namespace Cartridge.Finder

variable (g : WalkGraph) (occupied : Cell → Bool) (goal : WalkGoal)

/-- Takes candidates from the frontier until one reaches the goal, none is left, or `budget` nodes
have been expanded and another one would have to be. -/
def explore (budget : Nat) (p : Progress) : Option Nat × Array Label :=
  match _found : p.frontier.pop? with
  | none => (none, p.labels)
  | some (c, rest) =>
    match WalkGraph.node? g.nodes c.node, p.labels[c.node]? with
    | some n, some label =>
      if label.closed then explore budget { p with frontier := rest }
      else if reached g goal n.cell then (some c.node, p.labels)
      else
        match budget with
        | 0 => (none, p.labels)
        | budget + 1 =>
          explore budget (expand g occupied goal c.node n label { p with frontier := rest })
    | _, _ => explore budget { p with frontier := rest }
termination_by (budget, p.frontier.size)
decreasing_by
  all_goals
    have := Frontier.size_pop _found
    simp_wf
    omega

/-- One turn of a search. -/
inductive Turn (p : Progress) : Progress → Prop where
  /-- A candidate is passed over whose node has been closed since it came. -/
  | stale {c : Candidate} {rest : Frontier} (top : p.frontier.pop? = some (c, rest))
    (closed : ∀ n l, WalkGraph.node? g.nodes c.node = some n → p.labels[c.node]? = some l →
      l.closed = true) :
    Turn p { p with frontier := rest }
  /-- A node that does not lie at the goal is expanded. -/
  | expand {c : Candidate} {rest : Frontier} {n : WalkNode} {l : Label}
    (top : p.frontier.pop? = some (c, rest)) (node : WalkGraph.node? g.nodes c.node = some n)
    (label : p.labels[c.node]? = some l) (waits : l.closed = false)
    (onward : reached g goal n.cell = false) :
    Turn p (expand g occupied goal c.node n l { p with frontier := rest })

/-- Where a search ends, and what it has found there. -/
inductive Ends (p : Progress) : Option Nat → Prop where
  | spent (empty : p.frontier.pop? = none) : Ends p none
  | found {c : Candidate} {rest : Frontier} {n : WalkNode} {l : Label}
    (top : p.frontier.pop? = some (c, rest)) (node : WalkGraph.node? g.nodes c.node = some n)
    (label : p.labels[c.node]? = some l) (waits : l.closed = false)
    (there : reached g goal n.cell = true) : Ends p (some c.node)

variable {g occupied goal} {p q : Progress} {found? : Option Nat} {i : Nat}

/-! ## Turns and the budget -/

theorem turn_or_ends (g : WalkGraph) (occupied : Cell → Bool) (goal : WalkGoal) (p : Progress) :
    (∃ q, Turn g occupied goal p q) ∨ ∃ found?, Ends g goal p found? := by
  cases htop : p.frontier.pop? with
  | none => exact Or.inr ⟨none, .spent htop⟩
  | some pair =>
    obtain ⟨c, rest⟩ := pair
    by_cases hwaits : ∃ n l, WalkGraph.node? g.nodes c.node = some n ∧
        p.labels[c.node]? = some l ∧ l.closed = false
    · obtain ⟨n, l, hnode, hlabel, hwaits⟩ := hwaits
      cases hreached : reached g goal n.cell with
      | true => exact Or.inr ⟨_, .found htop hnode hlabel hwaits hreached⟩
      | false => exact Or.inl ⟨_, .expand htop hnode hlabel hwaits hreached⟩
    · refine Or.inl ⟨_, .stale htop fun n l hnode hlabel => ?_⟩
      by_contra hopen
      exact hwaits ⟨n, l, hnode, hlabel, by simpa using hopen⟩

theorem explore_of_spent (htop : p.frontier.pop? = none) (budget : Nat) :
    explore g occupied goal budget p = (none, p.labels) := by
  rw [explore]
  split
  · rfl
  · next htop' => cases htop.symm.trans htop'

/-- What a search makes of the candidate that comes first. -/
theorem explore_of_pop {c : Candidate} {rest : Frontier} (htop : p.frontier.pop? = some (c, rest))
    (budget : Nat) :
    explore g occupied goal budget p =
      match WalkGraph.node? g.nodes c.node, p.labels[c.node]? with
      | some n, some label =>
        if label.closed then explore g occupied goal budget { p with frontier := rest }
        else if reached g goal n.cell then (some c.node, p.labels)
        else
          match budget with
          | 0 => (none, p.labels)
          | budget + 1 =>
            explore g occupied goal budget
              (expand g occupied goal c.node n label { p with frontier := rest })
      | _, _ => explore g occupied goal budget { p with frontier := rest } := by
  rw [explore]
  split
  · next htop' => cases htop.symm.trans htop'
  · next htop' =>
    cases htop.symm.trans htop'
    rfl

theorem explore_of_ends (h : Ends g goal p found?) (budget : Nat) :
    explore g occupied goal budget p = (found?, p.labels) := by
  cases h with
  | spent htop => exact explore_of_spent htop budget
  | found htop hnode hlabel hwaits hreached =>
    rw [explore_of_pop htop]
    simp only [hnode, hlabel, hwaits, Bool.false_eq_true, if_false, hreached, if_true]

/-- A turn takes one expansion at most from the budget. -/
theorem explore_of_turn (h : Turn g occupied goal p q) :
    ∃ spent ≤ 1, ∀ budget, explore g occupied goal (budget + spent) p =
      explore g occupied goal budget q := by
  cases h with
  | @stale c rest htop hclosed =>
    refine ⟨0, Nat.zero_le 1, fun budget => ?_⟩
    rw [Nat.add_zero, explore_of_pop htop]
    split
    · next n l hnode hlabel => rw [if_pos (hclosed n l hnode hlabel)]
    · rfl
  | expand htop hnode hlabel hwaits hreached =>
    refine ⟨1, le_rfl, fun budget => ?_⟩
    rw [explore_of_pop htop]
    simp only [hnode, hlabel, hwaits, Bool.false_eq_true, if_false, hreached]

theorem explore_of_turns (h : Relation.ReflTransGen (Turn g occupied goal) p q) :
    ∃ spent, ∀ budget, explore g occupied goal (budget + spent) p =
      explore g occupied goal budget q := by
  induction h using Relation.ReflTransGen.head_induction_on with
  | refl => exact ⟨0, fun _ => rfl⟩
  | head hturn _ ih =>
    obtain ⟨once, -, honce⟩ := explore_of_turn hturn
    obtain ⟨rest, hrest⟩ := ih
    refine ⟨rest + once, fun budget => ?_⟩
    rw [← Nat.add_assoc, honce, hrest]

/-- **What a search finds**, it finds at the end of its turns. -/
theorem explore_found {budget : Nat} {labels : Array Label}
    (h : explore g occupied goal budget p = (some i, labels)) :
    ∃ q, Relation.ReflTransGen (Turn g occupied goal) p q ∧ Ends g goal q (some i) ∧
      labels = q.labels := by
  fun_induction explore g occupied goal budget p with
  | case1 => cases h
  | case2 budget p c rest htop n l hlabel hnode hclosed ih =>
    obtain ⟨q, hturns, hends⟩ := ih h
    refine ⟨q, .head (.stale htop fun n' l' hnode' hlabel' => ?_) hturns, hends⟩
    cases hlabel.symm.trans hlabel'
    exact hclosed
  | case3 budget p c rest htop n l hlabel hnode hopen hreached =>
    cases h
    exact ⟨p, .refl, .found htop hnode hlabel (by simpa using hopen) hreached, rfl⟩
  | case4 => cases h
  | case5 p c rest htop n l hlabel hnode hopen hreached budget ih =>
    obtain ⟨q, hturns, hends⟩ := ih h
    exact ⟨q, .head (.expand htop hnode hlabel (by simpa using hopen) (by simpa using hreached))
      hturns, hends⟩
  | case6 budget p c rest htop hmissing ih =>
    obtain ⟨q, hturns, hends⟩ := ih h
    exact ⟨q, .head (.stale htop fun n l hnode hlabel => (hmissing n l hnode hlabel).elim) hturns,
      hends⟩

/-- **What turns lead to** is the answer under every budget that is large enough. -/
theorem explore_of_turns_ends (h : Relation.ReflTransGen (Turn g occupied goal) p q)
    (hends : Ends g goal q found?) :
    ∃ enough, ∀ budget, enough ≤ budget →
      explore g occupied goal budget p = (found?, q.labels) := by
  obtain ⟨spent, hspent⟩ := explore_of_turns h
  refine ⟨spent, fun budget hbudget => ?_⟩
  obtain ⟨more, rfl⟩ := Nat.exists_eq_add_of_le' hbudget
  rw [hspent, explore_of_ends hends]

/-! ## Running a search turn by turn -/

variable (g occupied goal) in
/-- The answer of a search that ends within some turns. -/
def answer? : (turns : Nat) → Progress → Option (Option Nat × Array Label)
  | 0, _ => none
  | turns + 1, p =>
    match p.frontier.pop? with
    | none => some (none, p.labels)
    | some (c, rest) =>
      match WalkGraph.node? g.nodes c.node, p.labels[c.node]? with
      | some n, some label =>
        if label.closed then answer? turns { p with frontier := rest }
        else if reached g goal n.cell then some (some c.node, p.labels)
        else answer? turns (expand g occupied goal c.node n label { p with frontier := rest })
      | _, _ => answer? turns { p with frontier := rest }

/-- An answer is there at once or after one turn more. -/
theorem answer?_cases {turns : Nat} {r : Option Nat × Array Label}
    (h : answer? g occupied goal (turns + 1) p = some r) :
    (∃ found?, Ends g goal p found? ∧ (found?, p.labels) = r) ∨
      ∃ q, Turn g occupied goal p q ∧ answer? g occupied goal turns q = some r := by
  rw [answer?] at h
  split at h
  · next htop => exact Or.inl ⟨none, .spent htop, Option.some.inj h⟩
  · next c rest htop =>
    split at h
    · next n l hnode hlabel =>
      split_ifs at h with hclosed hreached
      · refine Or.inr ⟨_, .stale htop fun n' l' _ hlabel' => ?_, h⟩
        cases hlabel.symm.trans hlabel'
        exact hclosed
      · exact Or.inl ⟨_, .found htop hnode hlabel (by simpa using hclosed) hreached,
          Option.some.inj h⟩
      · exact Or.inr ⟨_, .expand htop hnode hlabel (by simpa using hclosed)
          (by simpa using hreached), h⟩
    · next hmissing =>
      exact Or.inr ⟨_, .stale htop fun n l hnode hlabel => (hmissing n l hnode hlabel).elim, h⟩

/-- A budget for every turn is large enough. -/
theorem explore_of_answer? {turns budget : Nat} {r : Option Nat × Array Label}
    (h : answer? g occupied goal turns p = some r) (hbudget : turns ≤ budget) :
    explore g occupied goal budget p = r := by
  induction turns generalizing p budget with
  | zero => cases h
  | succ turns ih =>
    rcases answer?_cases h with ⟨found?, hends, hr⟩ | ⟨q, hturn, h⟩
    · rw [explore_of_ends hends, hr]
    · obtain ⟨spent, hspent, honce⟩ := explore_of_turn hturn
      obtain ⟨left, rfl⟩ : ∃ left, budget = left + spent := ⟨budget - spent, by omega⟩
      rw [honce]
      exact ih h (by omega)

/-! ## Every turn leads nearer to the end -/

/-- Nodes by their worth, of two of equal worth the closed one first. -/
def rank (size : Nat) (labels : Array Label) (i : Fin size) : WithTop (WithTop Nat) ×ₗ Bool :=
  toLex (worthAt labels i, !(labelAt labels i).closed)

theorem Advances.rank_le {size : Nat} (h : Advances p q) :
    rank size q.labels ≤ rank size p.labels := by
  intro i
  rcases h.label i with hsame | ⟨hless, -, -⟩
  · simp only [rank, worthAt, labelAt, hsame]
    exact le_rfl
  · exact (Prod.Lex.toLex_lt_toLex.mpr (Or.inl hless)).le

theorem rank_close_lt {size : Nat} {l : Label} (hi : i < size) (hlabel : p.labels[i]? = some l)
    (hwaits : l.closed = false) : rank size (close i p l).labels < rank size p.labels := by
  have hrank (j : Fin size) : rank size (close i p l).labels j =
      if i = j then toLex (worthAt p.labels i, false) else rank size p.labels j := by
    rw [rank, worthAt_close hlabel, labelAt_close hlabel]
    split
    · next hij =>
      rw [hij]
      rfl
    · rfl
  have hhere : rank size p.labels ⟨i, hi⟩ = toLex (worthAt p.labels i, true) := by
    rw [rank, labelAt_of_getElem? hlabel, hwaits]
    rfl
  have hless : toLex (worthAt p.labels i, false) < toLex (worthAt p.labels i, true) :=
    Prod.Lex.toLex_lt_toLex.mpr (Or.inr ⟨rfl, rfl⟩)
  refine Pi.lt_def.mpr ⟨fun j => ?_, ⟨i, hi⟩, ?_⟩
  · rw [hrank]
    split
    · next hij =>
      obtain rfl : j = ⟨i, hi⟩ := Fin.ext hij.symm
      rw [hhere]
      exact hless.le
    · exact le_rfl
  · rw [hrank, if_pos rfl, hhere]
    exact hless

/-- A turn lowers the rank of the labels, or keeps it and leaves fewer candidates. -/
theorem Turn.rank_lt (h : Turn g occupied goal p q) :
    Prod.Lex (· < ·) (· < ·) (rank g.nodes.size q.labels, q.frontier.size)
      (rank g.nodes.size p.labels, p.frontier.size) := by
  cases h with
  | stale htop => exact .right _ (Frontier.size_pop htop)
  | expand htop hnode hlabel hwaits =>
    refine .left _ _ (advances_expand.rank_le.trans_lt ?_)
    exact rank_close_lt (WalkGraph.lt_size_of_node? hnode) hlabel hwaits

/-- **Every search comes to an end.** -/
theorem exists_end (g : WalkGraph) (occupied : Cell → Bool) (goal : WalkGoal) (p : Progress) :
    ∃ q found?, Relation.ReflTransGen (Turn g occupied goal) p q ∧ Ends g goal q found? := by
  have hwf : WellFounded (Prod.Lex (· < ·) (· < ·) :
      (Fin g.nodes.size → WithTop (WithTop Nat) ×ₗ Bool) × Nat → _ → Prop) :=
    wellFounded_lt.prod_lex wellFounded_lt
  induction p using (InvImage.wf
    (fun p : Progress => (rank g.nodes.size p.labels, p.frontier.size)) hwf).induction with
  | _ p ih =>
    rcases turn_or_ends g occupied goal p with ⟨q, hturn⟩ | ⟨found?, hends⟩
    · obtain ⟨r, found?, hturns, hends⟩ := ih q hturn.rank_lt
      exact ⟨r, found?, .head hturn hturns, hends⟩
    · exact ⟨p, found?, .refl, hends⟩

end Cartridge.Finder
