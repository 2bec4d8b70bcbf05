import Cartridge.Proofs.Walk.Turn

/-!
# Verdict — looking up a cell once is as good as looking it up each time

A search notes whether the cell of a node is occupied when it first looks at the node.  While all
that it has noted is true (`Survey.Faithful`) an expansion does what it would do if every cell were
looked up anew, and leaves the notes true (`Survey.expand_eq`).  So a search that starts without
notes finds what it would find without them (`Survey.Faithful.explore_eq`).
-/

namespace Cartridge.Finder.Survey

variable {g : WalkGraph} {occupied : Cell → Bool} {goal : WalkGoal}
  {verdicts : Array (Option Bool)} {i : Nat} {n : WalkNode} {s : Survey}

variable (g occupied) in
/-- What has been noted about cells is true. -/
def Faithful (verdicts : Array (Option Bool)) : Prop :=
  ∀ i taken n, verdicts[i]? = some (some taken) → WalkGraph.node? g.nodes i = some n →
    taken = occupied n.cell

namespace Faithful

theorem blank : Faithful g occupied (blankVerdicts g) := by
  intro i taken n hi _
  rw [blankVerdicts, Array.getElem?_replicate] at hi
  split at hi <;> cases hi

/-- What a node's note says or, without one, its cell, is the verdict. -/
theorem verdict (h : Faithful g occupied verdicts) (hn : WalkGraph.node? g.nodes i = some n) :
    ((verdicts[i]?).join).getD (occupied n.cell) = occupied n.cell := by
  cases hnote : (verdicts[i]?).join with
  | none => rfl
  | some taken =>
    have hnoted : verdicts[i]? = some (some taken) := Option.join_eq_some_iff.mp hnote
    exact h i taken n hnoted hn

theorem set (h : Faithful g occupied verdicts) (hn : WalkGraph.node? g.nodes i = some n) :
    Faithful g occupied (verdicts.setIfInBounds i (some (occupied n.cell))) := by
  intro j taken k hj hk
  rw [Array.getElem?_setIfInBounds] at hj
  split at hj
  · next hij =>
    split at hj
    · obtain rfl : occupied n.cell = taken := Option.some.inj (Option.some.inj hj)
      rw [← hij, hn] at hk
      rw [Option.some.inj hk]
    · cases hj
  · exact h j taken k hj hk

end Faithful

/-- Relaxing asks for one cell only. -/
theorem relax_const (hn : WalkGraph.node? g.nodes i = some n) (source : Nat) (weight : Cost)
    (p : Progress) :
    relax g (fun _ => occupied n.cell) goal source weight p i =
      relax g occupied goal source weight p i := by
  unfold relax
  rw [hn]

/-- With true notes looking at a node is relaxing it. -/
theorem look_eq (h : Faithful g occupied s.verdicts) (goal : WalkGoal) (source : Nat)
    (weight : Cost) (next : Nat) :
    (s.look g occupied goal source weight next).toProgress =
        relax g occupied goal source weight s.toProgress next ∧
      Faithful g occupied (s.look g occupied goal source weight next).verdicts := by
  unfold look
  cases hn : WalkGraph.node? g.nodes next with
  | none =>
    refine ⟨?_, h⟩
    unfold relax
    rw [hn]
  | some n =>
    dsimp only
    rw [h.verdict hn]
    exact ⟨relax_const hn source weight s.toProgress, h.set hn⟩

theorem foldl_look_eq (h : Faithful g occupied s.verdicts) (goal : WalkGoal) (source : Nat)
    (weight : Cost) (links : List Nat) :
    (links.foldl (look g occupied goal source weight) s).toProgress =
        links.foldl (relax g occupied goal source weight) s.toProgress ∧
      Faithful g occupied (links.foldl (look g occupied goal source weight) s).verdicts := by
  induction links generalizing s with
  | nil => exact ⟨rfl, h⟩
  | cons next rest ih =>
    obtain ⟨hlook, hfaithful⟩ := look_eq h goal source weight next
    rw [List.foldl_cons, List.foldl_cons, ← hlook]
    exact ih hfaithful

/-- **With true notes an expansion is what it is without any**, and they stay true. -/
theorem expand_eq (h : Faithful g occupied s.verdicts) (goal : WalkGoal) (i : Nat) (n : WalkNode)
    (l : Label) :
    (s.expand g occupied goal i n l).toProgress =
        Finder.expand g occupied goal i n l s.toProgress ∧
      Faithful g occupied (s.expand g occupied goal i n l).verdicts := by
  have hclosed : Faithful g occupied
      { s with labels := s.labels.setIfInBounds i { l with closed := true } }.verdicts := h
  exact foldl_look_eq hclosed goal i (l.weight?.getD .zero) n.links.toList

/-- **A search that starts with true notes** finds what it would find without any. -/
theorem Faithful.explore_eq (h : Faithful g occupied s.verdicts) (budget : Nat) :
    ((s.explore g occupied goal budget).1, (s.explore g occupied goal budget).2.labels) =
      Finder.explore g occupied goal budget s.toProgress := by
  fun_induction s.explore g occupied goal budget with
  | case1 budget s htop => exact (explore_of_spent htop budget).symm
  | case2 budget s c rest htop n l hlabel hnode hclosed ih =>
    rw [explore_of_pop htop]
    simp only [hnode, hlabel, hclosed, if_true]
    exact ih h
  | case3 budget s c rest htop n l hlabel hnode hopen hreached =>
    rw [explore_of_pop htop]
    simp only [hnode, hlabel, hopen, hreached, if_true, Bool.false_eq_true, if_false]
  | case4 s c rest htop n l hlabel hnode hopen hreached =>
    rw [explore_of_pop htop]
    simp only [hnode, hlabel, hopen, hreached, Bool.false_eq_true, if_false]
  | case5 s c rest htop n l hlabel hnode hopen hreached budget ih =>
    rw [explore_of_pop htop]
    simp only [hnode, hlabel, hopen, hreached, Bool.false_eq_true, if_false]
    have hpopped : Faithful g occupied { s with frontier := rest }.verdicts := h
    obtain ⟨hexpand, hfaithful⟩ := expand_eq hpopped goal c.node n l
    rw [← hexpand]
    exact ih hfaithful
  | case6 budget s c rest htop hmissing ih =>
    rw [explore_of_pop htop]
    split
    · next n l hnode hlabel => exact (hmissing n l hnode hlabel).elim
    · exact ih h

end Cartridge.Finder.Survey
