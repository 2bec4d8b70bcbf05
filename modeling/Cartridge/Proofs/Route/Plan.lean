import Cartridge.Proofs.Route.Explore

/-!
# Plan — a search without memory

If the answers of a guide depend only on what is asked, remembering verdicts and exits makes no
difference: `RouteFinder.explore` finds what `World.plan` finds, which looks at the same candidates
in the same order and asks afresh each time (`RouteFinder.explore_eq_plan`).
-/

namespace Cartridge

/-- While its state satisfies `S`, the answers of the guide depend only on what it is asked. -/
structure Guide.Answers {σ : Type} (guide : Guide σ) (S : σ → Prop)
    (walkable : Spot → Edge → Bool) (goal : Map → Spot → Goal) : Prop where
  validate : ∀ s, S s → ∀ a e, (guide.validate s a e).1 = walkable a e ∧ S (guide.validate s a e).2
  check : ∀ s, S s → ∀ m a, (guide.check s m a).1 = goal m a ∧ S (guide.check s m a).2

/-- The first hop of a chain that cannot be walked. -/
def blocked? (walkable : Spot → Edge → Bool) (hops : List RouteStep) : Option RouteStep :=
  hops.find? fun step => !walkable step.start step.edge

theorem blocked_cons_of_walkable {walkable : Spot → Edge → Bool} {step : RouteStep}
    {rest : List RouteStep} (h : walkable step.start step.edge = true) :
    blocked? walkable (step :: rest) = blocked? walkable rest :=
  List.find?_cons_of_neg (by simp [h])

theorem blocked_cons_of_blocked {walkable : Spot → Edge → Bool} {step : RouteStep}
    {rest : List RouteStep} (h : walkable step.start step.edge = false) :
    blocked? walkable (step :: rest) = some step :=
  List.find?_cons_of_pos (by simp [h])

theorem blocked_eq_none {walkable : Spot → Edge → Bool} {hops : List RouteStep}
    (h : blocked? walkable hops = none) : ∀ step ∈ hops, walkable step.start step.edge = true := by
  simpa [blocked?] using h

theorem blocked_eq_some {walkable : Spot → Edge → Bool} {hops : List RouteStep} {step : RouteStep}
    (h : blocked? walkable hops = some step) :
    step ∈ hops ∧ walkable step.start step.edge = false :=
  ⟨List.mem_of_find?_eq_some h, by simpa using List.find?_some h⟩

/-- The first walkable chain to the goal among waiting candidates and what comes of them, if
`budget` looks are enough. -/
def World.plan (w : World) (goal : Map → Spot → Goal) (walkable : Spot → Edge → Bool) :
    List RouteCandidate → (budget : Nat) → Option (List RouteStep)
  | _, 0 => none
  | [], _ + 1 => none
  | c :: queue, budget + 1 =>
    if c.complete then
      match blocked? walkable c.hops.reverse with
      | none => some c.hops.reverse
      | some step =>
        plan w goal walkable (queue.filter fun c => !c.uses step.start step.edge) budget
    else
      match w.map? c.spot.map with
      | none => plan w goal walkable queue budget
      | some m =>
        plan w goal walkable (queue ++ (RouteFinder.completed c (goal m c.spot)).toList ++
          RouteFinder.successors (w.crossings m) c) budget

namespace RouteFinder

variable {σ : Type} {guide : Guide σ} {S : σ → Prop} {walkable : Spot → Edge → Bool}
  {goal : Map → Spot → Goal} {f : RouteFinder} {s : σ}

/-- The remembered verdicts are what the guide would answer. -/
def Remembers (f : RouteFinder) (walkable : Spot → Edge → Bool) : Prop :=
  ∀ a e v, f.verdict? a e = some v → v = walkable a e

theorem Remembers.learn (h : f.Remembers walkable) (a : Spot) (e : Edge) :
    (f.learn a e (walkable a e)).Remembers walkable := by
  intro b e' v hv
  rw [verdict_learn] at hv
  split at hv
  · next heq =>
    rw [← heq.1, ← heq.2]
    exact (Option.some.inj hv).symm
  · exact h b e' v hv

/-- Verdicts of another generation are forgotten, so those of this one need be right only. -/
theorem Remembers.atGeneration {generation : Nat}
    (h : f.generation? = some generation → f.Remembers walkable) :
    (f.atGeneration generation).Remembers walkable := by
  unfold RouteFinder.atGeneration
  split
  · next hgeneration => exact h hgeneration
  · intro a e v hv
    have hnone : f.clear.verdict? a e = some v := hv
    rw [verdict_clear] at hnone
    cases hnone

theorem firstBlocked_eq
    (hg : ∀ s, S s → ∀ a e, (guide.validate s a e).1 = walkable a e ∧ S (guide.validate s a e).2)
    (hf : f.Remembers walkable) (hs : S s) (steps : List RouteStep) :
    ∃ g t, firstBlocked? guide f s steps = (blocked? walkable steps, g, t) ∧
      g.Remembers walkable ∧ S t ∧ g.world = f.world ∧ (f.Charted → g.Charted) := by
  induction steps generalizing f s with
  | nil => exact ⟨f, s, rfl, hf, hs, rfl, id⟩
  | cons step rest ih =>
    have hjudge : ∃ g t, judge guide f s step = (walkable step.start step.edge, g, t) ∧
        g.Remembers walkable ∧ S t ∧ g.world = f.world ∧ (f.Charted → g.Charted) := by
      cases hv : f.verdict? step.start step.edge with
      | some verdict =>
        rw [judge_known hv, hf _ _ _ hv]
        exact ⟨f, s, rfl, hf, hs, rfl, id⟩
      | none =>
        obtain ⟨hanswer, ht⟩ := hg s hs step.start step.edge
        rw [judge_new hv, hanswer]
        exact ⟨_, _, rfl, hf.learn _ _, ht, rfl, fun hcharted => hcharted.learn _ _ _⟩
    obtain ⟨g, t, hj, hg', ht, hw, hchart⟩ := hjudge
    rw [firstBlocked?, hj]
    cases hverdict : walkable step.start step.edge with
    | true =>
      obtain ⟨g', t', hrest, hg'', ht', hw', hchart'⟩ := ih hg' ht
      refine ⟨g', t', ?_, hg'', ht', hw'.trans hw, hchart' ∘ hchart⟩
      dsimp only
      rw [hrest, blocked_cons_of_walkable hverdict]
    | false =>
      refine ⟨g, t, ?_, hg', ht, hw, hchart⟩
      rw [blocked_cons_of_blocked hverdict]

/-- **Remembering makes no difference**: a search finds what it would find asking afresh. -/
theorem explore_eq_plan (hg : guide.Answers S walkable goal) (hf : f.Remembers walkable)
    (hcharted : f.Charted) (hs : S s) (queue : Queue RouteCandidate) (budget : Nat) :
    (explore guide f s queue budget).1 = f.world.plan goal walkable queue.toList budget := by
  induction budget generalizing f s queue with
  | zero => rw [explore_zero, World.plan]
  | succ budget ih =>
    cases hpop : queue.pop? with
    | none => rw [explore_empty hpop, Queue.pop?_eq_none_iff.mp hpop, World.plan]
    | some p =>
      obtain ⟨c, later⟩ := p
      rw [Queue.toList_of_pop hpop, World.plan]
      cases hc : c.complete with
      | true =>
        obtain ⟨g, t, hb, hg', ht, hw, hchart⟩ := firstBlocked_eq hg.validate hf hs c.hops.reverse
        rw [if_pos rfl]
        cases hblocked : blocked? walkable c.hops.reverse with
        | none =>
          rw [hblocked] at hb
          rw [explore_route hpop hc hb]
        | some step =>
          rw [hblocked] at hb
          rw [explore_blocked hpop hc hb, ih hg' (hchart hcharted) ht, Queue.toList_filter, hw]
      | false =>
        rw [if_neg (by simp)]
        cases hm : f.world.map? c.spot.map with
        | none => rw [explore_lost hpop hc hm, ih hf hcharted hs]
        | some m =>
          obtain ⟨hanswer, ht⟩ := hg.check s hs m c.spot
          obtain ⟨exits, hcharted', honward⟩ := explore_onward hcharted hpop hc hm
          rw [honward, ih (f := f.withExits exits) hf hcharted' ht, Queue.toList_pushAll,
            Queue.toList_pushAll, hanswer]
          rfl

/-- A search finds what it would find asking afresh, if the verdicts that it has of the generation
are what the guide would answer. -/
theorem search_eq_plan (hg : guide.Answers S walkable goal) (hcharted : f.Charted) (hs : S s)
    (hf : f.generation? = some (guide.generation s) → f.Remembers walkable) (start : Spot) :
    (search guide f s start).1 =
      f.world.plan goal walkable [⟨start, [], [start], false⟩] f.maxCandidates := by
  rw [search, explore_eq_plan hg (.atGeneration hf) (hcharted.atGeneration _) hs,
    Queue.toList_ofList, world_atGeneration, maxCandidates_atGeneration]

end RouteFinder

end Cartridge
