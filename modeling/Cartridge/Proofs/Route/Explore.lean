import Cartridge.Proofs.Route.Candidate

/-!
# Explore — one look at a candidate, and all of them

The equations of `RouteFinder.explore` say what one look at a candidate does.  From them follows the
rule for whole searches, `RouteFinder.explore_induction`: what holds of the finder, the guide and
the waiting candidates at first, and is kept by asking about a hop and by looking at a candidate,
holds at the end, and a route is a complete candidate whose hops all have a verdict in favour.
-/

namespace Cartridge.RouteFinder

variable {σ : Type} {guide : Guide σ} {f f' : RouteFinder} {s s' : σ}

/-- A finder that has searched nothing yet. -/
def fresh (w : World) (maxCandidates : Nat) : RouteFinder where
  world := w
  maxCandidates := maxCandidates

/-! ## Exits -/

theorem charted_fresh (w : World) (n : Nat) : (fresh w n).Charted := by
  intro here m index c neighbor _ _ _ exits h
  simp [fresh] at h

theorem Charted.atGeneration (h : f.Charted) (generation : Nat) :
    (f.atGeneration generation).Charted := by
  unfold RouteFinder.atGeneration
  split <;> exact h

/-! ## Verdicts -/

@[simp] theorem world_atGeneration (generation : Nat) :
    (f.atGeneration generation).world = f.world := by
  unfold atGeneration
  split <;> rfl

@[simp] theorem maxCandidates_atGeneration (generation : Nat) :
    (f.atGeneration generation).maxCandidates = f.maxCandidates := by
  unfold atGeneration
  split <;> rfl

/-- A search begins in the generation that its guide reports. -/
theorem generation_atGeneration (generation : Nat) :
    (f.atGeneration generation).generation? = some generation := by
  unfold atGeneration
  split
  · next hsame => exact hsame
  · rfl

theorem verdict_clear (a : Spot) (e : Edge) : f.clear.verdict? a e = none := by
  simp [verdict?, clear]

/-- The finder with one more verdict. -/
def learn (f : RouteFinder) (start : Spot) (edge : Edge) (verdict : Bool) : RouteFinder :=
  { f with verdicts := f.verdicts.insert (start, edge) verdict }

theorem Charted.learn (h : f.Charted) (start : Spot) (edge : Edge) (verdict : Bool) :
    (f.learn start edge verdict).Charted := h

theorem verdict_learn (start a : Spot) (edge e : Edge) (verdict : Bool) :
    (f.learn start edge verdict).verdict? a e =
      if start = a ∧ edge = e then some verdict else f.verdict? a e := by
  simp only [verdict?, learn, Std.HashMap.getElem?_insert, beq_iff_eq, Prod.mk.injEq]

theorem judge_known {step : RouteStep} {verdict : Bool}
    (h : f.verdict? step.start step.edge = some verdict) :
    judge guide f s step = (verdict, f, s) := by
  simp only [judge, h]

theorem judge_new {step : RouteStep} (h : f.verdict? step.start step.edge = none) :
    judge guide f s step =
      ((guide.validate s step.start step.edge).1,
        f.learn step.start step.edge (guide.validate s step.start step.edge).1,
        (guide.validate s step.start step.edge).2) := by
  simp only [judge, h]
  rfl

/-! ## Candidates -/

section Equations

variable {queue later : Queue RouteCandidate} {c : RouteCandidate} {budget : Nat}

theorem explore_zero : explore guide f s queue 0 = (none, f, s) := by
  rw [explore]

theorem explore_empty (h : queue.pop? = none) :
    explore guide f s queue (budget + 1) = (none, f, s) := by
  rw [explore, h]

theorem explore_route (h : queue.pop? = some (c, later)) (hc : c.complete = true)
    (hb : firstBlocked? guide f s c.hops.reverse = (none, f', s')) :
    explore guide f s queue (budget + 1) = (some c.hops.reverse, f', s') := by
  rw [explore, h]
  simp only [hc, if_true, hb]

theorem explore_blocked {step : RouteStep} (h : queue.pop? = some (c, later))
    (hc : c.complete = true)
    (hb : firstBlocked? guide f s c.hops.reverse = (some step, f', s')) :
    explore guide f s queue (budget + 1) =
      explore guide f' s' (later.filter fun c => !c.uses step.start step.edge) budget := by
  rw [explore, h]
  simp only [hc, if_true, hb]

theorem explore_lost (h : queue.pop? = some (c, later)) (hc : c.complete = false)
    (hm : f.world.map? c.spot.map = none) :
    explore guide f s queue (budget + 1) = explore guide f s later budget := by
  rw [explore, h]
  simp only [hc, Bool.false_eq_true, if_false, hm]

theorem explore_onward {m : Map} (hf : f.Charted) (h : queue.pop? = some (c, later))
    (hc : c.complete = false) (hm : f.world.map? c.spot.map = some m) :
    ∃ exits, (f.withExits exits).Charted ∧ explore guide f s queue (budget + 1) =
      explore guide (f.withExits exits) (guide.check s m c.spot).2
        ((later.pushAll (completed c (guide.check s m c.spot).1).toList).pushAll
          (successors (f.world.crossings m) c)) budget := by
  obtain ⟨exits, hexits, hf'⟩ := crossings_eq hf hm
  refine ⟨exits, hf', ?_⟩
  rw [explore, h]
  simp only [hc, Bool.false_eq_true, if_false, hm, hexits]

end Equations

/-! ## The rule for searches -/

/-- What is kept by asking about a hop of a chain is kept by looking for its first blocked hop.  No
verdict is changed, and if no hop is blocked, all have a verdict in favour. -/
theorem firstBlocked_induction {P : RouteFinder → σ → Prop} {steps : List RouteStep}
    (ask : ∀ f s step, P f s → step ∈ steps → f.verdict? step.start step.edge = none →
      P (f.learn step.start step.edge (guide.validate s step.start step.edge).1)
        (guide.validate s step.start step.edge).2)
    (h : P f s) {blocked? : Option RouteStep}
    (hb : firstBlocked? guide f s steps = (blocked?, f', s')) :
    P f' s' ∧ (∀ a e v, f.verdict? a e = some v → f'.verdict? a e = some v) ∧
      (blocked? = none → ∀ step ∈ steps, f'.verdict? step.start step.edge = some true) := by
  induction steps generalizing f s with
  | nil =>
    cases hb
    exact ⟨h, fun _ _ _ hv => hv, fun _ _ hs => absurd hs List.not_mem_nil⟩
  | cons step rest ih =>
    -- Judging the first hop keeps everything and leaves its verdict behind.
    have hjudge : ∃ verdict g t, judge guide f s step = (verdict, g, t) ∧ P g t ∧
        (∀ a e v, f.verdict? a e = some v → g.verdict? a e = some v) ∧
        g.verdict? step.start step.edge = some verdict := by
      cases hv : f.verdict? step.start step.edge with
      | some verdict => exact ⟨verdict, f, s, judge_known hv, h, fun _ _ _ hk => hk, hv⟩
      | none =>
        refine ⟨_, _, _, judge_new hv, ask f s step h List.mem_cons_self hv, fun a e v hk => ?_, ?_⟩
        · rw [verdict_learn]
          split
          · next heq =>
            rw [heq.1, heq.2, hk] at hv
            cases hv
          · exact hk
        · rw [verdict_learn, if_pos ⟨rfl, rfl⟩]
    obtain ⟨verdict, g, t, hj, hP, hkeep, hverdict⟩ := hjudge
    rw [firstBlocked?, hj] at hb
    cases verdict with
    | false =>
      cases hb
      exact ⟨hP, hkeep, fun hnone => by cases hnone⟩
    | true =>
      obtain ⟨hP', hkeep', hall⟩ :=
        ih (fun f s step hf hs => ask f s step hf (List.mem_cons_of_mem _ hs)) hP hb
      refine ⟨hP', fun a e v hk => hkeep' a e v (hkeep a e v hk), fun hnone x hx => ?_⟩
      rcases List.mem_cons.mp hx with rfl | hx
      · exact hkeep' _ _ _ hverdict
      · exact hall hnone x hx

/-- **The rule for searches.**  What is kept by remembering exits, by dropping candidates, by asking
about a hop of a complete one and by looking at one that is not, holds at the end, and a route is a
complete candidate whose hops all have a verdict in favour. -/
theorem explore_induction {P : RouteFinder → σ → List RouteCandidate → Prop}
    (chart : ∀ f s q exits, P f s q → P (f.withExits exits) s q)
    (drop : ∀ f s q q', P f s q → q'.Sublist q → P f s q')
    (ask : ∀ f s q c step, P f s (c :: q) → c.complete = true → step ∈ c.hops →
      f.verdict? step.start step.edge = none →
      P (f.learn step.start step.edge (guide.validate s step.start step.edge).1)
        (guide.validate s step.start step.edge).2 (c :: q))
    (look : ∀ f s q c m, P f s (c :: q) → c.complete = false → f.world.map? c.spot.map = some m →
      P f (guide.check s m c.spot).2
        (q ++ (completed c (guide.check s m c.spot).1).toList ++
          successors (f.world.crossings m) c))
    {queue : Queue RouteCandidate} (budget : Nat) (hf : f.Charted) (h : P f s queue.toList)
    {route? : Option (List RouteStep)} (hr : explore guide f s queue budget = (route?, f', s')) :
    f'.Charted ∧ ∃ q, P f' s' q ∧ ∀ route, route? = some route → ∃ c ∈ q, c.complete = true ∧
      route = c.hops.reverse ∧ ∀ step ∈ route, f'.verdict? step.start step.edge = some true := by
  induction budget generalizing f s queue with
  | zero =>
    rw [explore_zero] at hr
    cases hr
    exact ⟨hf, _, h, fun _ hroute => by cases hroute⟩
  | succ budget ih =>
    cases hpop : queue.pop? with
    | none =>
      rw [explore_empty hpop] at hr
      cases hr
      exact ⟨hf, _, h, fun _ hroute => by cases hroute⟩
    | some p =>
      obtain ⟨c, later⟩ := p
      rw [Queue.toList_of_pop hpop] at h
      cases hc : c.complete with
      | true =>
        obtain ⟨blocked?, g, t, hb⟩ : ∃ blocked? g t,
            firstBlocked? guide f s c.hops.reverse = (blocked?, g, t) := ⟨_, _, _, rfl⟩
        obtain ⟨⟨hg, hcharted⟩, -, hall⟩ := firstBlocked_induction
          (P := fun f s => P f s (c :: later.toList) ∧ f.Charted)
          (fun f s step hf hs hnew => ⟨ask f s _ c step hf.1 hc (List.mem_reverse.mp hs) hnew,
            hf.2.learn _ _ _⟩) ⟨h, hf⟩ hb
        cases blocked? with
        | none =>
          rw [explore_route hpop hc hb] at hr
          cases hr
          refine ⟨hcharted, _, hg, fun route hroute => ⟨c, List.mem_cons_self, hc, ?_, ?_⟩⟩
          · exact (Option.some.inj hroute).symm
          · rw [← Option.some.inj hroute]
            exact hall rfl
        | some step =>
          rw [explore_blocked hpop hc hb] at hr
          refine ih hcharted (drop _ _ _ _ hg ?_) hr
          rw [Queue.toList_filter]
          exact List.filter_sublist.trans (List.sublist_cons_self _ _)
      | false =>
        cases hm : f.world.map? c.spot.map with
        | none =>
          rw [explore_lost hpop hc hm] at hr
          exact ih hf (drop _ _ _ _ h (List.sublist_cons_self _ _)) hr
        | some m =>
          obtain ⟨exits, hf', honward⟩ := explore_onward hf hpop hc hm
          rw [honward] at hr
          refine ih hf' (chart _ _ _ exits ?_) hr
          rw [Queue.toList_pushAll, Queue.toList_pushAll]
          exact look f s _ c m h hc hm

end Cartridge.RouteFinder
