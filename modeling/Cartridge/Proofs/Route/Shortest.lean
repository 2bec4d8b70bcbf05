import Cartridge.Proofs.Route.Plan
import Cartridge.Proofs.Route.Room

/-!
# Shortest — a search finds a walkable route over the fewest borders and warps

A *solution* is a trail of walkable hops to a place that meets the goal.  As long as candidates
wait, every simple solution is covered by one: by a candidate that it starts with, or by its own
complete candidate.  Dropping the candidates that use a blocked hop drops no solution, although the
verdict comes only once a candidate is complete.  Candidates wait in the order of their depth
(`Layered`), so the first one found walkable is the least deep solution; and the candidates that can
still come of a queue are finitely many (`load`), so a large enough budget looks at all of them.
-/

namespace Cartridge

namespace World

variable (w : World) (goal : Map → Spot → Goal) (walkable : Spot → Edge → Bool)

/-- A place meets the goal by `rest`: by standing there, or by the one hop that the goal asks for.
-/
def Meets (here : Spot) (rest : List RouteStep) : Prop :=
  ∃ m, w.map? here.map = some m ∧ (goal m here).rest? here = some rest

/-- A trail of walkable hops to a place that meets the goal. -/
structure Solves (start : Spot) (hops : List RouteStep) (here : Spot) (rest : List RouteStep) :
    Prop where
  trail : w.Trail start hops here
  met : w.Meets goal here rest
  walkable : ∀ step ∈ hops ++ rest, walkable step.start step.edge = true

end World

namespace RouteCandidate

variable {start here : Spot} {hops rest : List RouteStep} {c d : RouteCandidate}

/-- The candidate is a beginning of a solution, or all of it. -/
inductive Covers (start : Spot) :
    RouteCandidate → List RouteStep → Spot → List RouteStep → Prop where
  | onWay {hops : List RouteStep} {mid : Spot} (more : List RouteStep) (here : Spot)
    (rest : List RouteStep) : Covers start (onWay start hops mid) (hops ++ more) here rest
  | atGoal (hops : List RouteStep) (here : Spot) (rest : List RouteStep) :
    Covers start (atGoal start hops here rest) hops here rest

/-- The order in which candidates wait. -/
def rank (c : RouteCandidate) : Nat :=
  c.visited.length + if c.complete then 1 else 0

theorem rank_onWay : (onWay start hops here).rank = hops.length + 1 := by
  simp [rank, onWay, spots]

theorem rank_atGoal : (atGoal start hops here rest).rank = hops.length + 2 := by
  simp [rank, atGoal, spots]

theorem Covers.rank_le (h : c.Covers start hops here rest) : c.rank ≤ hops.length + 2 := by
  cases h with
  | onWay more =>
    rw [rank_onWay, List.length_append]
    omega
  | atGoal => rw [rank_atGoal]

/-- The hops of a candidate are hops of the solutions that it covers. -/
theorem Covers.hops_subset (h : c.Covers start hops here rest) :
    ∀ step ∈ c.hops, step ∈ hops ++ rest := by
  intro step hstep
  cases h with
  | onWay more =>
    have := List.mem_reverse.mp hstep
    simp [this]
  | atGoal => exact List.mem_reverse.mp hstep

end RouteCandidate

namespace World

open RouteCandidate RouteFinder

variable {w : World} {goal : Map → Spot → Goal} {walkable : Spot → Edge → Bool}
  {start here : Spot} {hops rest : List RouteStep} {c : RouteCandidate}
  {queue : List RouteCandidate}

/-! ## Solutions that are still waited for -/

/-- A simple solution that some waiting candidate covers. -/
structure Awaits (w : World) (goal : Map → Spot → Goal) (walkable : Spot → Edge → Bool)
    (start : Spot) (queue : List RouteCandidate) (hops : List RouteStep) (here : Spot)
    (rest : List RouteStep) : Prop where
  solves : w.Solves goal walkable start hops here rest
  simple : (spots start hops).Nodup
  covered : ∃ c ∈ queue, c.Covers start hops here rest

namespace Awaits

/-- A candidate that cannot be walked covers no solution, and no other one that uses the blocked hop
does. -/
theorem of_blocked (h : w.Awaits goal walkable start (c :: queue) hops here rest) {step : RouteStep}
    (hstep : step ∈ c.hops) (hblocked : walkable step.start step.edge = false) :
    w.Awaits goal walkable start (queue.filter fun c => !c.uses step.start step.edge) hops here
      rest := by
  obtain ⟨d, hd, hcover⟩ := h.covered
  have hfree : ¬d.uses step.start step.edge = true := by
    intro huses
    obtain ⟨step', hmem, hstart, hedge⟩ := uses_iff.mp huses
    have hwalk := h.solves.walkable step' (hcover.hops_subset step' hmem)
    rw [hstart, hedge, hblocked] at hwalk
    cases hwalk
  refine ⟨h.solves, h.simple, d, ?_, hcover⟩
  rcases List.mem_cons.mp hd with rfl | hd
  · exact absurd (uses_iff.mpr ⟨step, hstep, rfl, rfl⟩) hfree
  · exact List.mem_filter.mpr ⟨hd, by simpa using hfree⟩

/-- What a solution does at the place of a candidate that it starts with: it ends there, or leaves
the map by a hop to a new place. -/
theorem next (h : w.Solves goal walkable start hops here rest) (hsimple : (spots start hops).Nodup)
    (hc : c.complete = false) (hfollows : c.Follows w (w.Meets goal) start)
    (hcover : c.Covers start hops here rest) :
    ∃ m, w.map? c.spot.map = some m ∧
      ((∃ d ∈ (completed c (goal m c.spot)).toList, d.Covers start hops here rest) ∨
        ∃ d ∈ successors (w.crossings m) c, d.Covers start hops here rest) := by
  cases hcover with
  | atGoal => cases hc
  | @onWay pre mid more =>
    obtain ⟨pre', hform, htrail, -⟩ := hfollows.of_not_complete hc
    obtain rfl : pre = pre' := by
      have := congrArg RouteCandidate.hops hform
      simpa [RouteCandidate.onWay] using this
    obtain ⟨b, hb, hbc⟩ := h.trail.split
    obtain rfl := htrail.finish_unique hb
    cases hbc with
    | here =>
      obtain ⟨m, hm, hrest⟩ := h.met
      refine ⟨m, hm, Or.inl ⟨_, mem_completed_onWay.mpr ⟨rest, hrest, rfl⟩, ?_⟩⟩
      rw [List.append_nil]
      exact .atGoal _ _ _
    | @cross _ finish _ edge tail hop onward =>
      obtain ⟨m, hm, hcross⟩ := hop
      refine ⟨m, hm, Or.inr ⟨_, mem_successors_onWay.mpr ⟨edge, finish, hcross, ?_, rfl⟩, ?_⟩⟩
      · have hnodup : (spots start pre ++ finish :: tail.map RouteStep.finish).Nodup := by
          simpa [spots] using hsimple
        exact fun hmem => List.disjoint_of_nodup_append hnodup hmem List.mem_cons_self
      · rw [List.append_cons pre _ tail]
        exact .onWay _ _ _

/-- A candidate on a map that the world does not have covers no solution. -/
theorem of_lost (h : w.Awaits goal walkable start (c :: queue) hops here rest)
    (hc : c.complete = false) (hfollows : c.Follows w (w.Meets goal) start)
    (hm : w.map? c.spot.map = none) : w.Awaits goal walkable start queue hops here rest := by
  obtain ⟨d, hd, hcover⟩ := h.covered
  refine ⟨h.solves, h.simple, d, ?_, hcover⟩
  rcases List.mem_cons.mp hd with rfl | hd
  · obtain ⟨m, hm', -⟩ := next h.solves h.simple hc hfollows hcover
    rw [hm] at hm'
    cases hm'
  · exact hd

/-- What comes of a candidate covers the solutions that it covers. -/
theorem onward (h : w.Awaits goal walkable start (c :: queue) hops here rest)
    (hc : c.complete = false) (hfollows : c.Follows w (w.Meets goal) start) {m : Map}
    (hm : w.map? c.spot.map = some m) :
    w.Awaits goal walkable start
      (queue ++ ((completed c (goal m c.spot)).toList ++ successors (w.crossings m) c)) hops here
      rest := by
  obtain ⟨d, hd, hcover⟩ := h.covered
  rcases List.mem_cons.mp hd with rfl | hd
  · obtain ⟨m', hm', hnext⟩ := next h.solves h.simple hc hfollows hcover
    obtain rfl : m = m' := Option.some.inj (hm.symm.trans hm')
    refine ⟨h.solves, h.simple, ?_⟩
    rcases hnext with ⟨d', hd', hcover'⟩ | ⟨d', hd', hcover'⟩
    · exact ⟨d', List.mem_append_right _ (List.mem_append_left _ hd'), hcover'⟩
    · exact ⟨d', List.mem_append_right _ (List.mem_append_right _ hd'), hcover'⟩
  · exact ⟨h.solves, h.simple, d, List.mem_append_left _ hd, hcover⟩

end Awaits

/-! ## Order -/

/-- What comes of a candidate waits one rank behind it. -/
theorem rank_next {m : Map} {g : Goal} {d : RouteCandidate} (hc : c.complete = false)
    (hd : d ∈ (completed c g).toList ++ successors (w.crossings m) c) : d.rank = c.rank + 1 := by
  rcases List.mem_append.mp hd with hd | hd
  · cases g with
    | notYet => exact absurd hd List.not_mem_nil
    | reached | approach =>
      obtain rfl := List.mem_singleton.mp hd
      simp [rank, hc]
  · obtain ⟨edge, finish, -, -, rfl⟩ := mem_successors.mp hd
    simp [rank, extend, hc]

/-- Candidates wait in the order of their rank, at most two ranks at a time. -/
def Layered (queue : List RouteCandidate) : Prop :=
  queue.Pairwise fun a b => a.rank ≤ b.rank ∧ b.rank ≤ a.rank + 1

theorem Layered.onward (h : Layered (c :: queue)) {new : List RouteCandidate}
    (hnew : ∀ d ∈ new, d.rank = c.rank + 1) : Layered (queue ++ new) := by
  obtain ⟨hc, hqueue⟩ := List.pairwise_cons.mp h
  refine List.pairwise_append.mpr ⟨hqueue, ?_, fun a ha b hb => ?_⟩
  · refine List.pairwise_of_forall_mem_list fun a ha b hb => ?_
    have := hnew a ha
    have := hnew b hb
    omega
  · have := hc a ha
    have := hnew b hb
    omega

theorem Layered.sublist (h : Layered (c :: queue)) {less : List RouteCandidate}
    (hless : less.Sublist queue) : Layered less :=
  (List.pairwise_cons.mp h).2.sublist hless

/-! ## What a search finds -/

/-- The result is a least deep solution among those awaited, and nothing only if none is. -/
def Best (w : World) (goal : Map → Spot → Goal) (walkable : Spot → Edge → Bool) (start : Spot)
    (queue : List RouteCandidate) : Option (List RouteStep) → Prop
  | none => ∀ hops here rest, ¬w.Awaits goal walkable start queue hops here rest
  | some route => ∃ hops here rest, route = hops ++ rest ∧
      w.Solves goal walkable start hops here rest ∧
      ∀ hops' here' rest', w.Awaits goal walkable start queue hops' here' rest' →
        hops.length ≤ hops'.length

theorem Best.mono {later : List RouteCandidate} {route? : Option (List RouteStep)}
    (h : w.Best goal walkable start later route?)
    (hawaits : ∀ hops here rest, w.Awaits goal walkable start queue hops here rest →
      w.Awaits goal walkable start later hops here rest) :
    w.Best goal walkable start queue route? := by
  cases route? with
  | none => exact fun hops here rest hq => h hops here rest (hawaits _ _ _ hq)
  | some route =>
    obtain ⟨hops, here, rest, hroute, hsolves, hleast⟩ := h
    exact ⟨hops, here, rest, hroute, hsolves, fun _ _ _ hq => hleast _ _ _ (hawaits _ _ _ hq)⟩

/-- The first waiting candidate is a least deep solution if it is one. -/
theorem best_of_first (hlayered : Layered (c :: queue))
    (hfollows : c.Follows w (w.Meets goal) start)
    (hc : c.complete = true)
    (hwalk : ∀ step ∈ c.hops.reverse, walkable step.start step.edge = true) :
    w.Best goal walkable start (c :: queue) (some c.hops.reverse) := by
  obtain ⟨hops, rest, hform, htrail, -, hmet⟩ := hfollows.of_complete hc
  have hroute : c.hops.reverse = hops ++ rest := by
    rw [hform]
    simp [RouteCandidate.atGoal]
  have hrank : c.rank = hops.length + 2 := by rw [hform, rank_atGoal]
  refine ⟨hops, c.spot, rest, hroute, ⟨htrail, hmet, hroute ▸ hwalk⟩, fun hops' here' rest' h => ?_⟩
  obtain ⟨d, hd, hcover⟩ := h.covered
  have hdeep := hcover.rank_le
  have horder : c.rank ≤ d.rank := by
    rcases List.mem_cons.mp hd with rfl | hd
    · exact Nat.le_refl _
    · exact ((List.pairwise_cons.mp hlayered).1 d hd).1
  omega

/-- **A plan with enough looks left finds a least deep solution among those awaited.** -/
theorem best_plan (budget : Nat) (hfollows : ∀ c ∈ queue, c.Follows w (w.Meets goal) start)
    (hlayered : Layered queue) (hload : w.load queue ≤ budget) :
    w.Best goal walkable start queue (w.plan goal walkable queue budget) := by
  induction budget generalizing queue with
  | zero =>
    intro hops here rest h
    obtain ⟨c, hc, -⟩ := h.covered
    have hpos : 0 < w.looksAt c := looksAt_pos
    have hle := load_sublist (w := w) (List.singleton_sublist.mpr hc)
    rw [load_cons] at hle
    omega
  | succ budget ih =>
    cases queue with
    | nil =>
      rintro hops here rest ⟨-, -, c, hc, -⟩
      exact absurd hc List.not_mem_nil
    | cons c queue =>
      have hc' := hfollows c List.mem_cons_self
      have hqueue : ∀ d ∈ queue, d.Follows w (w.Meets goal) start := fun d hd =>
        hfollows d (List.mem_cons_of_mem _ hd)
      have hpos : 0 < w.looksAt c := looksAt_pos
      rw [load_cons] at hload
      rw [plan]
      cases hc : c.complete with
      | true =>
        rw [if_pos rfl]
        cases hblocked : blocked? walkable c.hops.reverse with
        | none => exact best_of_first hlayered hc' hc (blocked_eq_none hblocked)
        | some step =>
          obtain ⟨hstep, hverdict⟩ := blocked_eq_some hblocked
          have hless : (queue.filter fun c => !c.uses step.start step.edge).Sublist queue :=
            List.filter_sublist
          have hroom := load_sublist (w := w) hless
          exact (ih (fun d hd => hqueue d (hless.subset hd)) (hlayered.sublist hless)
            (by omega)).mono fun _ _ _ h => h.of_blocked (List.mem_reverse.mp hstep) hverdict
      | false =>
        rw [if_neg (by simp)]
        cases hm : w.map? c.spot.map with
        | none =>
          exact (ih hqueue (hlayered.sublist (List.Sublist.refl _)) (by omega)).mono
            fun _ _ _ h => h.of_lost hc hc' hm
        | some m =>
          have hroom := load_onward hm hc (goal m c.spot)
          dsimp only
          rw [List.append_assoc]
          refine (ih (fun d hd => ?_) (hlayered.onward fun d => rank_next hc) ?_).mono
            fun _ _ _ h => h.onward hc hc' hm
          · rcases List.mem_append.mp hd with hd | hd
            · exact hqueue d hd
            · exact (List.mem_append.mp hd).elim
                (hc'.completed hc fun rest hrest => ⟨m, hm, hrest⟩) (hc'.successors hc hm)
          · rw [load_append]
            omega

/-! ## Solutions without detours -/

/-- A solution with places twice can be shortened to one without. -/
theorem Solves.exists_simple (h : w.Solves goal walkable start hops here rest) :
    ∃ way, w.Solves goal walkable start way here rest ∧ (spots start way).Nodup ∧
      way.length ≤ hops.length := by
  obtain ⟨way, htrail, hnodup, hsub⟩ := h.trail.exists_simple
  refine ⟨way, ⟨htrail, h.met, fun step hstep => h.walkable step ?_⟩, hnodup, hsub.length_le⟩
  exact (List.mem_append.mp hstep).elim (fun hs => List.mem_append_left _ (hsub.subset hs))
    (List.mem_append_right _)

/-- The candidate that a search starts with covers every simple solution. -/
theorem Solves.awaits (h : w.Solves goal walkable start hops here rest)
    (hsimple : (spots start hops).Nodup) :
    w.Awaits goal walkable start [⟨start, [], [start], false⟩] hops here rest :=
  ⟨h, hsimple, RouteCandidate.onWay start [] start, List.mem_singleton.mpr rfl,
    .onWay hops here rest⟩

end World

namespace RouteFinder

open World

/-- **A search is complete and crosses the fewest borders.**  If the guide's answers depend only on
what is asked, then with enough candidates allowed a new finder finds a route exactly if there is a
solution, and the route is a solution with the fewest crossings. -/
theorem search_shortest {σ : Type} (guide : Guide σ) (w : World) (start : Spot)
    (goal : Map → Spot → Goal) (walkable : Spot → Edge → Bool)
    (hcheck : ∀ s m a, (guide.check s m a).1 = goal m a)
    (hvalidate : ∀ s a e, (guide.validate s a e).1 = walkable a e) :
    ∃ enough, ∀ n, enough ≤ n → ∀ s,
      ((search guide (.fresh w n) s start).1.isSome ↔
        ∃ hops here rest, w.Solves goal walkable start hops here rest) ∧
      ∀ route, (search guide (.fresh w n) s start).1 = some route →
        ∃ hops here rest, route = hops ++ rest ∧ w.Solves goal walkable start hops here rest ∧
          ∀ hops' here' rest', w.Solves goal walkable start hops' here' rest' →
            hops.length ≤ hops'.length := by
  refine ⟨w.load [⟨start, [], [start], false⟩], fun n hn s => ?_⟩
  have hanswers : guide.Answers (fun _ => True) walkable goal :=
    ⟨fun s _ a e => ⟨hvalidate s a e, trivial⟩, fun s _ m a => ⟨hcheck s m a, trivial⟩⟩
  have hplan : (search guide (.fresh w n) s start).1 =
      w.plan goal walkable [⟨start, [], [start], false⟩] n :=
    search_eq_plan hanswers (charted_fresh w n) trivial (fun hgeneration => by cases hgeneration)
      start
  have hbest : w.Best goal walkable start [⟨start, [], [start], false⟩]
      (w.plan goal walkable [⟨start, [], [start], false⟩] n) :=
    best_plan n (fun c hc => List.mem_singleton.mp hc ▸ RouteCandidate.Follows.first)
      (List.pairwise_singleton _ _) hn
  rw [hplan]
  cases hroute : w.plan goal walkable [⟨start, [], [start], false⟩] n with
  | none =>
    rw [hroute] at hbest
    refine ⟨⟨fun h => absurd h (by simp), ?_⟩, fun route h => absurd h (by simp)⟩
    rintro ⟨hops, here, rest, h⟩
    obtain ⟨way, hway, hsimple, -⟩ := h.exists_simple
    exact absurd (hway.awaits hsimple) (hbest _ _ _)
  | some route =>
    rw [hroute] at hbest
    obtain ⟨hops, here, rest, hform, hsolves, hleast⟩ := hbest
    refine ⟨⟨fun _ => ⟨hops, here, rest, hsolves⟩, fun _ => rfl⟩, ?_⟩
    rintro _ ⟨⟩
    refine ⟨hops, here, rest, hform, hsolves, fun hops' here' rest' h => ?_⟩
    obtain ⟨way, hway, hsimple, hshort⟩ := h.exists_simple
    exact (hleast _ _ _ (hway.awaits hsimple)).trans hshort

/-- A room with nothing but warps. -/
def room (number : UInt8) (warps : Array Warp) : Map where
  id := ⟨0, number⟩
  width := 1
  height := 1
  tiles := #[]
  warps := warps

/-- The first of three rooms, each with a warp to both others. -/
def firstRoom : Map :=
  room 0 #[⟨0, 0, 0, 0, ⟨0, 1⟩⟩, ⟨0, 0, 0, 0, ⟨0, 2⟩⟩]

/-- The second of three rooms, each with a warp to both others. -/
def secondRoom : Map :=
  room 1 #[⟨0, 0, 0, 0, ⟨0, 0⟩⟩, ⟨0, 0, 0, 1, ⟨0, 2⟩⟩]

/-- The third of three rooms, each with a warp to both others. -/
def thirdRoom : Map :=
  room 2 #[⟨0, 0, 0, 1, ⟨0, 0⟩⟩, ⟨0, 0, 0, 1, ⟨0, 1⟩⟩]

/-- A world of three rooms. -/
def threeRooms : World where
  banks := #[#[firstRoom, secondRoom, thirdRoom]]

/-- The cell of all three rooms. -/
def inRoom (number : UInt8) : Spot :=
  ⟨⟨0, 0⟩, ⟨0, number⟩⟩

/-- Every hop can be walked but the one from the first room to the second. -/
def aroundOnly (here : Spot) (edge : Edge) : Bool :=
  !(here == inRoom 0 && edge == .warp 0 ⟨0, 0, 0, 0, ⟨0, 1⟩⟩)

/-- Leads to the second room. -/
def toSecondRoom : Guide Unit where
  generation _ := 0
  validate s here edge := (aroundOnly here edge, s)
  check s _ here := (Goal.onMap ⟨0, 1⟩ here, s)

theorem search_shortest_threeRooms :
    (∀ s m a, (toSecondRoom.check s m a).1 = Goal.onMap ⟨0, 1⟩ a) ∧
    (∀ s a e, (toSecondRoom.validate s a e).1 = aroundOnly a e) ∧
    ∃ enough, ∀ n, enough ≤ n →
      (search toSecondRoom (.fresh threeRooms n) () (inRoom 0)).1.isSome := by
  have hcheck : ∀ s m a, (toSecondRoom.check s m a).1 = (fun _ => Goal.onMap ⟨0, 1⟩) m a :=
    fun _ _ _ => rfl
  have hvalidate : ∀ s a e, (toSecondRoom.validate s a e).1 = aroundOnly a e := fun _ _ _ => rfl
  have hleave : threeRooms.Crosses ⟨inRoom 0, .warp 1 ⟨0, 0, 0, 0, ⟨0, 2⟩⟩, inRoom 2⟩ :=
    ⟨firstRoom, rfl, by decide +kernel⟩
  have harrive : threeRooms.Crosses ⟨inRoom 2, .warp 1 ⟨0, 0, 0, 1, ⟨0, 1⟩⟩, inRoom 1⟩ :=
    ⟨thirdRoom, rfl, by decide +kernel⟩
  have haround : threeRooms.Solves (fun _ => Goal.onMap ⟨0, 1⟩) aroundOnly (inRoom 0)
      [⟨inRoom 0, .warp 1 ⟨0, 0, 0, 0, ⟨0, 2⟩⟩, inRoom 2⟩,
        ⟨inRoom 2, .warp 1 ⟨0, 0, 0, 1, ⟨0, 1⟩⟩, inRoom 1⟩] (inRoom 1) [] :=
    ⟨.cross hleave (.cross harrive (.here _)), ⟨secondRoom, rfl, rfl⟩, by decide⟩
  obtain ⟨enough, hsearch⟩ := search_shortest toSecondRoom threeRooms (inRoom 0)
    (fun _ => Goal.onMap ⟨0, 1⟩) aroundOnly hcheck hvalidate
  exact ⟨hcheck, hvalidate, enough, fun n hn => (hsearch n hn ()).1.mpr ⟨_, _, _, haround⟩⟩

end RouteFinder

end Cartridge
