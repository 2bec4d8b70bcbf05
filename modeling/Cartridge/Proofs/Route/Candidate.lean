import Cartridge.Proofs.Route.Trail
import Cartridge.Route.Search
import Mathlib.Data.List.Nodup

/-!
# Candidate — what waits in the queue of a search

Every candidate is a trail from the start that comes to no place twice, kept last hop first together
with its places.  One that has reached the goal has the last hop that the goal asked for behind the
trail.  `RouteCandidate.Follows` says so for any account of what the goal has asked for, and
completing or extending a candidate keeps it.
-/

namespace Cartridge

/-- The hops that a goal still asks for at a place, if it is met from there. -/
def Goal.rest? (here : Spot) : Goal → Option (List RouteStep)
  | .notYet => none
  | .reached => some []
  | .approach edge => some [⟨here, edge, RouteFinder.approachSpot here edge⟩]

namespace RouteCandidate

open RouteFinder

/-- The candidate for a chain of hops from `start` to `here`. -/
def onWay (start : Spot) (hops : List RouteStep) (here : Spot) : RouteCandidate where
  spot := here
  hops := hops.reverse
  visited := (spots start hops).reverse
  complete := false

/-- The candidate for a chain of hops from `start` to `here` that meets the goal by `rest`. -/
def atGoal (start : Spot) (hops : List RouteStep) (here : Spot) (rest : List RouteStep) :
    RouteCandidate where
  spot := here
  hops := (hops ++ rest).reverse
  visited := (spots start hops).reverse
  complete := true

variable {w : World} {start here finish : Spot} {edge : Edge} {hops rest : List RouteStep}
  {c d : RouteCandidate}

theorem uses_iff :
    c.uses here edge = true ↔ ∃ step ∈ c.hops, step.start = here ∧ step.edge = edge := by
  simp [uses]

theorem completed_onWay (goal : Goal) :
    completed (onWay start hops here) goal = (goal.rest? here).map (atGoal start hops here) := by
  cases goal with
  | notYet => rfl
  | reached => simp [completed, Goal.rest?, onWay, atGoal]
  | approach edge => simp [completed, Goal.rest?, onWay, atGoal]

theorem mem_completed_onWay {goal : Goal} :
    d ∈ (completed (onWay start hops here) goal).toList ↔
      ∃ rest, goal.rest? here = some rest ∧ d = atGoal start hops here rest := by
  rw [completed_onWay, Option.mem_toList, Option.map_eq_some_iff]
  exact exists_congr fun rest => and_congr_right' eq_comm

theorem extend_onWay : (onWay start hops here).extend edge finish =
    onWay start (hops ++ [⟨here, edge, finish⟩]) finish := by
  simp [extend, onWay, spots_append]

theorem mem_successors {crossings : List (Edge × Spot)} : d ∈ successors crossings c ↔
    ∃ edge finish, (edge, finish) ∈ crossings ∧ finish ∉ c.visited ∧
      d = c.extend edge finish := by
  simp only [successors, List.mem_filterMap, Prod.exists, List.contains_eq_mem, decide_eq_true_eq]
  refine exists_congr fun edge => exists_congr fun finish => and_congr_right fun _ => ?_
  split
  · next h => simp [h]
  · next h => simp [h, eq_comm]

theorem mem_successors_onWay {crossings : List (Edge × Spot)} :
    d ∈ successors crossings (onWay start hops here) ↔
      ∃ edge finish, (edge, finish) ∈ crossings ∧ finish ∉ spots start hops ∧
        d = onWay start (hops ++ [⟨here, edge, finish⟩]) finish := by
  simp only [mem_successors, extend_onWay]
  simp only [onWay, List.mem_reverse]

/-! ## Candidates of a search -/

/-- The candidate is a simple trail, met by the goal as `ends` allows if it is complete. -/
inductive Follows (w : World) (ends : Spot → List RouteStep → Prop) (start : Spot) :
    RouteCandidate → Prop where
  | onWay {hops : List RouteStep} {here : Spot} (trail : w.Trail start hops here)
    (simple : (spots start hops).Nodup) : Follows w ends start (onWay start hops here)
  | atGoal {hops rest : List RouteStep} {here : Spot} (trail : w.Trail start hops here)
    (simple : (spots start hops).Nodup) (met : ends here rest) :
    Follows w ends start (atGoal start hops here rest)

namespace Follows

variable {ends ends' : Spot → List RouteStep → Prop}

/-- The candidate that a search starts with. -/
theorem first : Follows w ends start ⟨start, [], [start], false⟩ :=
  show Follows w ends start (RouteCandidate.onWay start [] start) from
    .onWay (.here start) (by simp [spots])

theorem mono (h : Follows w ends start c) (hends : ∀ here rest, ends here rest → ends' here rest) :
    Follows w ends' start c := by
  cases h with
  | onWay trail simple => exact .onWay trail simple
  | atGoal trail simple met => exact .atGoal trail simple (hends _ _ met)

/-- A candidate that is not complete is a simple trail. -/
theorem of_not_complete (h : Follows w ends start c) (hc : c.complete = false) :
    ∃ hops, c = RouteCandidate.onWay start hops c.spot ∧ w.Trail start hops c.spot ∧
      (spots start hops).Nodup := by
  cases h with
  | onWay trail simple => exact ⟨_, rfl, trail, simple⟩
  | atGoal => cases hc

/-- A complete candidate is a simple trail and what the goal asked for. -/
theorem of_complete (h : Follows w ends start c) (hc : c.complete = true) :
    ∃ hops rest, c = RouteCandidate.atGoal start hops c.spot rest ∧ w.Trail start hops c.spot ∧
      (spots start hops).Nodup ∧ ends c.spot rest := by
  cases h with
  | onWay => cases hc
  | atGoal trail simple met => exact ⟨_, _, rfl, trail, simple, met⟩

/-- What the goal makes of a candidate is one again. -/
theorem completed (h : Follows w ends start c) (hc : c.complete = false) {goal : Goal}
    (hgoal : ∀ rest, goal.rest? c.spot = some rest → ends c.spot rest)
    (hd : d ∈ (RouteFinder.completed c goal).toList) : Follows w ends start d := by
  obtain ⟨hops, hform, trail, simple⟩ := h.of_not_complete hc
  rw [hform] at hd
  obtain ⟨rest, hrest, rfl⟩ := mem_completed_onWay.mp hd
  exact .atGoal trail simple (hgoal rest hrest)

/-- A candidate with one more crossing is one again. -/
theorem successors (h : Follows w ends start c) (hc : c.complete = false) {m : Map}
    (hm : w.map? c.spot.map = some m) (hd : d ∈ RouteFinder.successors (w.crossings m) c) :
    Follows w ends start d := by
  obtain ⟨hops, hform, trail, simple⟩ := h.of_not_complete hc
  rw [hform] at hd
  obtain ⟨edge, finish, hcross, hnew, rfl⟩ := mem_successors_onWay.mp hd
  refine .onWay (trail.snoc ⟨m, hm, hcross⟩) ?_
  rw [spots_append]
  exact List.nodup_append'.mpr ⟨simple, List.nodup_singleton _,
    List.disjoint_singleton.mpr hnew⟩

end Follows

end RouteCandidate

end Cartridge
