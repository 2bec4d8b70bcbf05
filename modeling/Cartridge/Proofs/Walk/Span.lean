import Cartridge.Proofs.Walk.Links
import Cartridge.Walk.Search

/-!
# Span — how far one move leads

A move leads to the cell next to it, or over a ledge to the one behind (`WalkGraph.hops_ofMap`), so
it changes the distance that a walk is after by one, or at a ledge by two (`Map.Hops.missing_le`).
-/

namespace Cartridge

/-- One move on a map: a step, or a jump over a ledge. -/
inductive Map.Hops (m : Map) (a : Cell) : Cell → Prop where
  | step (d : Direction) : Hops m a (a.move d)
  | jump {tile : Tile} (d : Direction) (across : m.tile? (a.move d) = some tile)
    (ledge : (Tile.ledge? tile.behavior).isSome) : Hops m a ((a.move d).move d)

/-- **Neighbours are one move away.** -/
theorem WalkGraph.hops_ofMap {m : Map} {settings : WalkSettings} {c c' : Cell}
    (h : c' ∈ (ofMap m settings).neighbors c) : m.Hops c c' := by
  obtain ⟨d, hmove⟩ := mem_neighbors_ofMap.mp h
  obtain ⟨-, -, rfl | ⟨rfl, hover⟩⟩ := Map.moveTo?_eq_some_iff.mp hmove
  · exact .step d
  · obtain ⟨tile, htile, hledge⟩ := Map.isLedge_iff.mp hover
    exact .jump d htile (by rw [hledge]; rfl)

/-! ## Distances -/

namespace Finder

/-- A distance that changes by one at most from a cell to the next. -/
def Gradual (distance : Cell → Int) : Prop :=
  ∀ c d, (distance c - distance (c.move d)).natAbs ≤ 1

theorem gradual_steps (goal : Cell) : Gradual (·.steps goal) := by
  intro c d
  cases d <;> simp only [Cell.steps, Cell.move, Direction.delta] <;> omega

/-- The distance to the nearest of some cells is that to one of them, and to no other one less. -/
theorem nearest_spec {cells : List Cell} (hne : cells ≠ []) (c : Cell) :
    (∃ b ∈ cells, nearest cells c = c.steps b) ∧ ∀ b ∈ cells, nearest cells c ≤ c.steps b := by
  cases hmin : (cells.map c.steps).min? with
  | none => exact absurd (List.map_eq_nil_iff.mp (List.min?_eq_none_iff.mp hmin)) hne
  | some least =>
    have hnearest : nearest cells c = least := by rw [nearest, hmin, Option.getD_some]
    obtain ⟨hmem, hleast⟩ := List.min?_eq_some_iff.mp hmin
    rw [hnearest]
    obtain ⟨b, hb, heq⟩ := List.mem_map.mp hmem
    exact ⟨⟨b, hb, heq.symm⟩, fun b hb => hleast _ (List.mem_map_of_mem hb)⟩

theorem gradual_nearest {cells : List Cell} (hne : cells ≠ []) : Gradual (nearest cells) := by
  intro c d
  obtain ⟨⟨b, hb, hhere⟩, hhere_le⟩ := nearest_spec hne c
  obtain ⟨⟨b', hb', hthere⟩, hthere_le⟩ := nearest_spec hne (c.move d)
  have hb_step : (c.steps b - (c.move d).steps b).natAbs ≤ 1 := gradual_steps b c d
  have hb'_step : (c.steps b' - (c.move d).steps b').natAbs ≤ 1 := gradual_steps b' c d
  have hle := hhere_le b' hb'
  have hle' := hthere_le b hb
  omega

/-- How far a cell is from the distance that is searched for. -/
def missing (goal : WalkGoal) (c : Cell) : Nat :=
  (goal.distance c - goal.target).natAbs

end Finder

/-- A map without ledges and counters. -/
def Map.Plain (m : Map) : Prop :=
  ∀ c tile, m.tile? c = some tile →
    Tile.ledge? tile.behavior = none ∧ tile.behavior ≠ Tile.counter

namespace Map

variable {m : Map} {a b c : Cell} {goal : WalkGoal}

open Finder (Gradual missing)

/-- One move brings a walk nearer by two at most. -/
theorem Hops.missing_le (h : m.Hops a b) (hg : Gradual goal.distance) :
    missing goal a ≤ missing goal b + 2 := by
  unfold missing
  cases h with
  | step d =>
    have hstep := hg a d
    omega
  | jump d =>
    have hfirst := hg a d
    have hsecond := hg (a.move d) d
    omega

/-- Without ledges one move brings a walk nearer by one at most. -/
theorem Hops.missing_le_of_plain (h : m.Hops a b) (hm : m.Plain) (hg : Gradual goal.distance) :
    missing goal a ≤ missing goal b + 1 := by
  unfold missing
  cases h with
  | step d =>
    have hstep := hg a d
    omega
  | @jump tile d hover hledge =>
    obtain ⟨hnone, -⟩ := hm (a.move d) tile hover
    rw [hnone] at hledge
    cases hledge

end Map

namespace Finder

variable {g : WalkGraph} {c : Cell} {goal : WalkGoal}

theorem missing_of_distance (h : (goal.distance c == goal.target) = true) : missing goal c = 0 := by
  rw [missing, beq_iff_eq.mp h, Int.sub_self, Int.natAbs_zero]

/-- A walk ends at the goal, or one step short of it at a counter. -/
theorem missing_of_reached (h : reached g goal c = true) : missing goal c ≤ 1 := by
  rcases Bool.or_eq_true_iff.mp h with hthere | hcounter
  · rw [missing_of_distance hthere]
    exact Nat.zero_le 1
  · have hnext : goal.distance c = goal.target + 1 :=
      beq_iff_eq.mp (Bool.and_eq_true_iff.mp hcounter).1
    rw [missing, hnext]
    omega

/-- Without counters a walk ends at the goal. -/
theorem missing_of_reached_plain (hm : g.map.Plain) (h : reached g goal c = true) :
    missing goal c = 0 := by
  rcases Bool.or_eq_true_iff.mp h with hthere | hcounter
  · exact missing_of_distance hthere
  · obtain ⟨d, -, hd⟩ := List.any_eq_true.mp (Bool.and_eq_true_iff.mp hcounter).2
    have hbeside := (Bool.and_eq_true_iff.mp hd).1
    cases htile : g.map.tile? (c.move d) with
    | none =>
      rw [htile] at hbeside
      cases hbeside
    | some tile =>
      rw [htile] at hbeside
      exact absurd (beq_iff_eq.mp hbeside) (hm _ tile htile).2

end Finder

end Cartridge
