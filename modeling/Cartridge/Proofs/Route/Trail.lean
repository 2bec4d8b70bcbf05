import Cartridge.Proofs.Route.Crossing
import Mathlib.Data.List.Infix

/-!
# Trail — chains of crossings

A trail leads from place to place by hops that leave the map they start on.  A trail that comes to a
place twice can skip what lies between, so wherever a trail leads, a trail with no place twice leads
in no more hops (`World.Trail.exists_simple`).
-/

namespace Cartridge

/-- The places of a chain of hops, from its start on. -/
def spots (start : Spot) (hops : List RouteStep) : List Spot :=
  start :: hops.map RouteStep.finish

theorem spots_cons (start : Spot) (step : RouteStep) (hops : List RouteStep) :
    spots start (step :: hops) = start :: spots step.finish hops := rfl

theorem spots_append (start : Spot) (hops : List RouteStep) (step : RouteStep) :
    spots start (hops ++ [step]) = spots start hops ++ [step.finish] := by
  simp [spots]

namespace World

variable (w : World)

/-- The step is one of the hops that leave the map where it starts. -/
def Crosses (step : RouteStep) : Prop :=
  ∃ m, w.map? step.start.map = some m ∧ (step.edge, step.finish) ∈ w.crossings m

/-- A chain of crossings from one place to another. -/
inductive Trail : Spot → List RouteStep → Spot → Prop where
  | here (a : Spot) : Trail a [] a
  | cross {a b c : Spot} {edge : Edge} {rest : List RouteStep} (hop : w.Crosses ⟨a, edge, b⟩)
    (onward : Trail b rest c) : Trail a (⟨a, edge, b⟩ :: rest) c

namespace Trail

variable {w} {a b c : Spot} {edge : Edge} {hops more : List RouteStep}

theorem append (h : w.Trail a hops b) (h' : w.Trail b more c) : w.Trail a (hops ++ more) c := by
  induction h with
  | here => exact h'
  | cross hop _ ih => exact .cross hop (ih h')

theorem snoc (h : w.Trail a hops b) (hop : w.Crosses ⟨b, edge, c⟩) :
    w.Trail a (hops ++ [⟨b, edge, c⟩]) c :=
  h.append (.cross hop (.here _))

theorem split (h : w.Trail a (hops ++ more) c) : ∃ b, w.Trail a hops b ∧ w.Trail b more c := by
  induction hops generalizing a with
  | nil => exact ⟨a, .here a, h⟩
  | cons step rest ih =>
    cases h with
    | cross hop onward =>
      obtain ⟨b, hb, hbc⟩ := ih onward
      exact ⟨b, .cross hop hb, hbc⟩

theorem finish_unique (h : w.Trail a hops b) (h' : w.Trail a hops c) : b = c := by
  induction h with
  | here => cases h'; rfl
  | cross _ _ ih => cases h' with | cross _ onward => exact ih onward

theorem crosses (h : w.Trail a hops b) : ∀ step ∈ hops, w.Crosses step := by
  induction h with
  | here => exact fun _ hs => absurd hs List.not_mem_nil
  | cross hop _ ih =>
    intro step hs
    rcases List.mem_cons.mp hs with rfl | hs
    · exact hop
    · exact ih step hs

/-- From any of its places a trail leads on to its end. -/
theorem exists_suffix (h : w.Trail a hops b) (hc : c ∈ spots a hops) :
    ∃ rest, w.Trail c rest b ∧ rest <:+ hops ∧ spots c rest <:+ spots a hops := by
  induction h with
  | here a =>
    obtain rfl := List.mem_singleton.mp hc
    exact ⟨[], .here _, List.suffix_rfl, List.suffix_rfl⟩
  | cross hop onward ih =>
    rw [spots_cons] at hc
    rcases List.mem_cons.mp hc with rfl | hc
    · exact ⟨_, .cross hop onward, List.suffix_rfl, List.suffix_rfl⟩
    · obtain ⟨more, htrail, hmore, hspots⟩ := ih hc
      exact ⟨more, htrail, hmore.trans (List.suffix_cons _ _), hspots.trans (List.suffix_cons _ _)⟩

/-- **Wherever a trail leads, one with no place twice leads**, by some of its hops. -/
theorem exists_simple (h : w.Trail a hops b) :
    ∃ way, w.Trail a way b ∧ (spots a way).Nodup ∧ way.Sublist hops := by
  induction h with
  | here a => exact ⟨[], .here a, by simp [spots], List.Sublist.refl _⟩
  | @cross a b c edge rest hop _ ih =>
    obtain ⟨way, htrail, hnodup, hsub⟩ := ih
    by_cases hmem : a ∈ spots b way
    · obtain ⟨short, hshort, hsuffix, hspots⟩ := htrail.exists_suffix hmem
      exact ⟨short, hshort, hnodup.sublist hspots.sublist,
        (hsuffix.sublist.trans hsub).cons _⟩
    · exact ⟨_, .cross hop htrail, List.nodup_cons.mpr ⟨hmem, hnodup⟩, hsub.cons_cons _⟩

end Trail

end World

end Cartridge
