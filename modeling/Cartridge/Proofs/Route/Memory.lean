import Cartridge.Proofs.Route.Record
import Cartridge.Proofs.Route.Shortest

/-!
# Memory — remembering verdicts is not noticed

Suppose that a validator keeps to its verdicts as long as its generation stays
(`Validator.Decided`).  Then two finders that have its verdicts of one generation in mind, one more
of them and the other fewer, look at the same candidates and find the same
(`RouteFinder.explore_eq_explore`), so whatever a finder has searched before, it finds what a fresh
one would.  Yet it asks less: in one generation no question twice (`Validator.Period.asked_once`).
-/

namespace Cartridge

namespace Validator

variable {σ : Type}

/-- The verdicts of the validator are fixed in each generation, and asking does not end one. -/
structure Decided (v : Validator σ) (verdict : Nat → Spot → Edge → Bool) : Prop where
  answer : ∀ s a e, (v.validate s a e).1 = verdict (v.generation s) a e
  steady : v.Steady

variable {v : Validator σ} {verdict : Nat → Spot → Edge → Bool} {w : World} {n epoch : Nat}
  {f : RouteFinder} {past : List (Inquiry σ)}

/-- What a finder has in mind are the verdicts of its generation. -/
theorem Account.remembers (h : v.Account w n f past) (hv : v.Decided verdict)
    (hepoch : f.generation? = some epoch) : f.Remembers (verdict epoch) := by
  intro a e answer hanswer
  obtain ⟨i, hi, hsettled⟩ := h.backed epoch hepoch a e answer hanswer
  rw [← hsettled.answer, hv.answer, h.steady hv.steady i hi, hsettled.epoch_eq]

end Validator

namespace RouteFinder

/-! ## The same search with more and with less in mind -/

variable {σ τ : Type} {v : Validator σ} {verdict : Nat → Spot → Edge → Bool}
  {check : τ → Map → Spot → Goal × τ} {epoch : Nat} {f f' : RouteFinder} {s s' : σ} {t : τ}

variable (v verdict epoch f s) in
/-- A finder that has verdicts of a generation in mind asks a validator of that generation. -/
structure Knows : Prop where
  charted : f.Charted
  remembers : f.Remembers (verdict epoch)
  generation : v.generation s = epoch

/-- Looking for a blocked hop finds the first one, whatever is in mind, and asks nothing of the
goal. -/
theorem Knows.firstBlocked (hv : v.Decided verdict) (h : Knows v verdict epoch f s)
    (check : τ → Map → Spot → Goal × τ) (t : τ) (steps : List RouteStep) :
    ∃ g s', firstBlocked? (v.guide check) f (s, t) steps =
        (blocked? (verdict epoch) steps, g, (s', t)) ∧
      Knows v verdict epoch g s' ∧ g.world = f.world := by
  have hanswers : ∀ r : σ × τ, v.generation r.1 = epoch ∧ r.2 = t → ∀ a e,
      ((v.guide check).validate r a e).1 = verdict epoch a e ∧
        v.generation ((v.guide check).validate r a e).2.1 = epoch ∧
        ((v.guide check).validate r a e).2.2 = t := by
    rintro ⟨x, u⟩ ⟨hx, hu⟩ a e
    refine ⟨?_, (hv.steady x a e).trans hx, hu⟩
    rw [← hx]
    exact hv.answer x a e
  obtain ⟨g, ⟨x, u⟩, hblocked, hg, ⟨hx, rfl⟩, hworld, hcharted⟩ :=
    firstBlocked_eq hanswers h.remembers (s := (s, t)) ⟨h.generation, rfl⟩ steps
  exact ⟨g, x, hblocked, ⟨hcharted h.charted, hg, hx⟩, hworld⟩

/-- **Two searches side by side**: with different verdicts in mind they find the same and hold the
same places against the goal. -/
theorem explore_eq_explore (hv : v.Decided verdict) (h : Knows v verdict epoch f s)
    (h' : Knows v verdict epoch f' s') (hworld : f'.world = f.world) (queue : Queue RouteCandidate)
    (budget : Nat) :
    (explore (v.guide check) f (s, t) queue budget).1 =
        (explore (v.guide check) f' (s', t) queue budget).1 ∧
      (explore (v.guide check) f (s, t) queue budget).2.2.2 =
        (explore (v.guide check) f' (s', t) queue budget).2.2.2 := by
  induction budget generalizing f f' s s' t queue with
  | zero =>
    rw [explore_zero, explore_zero]
    exact ⟨rfl, rfl⟩
  | succ budget ih =>
    cases hpop : queue.pop? with
    | none =>
      rw [explore_empty hpop, explore_empty hpop]
      exact ⟨rfl, rfl⟩
    | some pair =>
      obtain ⟨c, later⟩ := pair
      by_cases hc : c.complete = true
      · obtain ⟨g, x, hblocked, hg, hgw⟩ := h.firstBlocked hv check t c.hops.reverse
        obtain ⟨g', x', hblocked', hg', hgw'⟩ := h'.firstBlocked hv check t c.hops.reverse
        cases hstep : blocked? (verdict epoch) c.hops.reverse with
        | none =>
          rw [hstep] at hblocked hblocked'
          rw [explore_route hpop hc hblocked, explore_route hpop hc hblocked']
          exact ⟨rfl, rfl⟩
        | some step =>
          rw [hstep] at hblocked hblocked'
          rw [explore_blocked hpop hc hblocked, explore_blocked hpop hc hblocked']
          exact ih hg hg' (hgw'.trans (hworld.trans hgw.symm)) _
      · have hwaits : c.complete = false := by simpa using hc
        cases hm : f.world.map? c.spot.map with
        | none =>
          have hm' : f'.world.map? c.spot.map = none := hworld ▸ hm
          rw [explore_lost hpop hwaits hm, explore_lost hpop hwaits hm']
          exact ih h h' hworld later
        | some m =>
          have hm' : f'.world.map? c.spot.map = some m := hworld ▸ hm
          obtain ⟨exits, hcharted, honward⟩ := explore_onward h.charted hpop hwaits hm
          obtain ⟨exits', hcharted', honward'⟩ := explore_onward h'.charted hpop hwaits hm'
          rw [honward, honward', hworld]
          exact ih ⟨hcharted, h.remembers, h.generation⟩ ⟨hcharted', h'.remembers, h'.generation⟩
            hworld _

end RouteFinder

namespace Validator

open RouteFinder

/-! ## Searches in a row -/

variable {σ : Type} (v : Validator σ)

/-- What has become of a finder after some searches in one generation, without being told to forget,
and what they have asked. -/
inductive Period (epoch : Nat) (f : RouteFinder) : RouteFinder → List (Inquiry σ) → Prop where
  | start : Period epoch f f []
  | search {g : RouteFinder} {asked : List (Inquiry σ)} (before : Period epoch f g asked)
    {τ : Type} (check : τ → Map → Spot → Goal × τ) (s : σ) (t : τ) (start : Spot)
    (now : v.generation s = epoch) :
    Period epoch f (RouteFinder.search (v.recorded check) g (v.opening s t asked) start).2.1
      (v.record check g s t asked start).inquiries

/-- The hops that have been asked about are different, and each has a verdict since then. -/
structure Once (f : RouteFinder) (asked : List (Inquiry σ)) : Prop where
  nodup : (asked.map fun i => (i.start, i.edge)).Nodup
  kept : ∀ i ∈ asked, (f.verdict? i.start i.edge).isSome

variable {v} {epoch : Nat} {f g : RouteFinder} {asked : List (Inquiry σ)}

theorem Once.nothing (f : RouteFinder) : Once f ([] : List (Inquiry σ)) :=
  ⟨List.nodup_nil, fun _ hi => absurd hi List.not_mem_nil⟩

/-- Only a hop without a verdict is asked about. -/
theorem Once.ask (h : Once f asked) {i : Inquiry σ} (hnew : f.verdict? i.start i.edge = none)
    (verdict : Bool) : Once (f.learn i.start i.edge verdict) (i :: asked) := by
  constructor
  · rw [List.map_cons, List.nodup_cons]
    refine ⟨fun hmem => ?_, h.nodup⟩
    obtain ⟨j, hj, hsame⟩ := List.mem_map.mp hmem
    obtain ⟨hstart, hedge⟩ := Prod.mk.inj hsame
    have hknown := h.kept j hj
    rw [hstart, hedge, hnew] at hknown
    cases hknown
  · intro j hj
    rw [verdict_learn]
    split
    · rfl
    · next hother =>
      rcases List.mem_cons.mp hj with rfl | hj
      · exact absurd ⟨rfl, rfl⟩ hother
      · exact h.kept j hj

/-- A search asks about no hop that has a verdict, and about no hop twice. -/
theorem Once.search {τ : Type} {check : τ → Map → Spot → Goal × τ} {s : σ} {t : τ} {start : Spot}
    (hf : f.Charted) (h : Once (f.atGeneration (v.generation s)) asked)
    {route? : Option (List RouteStep)} {r : Record σ τ}
    (hr : RouteFinder.search (v.recorded check) f (v.opening s t asked) start = (route?, g, r)) :
    g.Charted ∧ g.generation? = some (v.generation s) ∧ Once g r.inquiries := by
  obtain ⟨hg, -, ⟨hgeneration, honce⟩, -⟩ := explore_induction
    (P := fun f (r : Record σ τ) _ =>
      f.generation? = some (v.generation s) ∧ Once f r.inquiries)
    (fun f r q exits hq => ⟨hq.1, hq.2.nodup, hq.2.kept⟩)
    (fun f r q q' hq _ => hq)
    (fun f r q c step hq _ _ hnew => ⟨hq.1, hq.2.ask (i := ⟨r.epoch, r.validator, _, _⟩) hnew _⟩)
    (fun f r q c m hq _ _ => hq)
    _ (hf.atGeneration _) ⟨generation_atGeneration _, h⟩ hr
  exact ⟨hg, hgeneration, honce⟩

/-- **In one generation no question is asked twice.** -/
theorem Period.asked_once (h : v.Period epoch f g asked) (hf : f.Charted) :
    (asked.map fun i => (i.start, i.edge)).Nodup := by
  have hend : g.Charted ∧ (asked = [] ∨ g.generation? = some epoch) ∧ Once g asked := by
    induction h with
    | start => exact ⟨hf, Or.inl rfl, .nothing f⟩
    | @search g asked _ τ check s t start now ih =>
      obtain ⟨hg, hbegun, honce⟩ := ih
      have hmemory : Once (g.atGeneration (v.generation s)) asked := by
        rcases hbegun with rfl | hbegun
        · exact .nothing _
        · rwa [atGeneration, if_pos (now ▸ hbegun)]
      obtain ⟨hg', hgeneration, honce'⟩ := hmemory.search hg rfl
      exact ⟨hg', Or.inr (now ▸ hgeneration), honce'⟩
  exact hend.2.2.nodup

end Validator

namespace RouteFinder

/-- **Memory is not noticed.**  If the verdicts of the validator are fixed in each generation, every
search finds what it would find without the searches before it, and in one generation it asks about
no hop a second time, unless the finder is told to forget. -/
theorem search_memoized {σ : Type} {v : Validator σ} {verdict : Nat → Spot → Edge → Bool}
    (hv : v.Decided verdict) {w : World} {n : Nat} {f : RouteFinder} {past : List (Inquiry σ)}
    (h : v.Session w n f past) :
    (∀ {τ : Type} (check : τ → Map → Spot → Goal × τ) (s : σ) (t : τ) (start : Spot),
      (search (v.guide check) f (s, t) start).1 =
          (search (v.guide check) (.fresh w n) (s, t) start).1 ∧
        (search (v.guide check) f (s, t) start).2.2.2 =
          (search (v.guide check) (.fresh w n) (s, t) start).2.2.2) ∧
    ∀ epoch g asked, v.Period epoch f g asked →
      (asked.map fun i => (i.start, i.edge)).Nodup := by
  have haccount := h.account
  refine ⟨fun check s t start => ?_, fun epoch g asked hperiod =>
    hperiod.asked_once haccount.charted⟩
  have hknows : Knows v verdict (v.generation s) (f.atGeneration (v.generation s)) s :=
    ⟨haccount.charted.atGeneration _, .atGeneration fun hgeneration =>
      haccount.remembers hv hgeneration, rfl⟩
  have hfresh : Knows v verdict (v.generation s) ((fresh w n).atGeneration (v.generation s)) s :=
    ⟨(charted_fresh w n).atGeneration _, .atGeneration (fun hnone => by cases hnone), rfl⟩
  have hworld : ((fresh w n).atGeneration (v.generation s)).world =
      (f.atGeneration (v.generation s)).world := by
    rw [world_atGeneration, world_atGeneration, haccount.world]
    rfl
  have hsize : (f.atGeneration (v.generation s)).maxCandidates =
      ((fresh w n).atGeneration (v.generation s)).maxCandidates := by
    rw [maxCandidates_atGeneration, maxCandidates_atGeneration, haccount.size]
    rfl
  have hsearch (f : RouteFinder) : search (v.guide check) f (s, t) start =
      explore (v.guide check) (f.atGeneration (v.generation s)) (s, t)
        (.ofList [⟨start, [], [start], false⟩])
        (f.atGeneration (v.generation s)).maxCandidates := rfl
  rw [hsearch, hsearch, hsize]
  exact explore_eq_explore hv hknows hfresh hworld _ _

/-- A validator that opens the gate between the first two rooms in every other generation. -/
def gatekeeper : Validator Nat where
  generation g := g
  validate g here edge := (g % 2 == 0 || aroundOnly here edge, g)

/-- A search for the second room while the gate is open. -/
def openDay : Option (List RouteStep) × RouteFinder × Record Nat Unit :=
  search (gatekeeper.recorded toSecondRoom.check) (.fresh threeRooms 100)
    (gatekeeper.opening 0 () []) (inRoom 0)

theorem search_memoized_gatekeeper :
    (gatekeeper.Decided fun g here edge => g % 2 == 0 || aroundOnly here edge) ∧
    gatekeeper.Session threeRooms 100 openDay.2.1 openDay.2.2.inquiries ∧
    (search (gatekeeper.guide toSecondRoom.check) openDay.2.1 (1, ()) (inRoom 0)).1 =
      some [⟨inRoom 0, .warp 1 ⟨0, 0, 0, 0, ⟨0, 2⟩⟩, inRoom 2⟩,
        ⟨inRoom 2, .warp 1 ⟨0, 0, 0, 1, ⟨0, 1⟩⟩, inRoom 1⟩] ∧
    ∀ g asked, gatekeeper.Period 1 openDay.2.1 g asked →
      (asked.map fun i => (i.start, i.edge)).Nodup := by
  have hdecided : gatekeeper.Decided fun g here edge => g % 2 == 0 || aroundOnly here edge :=
    ⟨fun _ _ _ => rfl, fun _ _ _ => rfl⟩
  have hsession : gatekeeper.Session threeRooms 100 openDay.2.1 openDay.2.2.inquiries :=
    .search .fresh _ 0 () (inRoom 0)
  obtain ⟨hsame, honce⟩ := search_memoized hdecided hsession
  refine ⟨hdecided, hsession, ?_, honce 1⟩
  have hanswers : (gatekeeper.guide toSecondRoom.check).Answers (fun r => r.1 = 1) aroundOnly
      fun _ => Goal.onMap ⟨0, 1⟩ := by
    constructor
    · rintro ⟨_, _⟩ rfl a e
      exact ⟨rfl, rfl⟩
    · exact fun _ hr _ _ => ⟨rfl, hr⟩
  -- The gate was open at the first search, but that is forgotten.
  rw [(hsame toSecondRoom.check 1 () (inRoom 0)).1, search_eq_plan hanswers (charted_fresh _ _) rfl
    (fun hnone => by cases hnone)]
  decide +kernel

end RouteFinder

end Cartridge
