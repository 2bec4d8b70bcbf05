import Cartridge.Proofs.Route.Record
import Cartridge.Proofs.Route.Shortest

/-!
# WellFormed — what a route looks like

A route to a place, to a map or to a person leads from its start over crossings of the world that
come to no place twice, and on the last map to its goal.  All of its hops were granted under the
generation in which the search began (`RouteFinder.search_wellFormed`).
-/

namespace Cartridge

/-- Every hop starts where the one before it has ended. -/
inductive Linked : Spot → List RouteStep → Spot → Prop where
  | here (a : Spot) : Linked a [] a
  | hop {a b c : Spot} {edge : Edge} {rest : List RouteStep} (onward : Linked b rest c) :
    Linked a (⟨a, edge, b⟩ :: rest) c

variable {w : World} {a b c here : Spot} {hops rest : List RouteStep}

theorem Linked.one (a : Spot) (edge : Edge) (b : Spot) : Linked a [⟨a, edge, b⟩] b :=
  .hop (.here b)

theorem World.Trail.linked (h : w.Trail a hops b) (hrest : Linked b rest c) :
    Linked a (hops ++ rest) c := by
  induction h with
  | here => exact hrest
  | cross _ _ ih => exact .hop (ih hrest)

namespace Goal

variable {τ : Type} {test : τ → Map → Nat → Bool × τ} {t : τ} {m : Map}

/-- The state of a test once it has been put to the first persons of a map. -/
def tested (test : τ → Map → Nat → Bool × τ) (t : τ) (m : Map) : Nat → τ
  | 0 => t
  | i + 1 => (test (tested test t m i) m i).2

/-- Only a person who passes the test is approached. -/
theorem rest_nextToPerson {persons : List Person} {i : Nat}
    (h : (nextToPerson test (tested test t m i) m i persons).1.rest? here = some rest) :
    ∃ k person, persons[k]? = some person ∧ (test (tested test t m (i + k)) m (i + k)).1 = true ∧
      rest = [⟨here, .person person, ⟨person.cell, here.map⟩⟩] := by
  induction persons generalizing i with
  | nil => cases h
  | cons person others ih =>
    rw [nextToPerson] at h
    rcases htest : test (tested test t m i) m i with ⟨_ | _, t'⟩
    · have hnext : t' = tested test t m (i + 1) := by rw [tested, htest]
      rw [htest, hnext] at h
      obtain ⟨k, other, hk, hpasses, hrest⟩ := ih h
      rw [Nat.add_assoc, Nat.add_comm 1 k] at hpasses
      exact ⟨k + 1, other, hk, hpasses, hrest⟩
    · rw [htest] at h
      exact ⟨0, person, rfl, congrArg Prod.fst htest, (Option.some.inj h).symm⟩

end Goal

/-- What a search is for. -/
inductive Errand (τ : Type) where
  /-- To get to a place. -/
  | spot (target : Spot)
  /-- To get to some place of a map. -/
  | map (target : MapId)
  /-- To get to a person who passes a test. -/
  | person (test : τ → Map → Nat → Bool × τ)

namespace Errand

variable {τ : Type}

/-- Whether a place on a map will do. -/
def check : Errand τ → τ → Map → Spot → Goal × τ
  | spot target, t, m, here => (.atSpot target m here, t)
  | map target, t, _, here => (.onMap target here, t)
  | person test, t, m, _ => Goal.atPerson test t m

/-- What a route ends with: the last hops, which stay on the last map, and the place they lead to.
-/
def Done (w : World) (looks : List (Look τ)) : Errand τ → List RouteStep → Spot → Prop
  | spot target, rest, finish =>
    finish = target ∧ (rest = [] ∨ ∃ here, rest = [⟨here, .position target.cell, target⟩])
  | map target, rest, finish => finish.map = target ∧ rest = []
  | person test, rest, finish => ∃ look ∈ looks, ∃ i person,
    w.map? look.spot.map = some look.map ∧ look.map.persons[i]? = some person ∧
      (test (Goal.tested test look.state look.map i) look.map i).1 = true ∧
      finish = ⟨person.cell, look.spot.map⟩ ∧ rest = [⟨look.spot, .person person, finish⟩]

variable {looks : List (Look τ)}

theorem done_spot {target : Spot} {m : Map}
    (h : (Goal.atSpot target m here).rest? here = some rest) :
    ∃ finish, Linked here rest finish ∧ (spot (τ := τ) target).Done w looks rest finish := by
  unfold Goal.atSpot at h
  split_ifs at h with hmap htile hthere
  · cases h
  · cases h
  · cases h
    exact ⟨here, .here here, hthere, Or.inl rfl⟩
  · cases h
    have htarget : RouteFinder.approachSpot here (.position target.cell) = target := by
      rw [RouteFinder.approachSpot, not_not.mp hmap]
    rw [htarget]
    exact ⟨target, .one _ _ _, rfl, Or.inr ⟨here, rfl⟩⟩

theorem done_map {target : MapId} (h : (Goal.onMap target here).rest? here = some rest) :
    ∃ finish, Linked here rest finish ∧ (map (τ := τ) target).Done w looks rest finish := by
  unfold Goal.onMap at h
  split_ifs at h with hmap
  · cases h
    exact ⟨here, .here here, hmap, rfl⟩
  · cases h

theorem done_person {test : τ → Map → Nat → Bool × τ} {look : Look τ} (hlook : look ∈ looks)
    (hmap : w.map? look.spot.map = some look.map)
    (h : (Goal.atPerson test look.state look.map).1.rest? look.spot = some rest) :
    ∃ finish, Linked look.spot rest finish ∧ (person test).Done w looks rest finish := by
  obtain ⟨k, who, hwho, hpasses, rfl⟩ :=
    Goal.rest_nextToPerson (t := look.state) (i := 0) h
  rw [Array.getElem?_toList] at hwho
  rw [Nat.zero_add] at hpasses
  exact ⟨_, .one _ _ _, look, hlook, k, who, hmap, hwho, hpasses, rfl, rfl⟩

/-- Where a search has met its goal, it is done after the last hops. -/
theorem done_of_met {errand : Errand τ} (h : Validator.Met errand.check w looks here rest) :
    ∃ finish, Linked here rest finish ∧ errand.Done w looks rest finish := by
  obtain ⟨look, hlook, rfl, hmap, hmet⟩ := h
  cases errand with
  | spot target => exact done_spot hmet
  | map target => exact done_map hmet
  | person test => exact done_person hlook hmap hmet

end Errand

namespace RouteFinder

/-- **Every route is well formed**, whatever the finder has been used for before: it goes from its
start without a gap, first over crossings of the world that come to no place twice, then as its
errand ends, and all of its hops were granted under the generation in which the search began.  That
is the generation which the finder goes by.  A validator may move on to another one while it
answers; only of a `Steady` one is it said that its own generation was the same at each of these
answers. -/
theorem search_wellFormed {σ τ : Type} {v : Validator σ} {n : Nat} {f : RouteFinder}
    {past : List (Inquiry σ)} (h : v.Session w n f past) (errand : Errand τ) (s : σ) (t : τ)
    (start : Spot) {route : List RouteStep}
    (hr : (search (v.guide errand.check) f (s, t) start).1 = some route) :
    ∃ hops rest finish, route = hops ++ rest ∧ Linked start route finish ∧
      (∀ step ∈ hops, ∃ m, w.map? step.start.map = some m ∧ w.Lands m step.edge step.finish) ∧
      (spots start hops).Nodup ∧
      (∀ step ∈ route, ∃ i ∈ (v.record errand.check f s t past start).inquiries,
        v.Settled (v.generation s) i step.start step.edge true ∧
          (v.Steady → v.generation i.state = v.generation s)) ∧
      errand.Done w (v.record errand.check f s t past start).looks rest finish := by
  rw [v.search_recorded errand.check f s t past start] at hr
  obtain ⟨haccount, hroute⟩ := Validator.search_account h.account s t start rfl
  obtain ⟨hops, here, rest, rfl, htrail, hsimple, hmet, hgranted⟩ := hroute route hr
  obtain ⟨finish, hlinked, hdone⟩ := Errand.done_of_met hmet
  refine ⟨hops, rest, finish, rfl, htrail.linked hlinked, fun step hstep => ?_, hsimple,
    fun step hstep => ?_, hdone⟩
  · obtain ⟨m, hm, hcross⟩ := htrail.crosses step hstep
    exact ⟨m, hm, World.mem_crossings_iff.mp hcross⟩
  · obtain ⟨i, hi, hsettled⟩ := hgranted step hstep
    exact ⟨i, hi, hsettled, fun hsteady => (haccount.steady hsteady i hi).trans hsettled.epoch_eq⟩

/-- Someone in a room. -/
def nurse : Person where
  localId := 1
  picture := 0
  x := 0
  y := 0
  level := 0
  movementType := 0
  movement := 0
  trainer := 0
  view := 0
  script := 0
  flag := 0

/-- Three rooms, with someone in the second. -/
def hospital : World where
  banks := #[#[firstRoom, { secondRoom with persons := #[nurse] }, thirdRoom]]

/-- Grants every hop but the one from the first room to the second. -/
def doorman : Validator Unit where
  generation _ := 0
  validate s here edge := (aroundOnly here edge, s)

/-- Anyone in the second room will do. -/
def toNurse : Errand Unit :=
  .person fun t m _ => (m.id == ⟨0, 1⟩, t)

/-- Around by the third room. -/
def wayToNurse : List RouteStep :=
  [⟨inRoom 0, .warp 1 ⟨0, 0, 0, 0, ⟨0, 2⟩⟩, inRoom 2⟩,
    ⟨inRoom 2, .warp 1 ⟨0, 0, 0, 1, ⟨0, 1⟩⟩, inRoom 1⟩, ⟨inRoom 1, .person nurse, inRoom 1⟩]

/-- A search for the second room. -/
def firstVisit : Option (List RouteStep) × RouteFinder × Record Unit Unit :=
  search (doorman.recorded (Errand.map ⟨0, 1⟩).check) (.fresh hospital 100)
    (doorman.opening () () []) (inRoom 0)

theorem search_wellFormed_toNurse :
    doorman.Session hospital 100 firstVisit.2.1 firstVisit.2.2.inquiries ∧
    (search (doorman.guide toNurse.check) firstVisit.2.1 ((), ()) (inRoom 0)).1 = some wayToNurse ∧
    ∃ hops rest finish, wayToNurse = hops ++ rest ∧ Linked (inRoom 0) wayToNurse finish ∧
      toNurse.Done hospital (doorman.record toNurse.check firstVisit.2.1 () ()
        firstVisit.2.2.inquiries (inRoom 0)).looks rest finish := by
  have hsession : doorman.Session hospital 100 firstVisit.2.1 firstVisit.2.2.inquiries :=
    .search .fresh _ () () (inRoom 0)
  have hanswers : (doorman.guide toNurse.check).Answers (fun _ => True) aroundOnly
      fun m here => (toNurse.check () m here).1 :=
    ⟨fun _ _ _ _ => ⟨rfl, trivial⟩, fun _ _ _ _ => ⟨rfl, trivial⟩⟩
  -- The doorman has always answered as he does now.
  have hremembers : firstVisit.2.1.generation? = some 0 →
      firstVisit.2.1.Remembers aroundOnly := by
    intro hgeneration a e verdict hverdict
    obtain ⟨i, -, hsettled⟩ := hsession.account.backed 0 hgeneration a e verdict hverdict
    exact hsettled.answer.symm
  have hroute : (search (doorman.guide toNurse.check) firstVisit.2.1 ((), ()) (inRoom 0)).1 =
      some wayToNurse := by
    rw [search_eq_plan hanswers hsession.account.charted trivial hremembers,
      hsession.account.world, hsession.account.size]
    decide +kernel
  obtain ⟨hops, rest, finish, hform, hlinked, -, -, -, hdone⟩ :=
    search_wellFormed hsession toNurse () () (inRoom 0) hroute
  exact ⟨hsession, hroute, hops, rest, finish, hform, hlinked, hdone⟩

end RouteFinder

end Cartridge
