import Cartridge.Proofs.Route.Journey
import Cartridge.Proofs.Route.WellFormed

/-!
# Person — which people a search gets to

A search for a person who passes a test picks one for every map, the first of those who pass, before
it knows who can be got to (`Goal.rest_firstPerson_iff`).  So it finds a route exactly if some trail
of walkable hops leads to a place from which the first of those on its map can be approached
(`RouteFinder.search_person_iff`).  A second one is missed if the first is out of reach
(`RouteFinder.search_person_missed`).
-/

namespace Cartridge

namespace Goal

variable {τ : Type} {test : τ → Map → Nat → Bool × τ} {passes : Map → Nat → Bool} {m : Map}
  {here : Spot} {rest : List RouteStep}

/-- The goal of standing next to the first person of a map who passes a test that has no state. -/
def firstPerson (passes : Map → Nat → Bool) (m : Map) : Goal :=
  (atPerson (fun (u : Unit) m i => (passes m i, u)) () m).1

/-- A test whose answers depend on the person only picks the person that they pick. -/
theorem nextToPerson_eq (htest : ∀ t m i, (test t m i).1 = passes m i) (t : τ) (i : Nat)
    (persons : List Person) : (nextToPerson test t m i persons).1 =
      (nextToPerson (fun (u : Unit) m i => (passes m i, u)) () m i persons).1 := by
  induction persons generalizing t i with
  | nil => rfl
  | cons person others ih =>
    rw [nextToPerson, nextToPerson, ← htest t m i]
    rcases test t m i with ⟨_ | _, t'⟩
    · exact ih t' (i + 1)
    · rfl

/-- The person that is approached is the first one who passes. -/
theorem rest_nextToPerson_iff {persons : List Person} {i : Nat} :
    (nextToPerson (fun (u : Unit) m i => (passes m i, u)) () m i persons).1.rest? here = some rest ↔
      ∃ k person, persons[k]? = some person ∧ passes m (i + k) = true ∧
        (∀ j < k, passes m (i + j) = false) ∧
        rest = [⟨here, .person person, ⟨person.cell, here.map⟩⟩] := by
  induction persons generalizing i with
  | nil => simp [nextToPerson, rest?]
  | cons person others ih =>
    rw [nextToPerson]
    cases hfirst : passes m i with
    | true =>
      constructor
      · intro h
        exact ⟨0, person, rfl, hfirst, fun j hj => absurd hj (Nat.not_lt_zero j),
          (Option.some.inj h).symm⟩
      · rintro ⟨_ | k, who, hwho, -, hothers, rfl⟩
        · rw [List.getElem?_cons_zero, Option.some.injEq] at hwho
          subst hwho
          rfl
        · have hnot := hothers 0 (Nat.succ_pos k)
          rw [Nat.add_zero, hfirst] at hnot
          cases hnot
    | false =>
      have hshift (k : Nat) : i + (k + 1) = i + 1 + k := by omega
      refine ih.trans ⟨?_, ?_⟩
      · rintro ⟨k, who, hwho, hpasses, hothers, hrest⟩
        refine ⟨k + 1, who, hwho, by rw [hshift]; exact hpasses, fun j hj => ?_, hrest⟩
        cases j with
        | zero => exact hfirst
        | succ j =>
          rw [hshift]
          exact hothers j (Nat.lt_of_succ_lt_succ hj)
      · rintro ⟨_ | k, who, hwho, hpasses, hothers, hrest⟩
        · rw [Nat.add_zero, hfirst] at hpasses
          cases hpasses
        · refine ⟨k, who, hwho, by rw [← hshift]; exact hpasses, fun j hj => ?_, hrest⟩
          rw [← hshift]
          exact hothers (j + 1) (Nat.succ_lt_succ hj)

theorem rest_firstPerson_iff : (firstPerson passes m).rest? here = some rest ↔
    ∃ i person, m.persons[i]? = some person ∧ passes m i = true ∧
      (∀ j < i, passes m j = false) ∧
      rest = [⟨here, .person person, ⟨person.cell, here.map⟩⟩] := by
  change (nextToPerson _ () m 0 m.persons.toList).1.rest? here = some rest ↔ _
  rw [rest_nextToPerson_iff]
  simp only [Nat.zero_add, Array.getElem?_toList]

end Goal

namespace World

/-- A trail of walkable hops leads to a place from which a person who passes a test can be
approached. -/
structure Approaches (w : World) (passes : Map → Nat → Bool) (walkable : Spot → Edge → Bool)
    (start : Spot) (hops : List RouteStep) (here : Spot) (m : Map) (i : Nat) (person : Person) :
    Prop where
  trail : w.Trail start hops here
  map : w.map? here.map = some m
  listed : m.persons[i]? = some person
  passes : passes m i = true
  walkable : ∀ step ∈ hops ++ [⟨here, .person person, ⟨person.cell, here.map⟩⟩],
    walkable step.start step.edge = true

variable {w : World} {passes : Map → Nat → Bool} {walkable : Spot → Edge → Bool}
  {start here : Spot} {hops rest : List RouteStep}

/-- A search is over when the first of those who pass on some map is approached. -/
theorem solves_firstPerson_iff :
    w.Solves (fun m _ => Goal.firstPerson passes m) walkable start hops here rest ↔
      ∃ m i person, w.Approaches passes walkable start hops here m i person ∧
        (∀ j < i, passes m j = false) ∧
        rest = [⟨here, .person person, ⟨person.cell, here.map⟩⟩] := by
  constructor
  · rintro ⟨htrail, ⟨m, hm, hrest⟩, hwalk⟩
    obtain ⟨i, person, hperson, hpasses, hfirst, rfl⟩ := Goal.rest_firstPerson_iff.mp hrest
    exact ⟨m, i, person, ⟨htrail, hm, hperson, hpasses, hwalk⟩, hfirst, rfl⟩
  · rintro ⟨m, i, person, h, hfirst, rfl⟩
    have hmeets : w.Meets (fun m _ => Goal.firstPerson passes m) here
        [⟨here, .person person, ⟨person.cell, here.map⟩⟩] :=
      ⟨m, h.map, Goal.rest_firstPerson_iff.mpr ⟨i, person, h.listed, h.passes, hfirst, rfl⟩⟩
    exact ⟨h.trail, hmeets, h.walkable⟩

end World

namespace RouteFinder

open World

variable {σ τ : Type} {v : Validator σ} {test : τ → Map → Nat → Bool × τ} {w : World}
  {start : Spot} {passes : Map → Nat → Bool} {walkable : Spot → Edge → Bool} {S : σ → Prop} {s : σ}

/-- A new finder that looks for a person searches as one that asks afresh each time. -/
theorem search_person_eq_plan (htest : ∀ t m i, (test t m i).1 = passes m i)
    (hvalidate : ∀ s, S s → ∀ a e, (v.validate s a e).1 = walkable a e ∧ S (v.validate s a e).2)
    (hs : S s) (n : Nat) (t : τ) :
    (search (v.guide (Errand.person test).check) (.fresh w n) (s, t) start).1 =
      w.plan (fun m _ => Goal.firstPerson passes m) walkable [⟨start, [], [start], false⟩] n := by
  have hanswers : (v.guide (Errand.person test).check).Answers (fun r => S r.1) walkable
      fun m _ => Goal.firstPerson passes m :=
    ⟨fun r hr a e => hvalidate r.1 hr a e,
      fun r hr m _ => ⟨Goal.nextToPerson_eq htest r.2 0 m.persons.toList, hr⟩⟩
  exact search_eq_plan hanswers (charted_fresh w n) hs (fun hnone => by cases hnone) start

/-- **Which people a search gets to.**  If the answers of the test and of the validator depend only
on what is asked, then with enough candidates allowed a new finder finds a route exactly if a trail
of walkable hops leads to a place from which the first person of its map who passes can be
approached, and every route leads so to a person who passes. -/
theorem search_person_iff (v : Validator σ) (test : τ → Map → Nat → Bool × τ) (w : World)
    (start : Spot) (passes : Map → Nat → Bool) (walkable : Spot → Edge → Bool) (S : σ → Prop)
    (htest : ∀ t m i, (test t m i).1 = passes m i)
    (hvalidate : ∀ s, S s → ∀ a e,
      (v.validate s a e).1 = walkable a e ∧ S (v.validate s a e).2) :
    ∃ enough, ∀ n, enough ≤ n → ∀ s t, S s →
      ((search (v.guide (Errand.person test).check) (.fresh w n) (s, t) start).1.isSome ↔
        ∃ hops here m i person, w.Approaches passes walkable start hops here m i person ∧
          ∀ j < i, passes m j = false) ∧
      ∀ route, (search (v.guide (Errand.person test).check) (.fresh w n) (s, t) start).1 =
          some route →
        ∃ hops here m i person, w.Approaches passes walkable start hops here m i person ∧
          route = hops ++ [⟨here, .person person, ⟨person.cell, here.map⟩⟩] := by
  refine ⟨w.load [⟨start, [], [start], false⟩], fun n hn s t hs => ?_⟩
  have hbest : w.Best (fun m _ => Goal.firstPerson passes m) walkable start
      [⟨start, [], [start], false⟩] (w.plan (fun m _ => Goal.firstPerson passes m) walkable
        [⟨start, [], [start], false⟩] n) :=
    best_plan n (fun c hc => List.mem_singleton.mp hc ▸ RouteCandidate.Follows.first)
      (List.pairwise_singleton _ _) hn
  rw [search_person_eq_plan htest hvalidate hs]
  cases hroute : w.plan (fun m _ => Goal.firstPerson passes m) walkable
      [⟨start, [], [start], false⟩] n with
  | none =>
    rw [hroute] at hbest
    refine ⟨⟨fun h => absurd h (by simp), ?_⟩, fun route h => absurd h (by simp)⟩
    rintro ⟨hops, here, m, i, person, happroach, hfirst⟩
    have hsolves := solves_firstPerson_iff.mpr ⟨m, i, person, happroach, hfirst, rfl⟩
    obtain ⟨way, hway, hsimple, -⟩ := hsolves.exists_simple
    exact absurd (hway.awaits hsimple) (hbest _ _ _)
  | some route =>
    rw [hroute] at hbest
    obtain ⟨hops, here, rest, rfl, hsolves, -⟩ := hbest
    obtain ⟨m, i, person, happroach, hfirst, rfl⟩ := solves_firstPerson_iff.mp hsolves
    refine ⟨⟨fun _ => ⟨hops, here, m, i, person, happroach, hfirst⟩, fun _ => rfl⟩, ?_⟩
    rintro _ ⟨⟩
    exact ⟨hops, here, m, i, person, happroach, rfl⟩

/-- Whoever is in the second room passes. -/
def isInSecondRoom (u : Unit) (m : Map) (_ : Nat) : Bool × Unit :=
  (m.id == ⟨0, 1⟩, u)

theorem search_person_iff_hospital :
    (∀ u m i, (isInSecondRoom u m i).1 = (m.id == ⟨0, 1⟩)) ∧
    (∀ s, True → ∀ a e, (doorman.validate s a e).1 = aroundOnly a e ∧ True) ∧
    ∃ enough, ∀ n, enough ≤ n →
      (search (doorman.guide (Errand.person isInSecondRoom).check) (.fresh hospital n) ((), ())
        (inRoom 0)).1.isSome := by
  have htest : ∀ u m i, (isInSecondRoom u m i).1 =
      (fun (m : Map) (_ : Nat) => m.id == ⟨0, 1⟩) m i := fun _ _ _ => rfl
  have hvalidate : ∀ s, True → ∀ a e, (doorman.validate s a e).1 = aroundOnly a e ∧ True :=
    fun _ _ _ _ => ⟨rfl, trivial⟩
  have hleave : hospital.Crosses ⟨inRoom 0, .warp 1 ⟨0, 0, 0, 0, ⟨0, 2⟩⟩, inRoom 2⟩ :=
    ⟨firstRoom, rfl, by decide +kernel⟩
  have harrive : hospital.Crosses ⟨inRoom 2, .warp 1 ⟨0, 0, 0, 1, ⟨0, 1⟩⟩, inRoom 1⟩ :=
    ⟨thirdRoom, rfl, by decide +kernel⟩
  have happroach : hospital.Approaches (fun m _ => m.id == ⟨0, 1⟩) aroundOnly (inRoom 0)
      [⟨inRoom 0, .warp 1 ⟨0, 0, 0, 0, ⟨0, 2⟩⟩, inRoom 2⟩,
        ⟨inRoom 2, .warp 1 ⟨0, 0, 0, 1, ⟨0, 1⟩⟩, inRoom 1⟩] (inRoom 1)
      { secondRoom with persons := #[nurse] } 0 nurse :=
    ⟨.cross hleave (.cross harrive (.here _)), rfl, rfl, rfl, by decide⟩
  obtain ⟨enough, hsearch⟩ := search_person_iff doorman isInSecondRoom hospital (inRoom 0)
    (fun m _ => m.id == ⟨0, 1⟩) aroundOnly (fun _ => True) htest hvalidate
  refine ⟨htest, hvalidate, enough, fun n hn => ?_⟩
  exact (hsearch n hn () () trivial).1.mpr
    ⟨_, _, _, _, _, happroach, fun j hj => absurd hj (Nat.not_lt_zero j)⟩

/-! ## Two in one room -/

/-- Someone beyond the wall. -/
def farNurse : Person :=
  { nurse with x := 3 }

/-- Someone next to the door. -/
def nearNurse : Person :=
  { nurse with localId := 2, x := 1 }

/-- A room with a wall across it and someone on either side. -/
def ward : Map :=
  { Map.ofTiles ⟨0, 0⟩ 4 1 #[.ground, .ground, .wall, .ground] with
    persons := #[farNurse, nearNurse] }

/-- A world with one room. -/
def clinic : World where
  banks := #[#[ward]]

/-- In the door of the ward. -/
def inWard : Spot :=
  ⟨⟨0, 0⟩, ⟨0, 0⟩⟩

/-- Anyone will do. -/
def isAnyone (u : Unit) (_ : Map) (_ : Nat) : Bool × Unit :=
  (true, u)

/-- What a search for a walk in the ward gives is what the navigator goes by. -/
theorem canWalk_inWard {person : Person} (path? : Option (List Cell))
    (h : Finder.walkIn? (.ofMap ward {}) 10 inWard.cell
      ((Navigator.fresh clinic {}).hopGoal (.ofMap ward {}) inWard (.person person))
        Occupancy.free.blocks = some path?) :
    (Navigator.fresh clinic {}).canWalk inWard (.person person) = path?.isSome := by
  rw [Navigator.canWalk, Navigator.hopWalk_fresh rfl h (by decide)]

/-- To the first one, and no farther. -/
def toFarNurse : RouteStep :=
  ⟨inWard, .person farNurse, ⟨farNurse.cell, inWard.map⟩⟩

/-- Without a walk to the first one, the only candidate is dropped. -/
theorem plan_of_blocked (h : walkable inWard toFarNurse.edge = false) (n : Nat) :
    clinic.plan (fun m _ => Goal.firstPerson (fun _ _ => true) m) walkable
      [⟨inWard, [], [inWard], false⟩] n = none := by
  have hblocked : blocked? walkable [toFarNurse] = some toFarNurse := blocked_cons_of_blocked h
  rcases n with _ | _ | n
  · rfl
  · rfl
  · have hlook : clinic.plan (fun m _ => Goal.firstPerson (fun _ _ => true) m) walkable
        [⟨inWard, [], [inWard], false⟩] (n + 2) =
        clinic.plan (fun m _ => Goal.firstPerson (fun _ _ => true) m) walkable
          [⟨inWard, [toFarNurse], [inWard], true⟩] (n + 1) := rfl
    rw [hlook, World.plan, if_pos rfl, show [toFarNurse].reverse = [toFarNurse] from rfl, hblocked]
    cases n <;> rfl

/-- **The second of two who pass is missed**, though she can be approached at once, if the first
cannot. -/
theorem search_person_missed :
    clinic.Approaches (fun _ _ => true) (Navigator.fresh clinic {}).canWalk inWard [] inWard ward 1
      nearNurse ∧
    ∀ n, (search (Navigator.validator.guide (Errand.person isAnyone).check) (.fresh clinic n)
      (.fresh clinic {}, ()) inWard).1 = none := by
  have hnear : (Navigator.fresh clinic {}).canWalk inWard (.person nearNurse) = true :=
    canWalk_inWard (some []) (by decide +kernel)
  have hfar : (Navigator.fresh clinic {}).canWalk inWard (.person farNurse) = false :=
    canWalk_inWard none (by decide +kernel)
  refine ⟨⟨.here _, rfl, rfl, rfl, ?_⟩, fun n => ?_⟩
  · intro step hstep
    obtain rfl := List.mem_singleton.mp hstep
    exact hnear
  · have htest : ∀ u m i, (isAnyone u m i).1 = (fun (_ : Map) (_ : Nat) => true) m i :=
      fun _ _ _ => rfl
    have hvalidate (n : Navigator) (hn : (Navigator.fresh clinic {}).SameActors n) (a : Spot)
        (e : Edge) := hn.validate a e
    rw [search_person_eq_plan htest hvalidate (.refl (Navigator.tended_fresh _ _))]
    exact plan_of_blocked hfar n

end RouteFinder

end Cartridge
