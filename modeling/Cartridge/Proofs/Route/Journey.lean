import Cartridge.Proofs.Route.Hop
import Cartridge.Proofs.Route.Plan
import Cartridge.Proofs.Route.Record
import Cartridge.Proofs.Walk.Walkable

/-!
# Journey — a navigator and a route finder in use together

The route finder asks the navigator whether hops can be walked and remembers the answers until the
navigator reports another generation; every report about actors starts one.  So the verdicts that
the route finder has in mind of the present generation are true of the present actors
(`Journey.informed`), and every hop of a route that it finds can be walked as long as nothing else
is reported (`RouteFinder.search_walkable_now`).
-/

namespace Cartridge

open RouteFinder

/-- A navigator that says whether hops can be walked. -/
def Navigator.validator : Validator Navigator where
  generation n := n.generation
  validate n start edge := n.validate start edge

/-- What has become of a navigator and of a route finder that asks it: reports about actors, walks
looked for, routes searched for, and verdicts forgotten. -/
inductive Journey (w : World) (settings : WalkSettings) (size : Nat) :
    Navigator → RouteFinder → Prop where
  | fresh : Journey w settings size (.fresh w settings) (.fresh w size)
  | setOccupancy {n : Navigator} {f : RouteFinder} (before : Journey w settings size n f)
    (id : MapId) (o : Occupancy) : Journey w settings size (n.setOccupancy id o) f
  | setOverworld {n : Navigator} {f : RouteFinder} (before : Journey w settings size n f)
    (live : Overworld) : Journey w settings size (n.setOverworld live) f
  | pathFor {n : Navigator} {f : RouteFinder} (before : Journey w settings size n f)
    (start : Spot) (edge : Edge) : Journey w settings size (n.pathFor start edge).2 f
  | validate {n : Navigator} {f : RouteFinder} (before : Journey w settings size n f)
    (start : Spot) (edge : Edge) : Journey w settings size (n.validate start edge).2 f
  | search {n n' : Navigator} {f f' : RouteFinder} (before : Journey w settings size n f)
    {τ : Type} {check : τ → Map → Spot → Goal × τ} {t t' : τ} {start : Spot}
    {route? : Option (List RouteStep)}
    (run : RouteFinder.search (Navigator.validator.guide check) f (n, t) start =
      (route?, f', (n', t'))) : Journey w settings size n' f'
  | clear {n : Navigator} {f : RouteFinder} (before : Journey w settings size n f) :
    Journey w settings size n f.clear

/-! ## What the route finder has in mind -/

/-- The finders are tended, and the verdicts of the present generation are true now. -/
structure Informed (n : Navigator) (f : RouteFinder) : Prop where
  tended : n.Tended
  charted : f.Charted
  past : ∀ generation, f.generation? = some generation → generation ≤ n.generation
  now : f.generation? = some n.generation → f.Remembers n.canWalk

namespace Informed

variable {n n' : Navigator} {f f' : RouteFinder}

theorem fresh (w : World) (settings : WalkSettings) (size : Nat) :
    Informed (.fresh w settings) (.fresh w size) :=
  ⟨Navigator.tended_fresh w settings, charted_fresh w size, (fun _ hg => by cases hg),
    (fun hg => by cases hg)⟩

/-- A report about actors starts a generation of which nothing is in mind. -/
theorem report (h : Informed n f) (htended : n'.Tended)
    (hnext : n'.generation = n.generation + 1) : Informed n' f := by
  refine ⟨htended, h.charted, fun generation hg => ?_, fun hg => ?_⟩
  · have hpast := h.past generation hg
    omega
  · have hpast := h.past n'.generation hg
    omega

/-- As long as only finders change, what is in mind stays true. -/
theorem keep (h : Informed n f) (hsame : n.SameActors n') : Informed n' f := by
  refine ⟨hsame.tended, h.charted, fun generation hg => ?_, fun hg => ?_⟩
  · rw [hsame.generation]
    exact h.past generation hg
  · rw [hsame.canWalk]
    rw [hsame.generation] at hg
    exact h.now hg

/-- A route finder that forgets has nothing false in mind. -/
theorem clear (h : Informed n f) : Informed n f.clear := by
  refine ⟨h.tended, h.charted, h.past, fun _ a e verdict hverdict => ?_⟩
  rw [verdict_clear] at hverdict
  cases hverdict

/-- **A search** changes only finders of the navigator and leaves the route finder informed, and all
hops of a route can be walked. -/
theorem search (h : Informed n f) {τ : Type} {check : τ → Map → Spot → Goal × τ} {t t' : τ}
    {start : Spot} {route? : Option (List RouteStep)}
    (hr : RouteFinder.search (Navigator.validator.guide check) f (n, t) start =
      (route?, f', (n', t'))) :
    Informed n' f' ∧ n.SameActors n' ∧ ∀ route, route? = some route → ∀ step ∈ route,
      n.canWalk step.start step.edge = true := by
  obtain ⟨hcharted, q, ⟨hsame, hgeneration, hremembers⟩, hroute⟩ := explore_induction
    (P := fun f (r : Navigator × τ) _ => n.SameActors r.1 ∧
      f.generation? = some n.generation ∧ f.Remembers n.canWalk)
    (fun f r q exits hq => hq)
    (fun f r q q' hq _ => hq)
    (fun f r q c step hq _ _ _ => by
      obtain ⟨hsame, hgeneration, hremembers⟩ := hq
      obtain ⟨hverdict, hafter⟩ := hsame.validate step.start step.edge
      have hanswer : ((Navigator.validator.guide check).validate r step.start step.edge).1 =
          n.canWalk step.start step.edge := hverdict
      refine ⟨hafter, hgeneration, ?_⟩
      rw [hanswer]
      exact hremembers.learn step.start step.edge)
    (fun f r q c m hq _ _ => hq)
    _ (h.charted.atGeneration _) ⟨.refl h.tended, generation_atGeneration _, .atGeneration h.now⟩ hr
  refine ⟨⟨hsame.tended, hcharted, fun generation hg => ?_, fun _ => ?_⟩, hsame,
    fun route hsome step hstep => ?_⟩
  · rw [hgeneration] at hg
    rw [hsame.generation]
    exact (Option.some.inj hg).ge
  · rw [hsame.canWalk]
    exact hremembers
  · obtain ⟨c, -, -, -, hgranted⟩ := hroute route hsome
    exact (hremembers _ _ _ (hgranted step hstep)).symm

end Informed

variable {w : World} {settings : WalkSettings} {size : Nat} {n n' : Navigator}
  {f f' : RouteFinder}

/-- **Whatever the two have been used for**, what the route finder has in mind of the present
generation is true. -/
theorem Journey.informed (h : Journey w settings size n f) : Informed n f := by
  induction h with
  | fresh => exact .fresh w settings size
  | setOccupancy _ id o ih => exact ih.report ih.tended rfl
  | setOverworld _ live ih => exact ih.report ih.tended rfl
  | pathFor _ start edge ih => exact ih.keep (ih.tended.pathFor start edge)
  | validate _ start edge ih =>
    exact ih.keep ((Navigator.SameActors.refl ih.tended).validate start edge).2
  | search _ run ih => exact (ih.search run).1
  | clear _ ih => exact ih.clear

/-- Whatever the two have been used for, the navigator walks in the same world by the same settings.
-/
theorem Journey.world_eq (h : Journey w settings size n f) :
    n.world = w ∧ n.settings = settings := by
  have hsame {n n' : Navigator} (h : n.SameActors n') :
      n'.world = n.world ∧ n'.settings = n.settings := by
    obtain ⟨-, finders, rfl⟩ := h
    exact ⟨rfl, rfl⟩
  induction h with
  | fresh => exact ⟨rfl, rfl⟩
  | setOccupancy _ _ _ ih => exact ih
  | setOverworld _ _ ih => exact ih
  | pathFor before start edge ih =>
    obtain ⟨hworld, hsettings⟩ := hsame (before.informed.tended.pathFor start edge)
    exact ⟨hworld.trans ih.1, hsettings.trans ih.2⟩
  | validate before start edge ih =>
    obtain ⟨hworld, hsettings⟩ :=
      hsame ((Navigator.SameActors.refl before.informed.tended).validate start edge).2
    exact ⟨hworld.trans ih.1, hsettings.trans ih.2⟩
  | search before run ih =>
    obtain ⟨hworld, hsettings⟩ := hsame (before.informed.search run).2.1
    exact ⟨hworld.trans ih.1, hsettings.trans ih.2⟩
  | clear _ ih => exact ih

/-! ## Walking a route -/

/-- The walks that a navigator finds for hops, one after the other. -/
def Navigator.walks (n : Navigator) : List RouteStep → List (Option (List Cell))
  | [] => []
  | step :: rest =>
    let (path?, n) := n.pathFor step.start step.edge
    path? :: walks n rest

/-- Walks that are looked for one after the other do not get into each other's way. -/
theorem Navigator.walks_eq (h : n.Tended) (steps : List RouteStep) :
    n.walks steps = steps.map fun step => n.hopWalk? step.start step.edge := by
  induction steps generalizing n with
  | nil => rfl
  | cons step rest ih =>
    have hsame := h.pathFor step.start step.edge
    have hrest := ih hsame.tended
    rw [List.map_congr_left fun step _ => hsame.hopWalk step.start step.edge] at hrest
    rw [walks, List.map_cons]
    dsimp only
    rw [pathFor_eq h, hrest]

namespace RouteFinder

/-- **Every route can be walked now**, whatever the navigator and the route finder have been used
for before: right after the search the navigator finds a walk for every hop of the route, in any
order and any number of times. -/
theorem search_walkable_now (h : Journey w settings size n f) {τ : Type}
    (check : τ → Map → Spot → Goal × τ) (t : τ) (start : Spot) {route : List RouteStep}
    (hr : (search (Navigator.validator.guide check) f (n, t) start).1 = some route)
    {steps : List RouteStep} (hsteps : steps ⊆ route) :
    ∀ path? ∈ (search (Navigator.validator.guide check) f (n, t) start).2.2.1.walks steps,
      path?.isSome := by
  obtain ⟨route?, f', ⟨n', t'⟩, hrun⟩ : ∃ route? f' r,
      search (Navigator.validator.guide check) f (n, t) start = (route?, f', r) := ⟨_, _, _, rfl⟩
  obtain ⟨hinformed, hsame, hwalkable⟩ := h.informed.search hrun
  rw [hrun] at hr ⊢
  rw [Navigator.walks_eq hinformed.tended]
  intro path? hpath
  obtain ⟨step, hstep, rfl⟩ := List.mem_map.mp hpath
  rw [hsame.hopWalk]
  exact hwalkable route hr step (hsteps hstep)

/-- A yard with the door of a shed at its corner. -/
def shedYard : Map :=
  { Finder.yard with warps := #[⟨2, 0, 0, 0, ⟨0, 1⟩⟩] }

/-- The inside of the shed. -/
def shed : Map :=
  { Map.ofTiles ⟨0, 1⟩ 1 1 #[.ground] with warps := #[⟨0, 0, 0, 0, ⟨0, 0⟩⟩] }

/-- The yard and the shed. -/
def village : World where
  banks := #[#[shedYard, shed]]

/-- In the door that opens onto the yard. -/
def inDoor : Spot :=
  ⟨⟨0, 0⟩, ⟨0, 0⟩⟩

/-- Leads to the shed. -/
def toShed (t : Unit) (_ : Map) (here : Spot) : Goal × Unit :=
  (.onMap ⟨0, 1⟩ here, t)

/-- Across the yard into the shed. -/
def intoShed : RouteStep :=
  ⟨inDoor, .warp 0 ⟨2, 0, 0, 0, ⟨0, 1⟩⟩, ⟨⟨0, 0⟩, ⟨0, 1⟩⟩⟩

/-- Someone stands before the door. -/
def barred : Navigator :=
  (Navigator.fresh village {}).setOccupancy ⟨0, 0⟩ ⟨[⟨0, 1⟩]⟩

/-- A search for the shed while someone stands before the door. -/
def firstTry : Option (List RouteStep) × RouteFinder × Navigator × Unit :=
  search (Navigator.validator.guide toShed) (.fresh village 100) (barred, ()) inDoor

/-- They have gone. -/
def reopened : Navigator :=
  firstTry.2.2.1.setOccupancy ⟨0, 0⟩ .free

/-- The way from the door to the shed is clear again. -/
theorem canWalk_reopened (hsame : barred.SameActors firstTry.2.2.1) :
    reopened.canWalk inDoor intoShed.edge = true := by
  obtain ⟨-, finders, hfinders⟩ := hsame
  have hmap : reopened.world.map? inDoor.map = some shedYard := by
    rw [reopened, hfinders]
    rfl
  have hsettings : reopened.settings = {} := by
    rw [reopened, hfinders]
    rfl
  have hblocked : reopened.blocked inDoor.map = Occupancy.free.blocks :=
    Navigator.blocked_setOccupancy _ _ _
  have hwalk : Finder.walkIn? (.ofMap shedYard {}) 10 inDoor.cell
      (reopened.hopGoal (.ofMap shedYard {}) inDoor intoShed.edge) Occupancy.free.blocks =
      some (some [⟨0, 1⟩, ⟨2, 1⟩, ⟨2, 0⟩]) := by decide +kernel
  have hfound : Finder.walk? (.ofMap shedYard {}) ({} : WalkSettings).maxExpansions inDoor.cell
      (reopened.hopGoal (.ofMap shedYard {}) inDoor intoShed.edge) Occupancy.free.blocks =
      some [⟨0, 1⟩, ⟨2, 1⟩, ⟨2, 0⟩] := Finder.walk?_of_walkIn? hwalk (by decide)
  rw [Navigator.canWalk, Navigator.hopWalk?, hmap, Option.bind_some, hsettings, hblocked, hfound]
  rfl

theorem search_walkable_now_village :
    Journey village {} 100 reopened firstTry.2.1 ∧
    (search (Navigator.validator.guide toShed) firstTry.2.1 (reopened, ()) inDoor).1 =
      some [intoShed] ∧
    ∀ path? ∈ (search (Navigator.validator.guide toShed) firstTry.2.1 (reopened, ())
      inDoor).2.2.1.walks [intoShed, intoShed], path?.isSome := by
  have hbefore : Journey village {} 100 barred (.fresh village 100) := .setOccupancy .fresh _ _
  have hjourney : Journey village {} 100 reopened firstTry.2.1 :=
    .setOccupancy (.search hbefore (rfl : _ = firstTry)) _ _
  have hinformed := hjourney.informed
  have hsame : barred.SameActors firstTry.2.2.1 :=
    (hbefore.informed.search (rfl : _ = firstTry)).2.1
  have haccount : Navigator.validator.Account village 100 firstTry.2.1
      (Navigator.validator.record toShed (.fresh village 100) barred () [] inDoor).inquiries := by
    rw [firstTry, Validator.search_recorded _ _ _ _ _ []]
    exact (Validator.Session.search .fresh toShed barred () inDoor).account
  have hanswers : (Navigator.validator.guide toShed).Answers (fun r => reopened.SameActors r.1)
      reopened.canWalk fun _ => Goal.onMap ⟨0, 1⟩ :=
    ⟨fun r hr a e => hr.validate a e, fun r hr m a => ⟨rfl, hr⟩⟩
  have hplan (walkable : Spot → Edge → Bool) (h : walkable inDoor intoShed.edge = true) :
      village.plan (fun _ => Goal.onMap ⟨0, 1⟩) walkable [⟨inDoor, [], [inDoor], false⟩] 100 =
        some [intoShed] := by
    have hblocked : blocked? walkable [intoShed] = none := blocked_cons_of_walkable h
    have hreach : village.plan (fun _ => Goal.onMap ⟨0, 1⟩) walkable
        [⟨inDoor, [], [inDoor], false⟩] 100 = village.plan (fun _ => Goal.onMap ⟨0, 1⟩) walkable
          (⟨intoShed.finish, [intoShed], [intoShed.finish, inDoor], true⟩ :: _) 98 := rfl
    rw [hreach, World.plan, if_pos rfl, show [intoShed].reverse = [intoShed] from rfl, hblocked]
  have hroute : (search (Navigator.validator.guide toShed) firstTry.2.1 (reopened, ()) inDoor).1 =
      some [intoShed] := by
    rw [search_eq_plan hanswers hinformed.charted (s := (reopened, ())) (.refl hinformed.tended)
      hinformed.now, haccount.world, haccount.size]
    exact hplan _ (canWalk_reopened hsame)
  exact ⟨hjourney, hroute, search_walkable_now hjourney toShed () inDoor hroute (by simp)⟩

end RouteFinder

end Cartridge
