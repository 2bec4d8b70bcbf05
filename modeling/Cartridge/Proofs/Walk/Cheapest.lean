import Cartridge.Proofs.Walk.Complete
import Cartridge.Proofs.Walk.Small
import Mathlib.Order.ConditionallyCompleteLattice.Basic
import Mathlib.Order.Nat

/-!
# Cheapest — what a walk costs that a search finds

On every walk to the goal there is an open node that the search has come to for no more than the
walk did, and the frontier asks no more for it than it and the missing distance come to
(`Priced.exists_open`).  The node that is found was given out first, so it is worth no more.  Where
no move brings a walk nearer by more than it costs, it is therefore the cheapest one; jumps over
ledges and counters can at most double its cost and add one (`search_cheapest`).
-/

namespace Cartridge.Finder

variable {g : WalkGraph} {occupied : Cell → Bool} {goal : WalkGoal} {price : Cell → Nat}
  {origin i j a b : Nat} {p q : Progress} {n k : WalkNode} {start : Cell} {cells : List Cell}
  {ids : List Nat} {slope short : Nat}

/-! ## Walks and what they cost -/

/-- What it costs to enter cells one after the other. -/
def totalPrice (price : Cell → Nat) (cells : List Cell) : Nat :=
  (cells.map price).sum

/-- The cells lead by moves over free cells from a cell to the goal. -/
structure WalksTo (g : WalkGraph) (occupied : Cell → Bool) (goal : WalkGoal) (start : Cell)
    (cells : List Cell) : Prop where
  moves : (start :: cells).IsChain (Moves g occupied)
  there : ∃ finish, (start :: cells).getLast? = some finish ∧ reached g goal finish = true

theorem WalksTo.reached_of_nil (h : WalksTo g occupied goal start []) :
    reached g goal start = true := by
  obtain ⟨finish, hlast, hreached⟩ := h.there
  obtain rfl : start = finish := Option.some.inj hlast
  exact hreached

theorem WalksTo.tail {c : Cell} (h : WalksTo g occupied goal start (c :: cells)) :
    Moves g occupied start c ∧ WalksTo g occupied goal c cells := by
  obtain ⟨hmove, hmoves⟩ := List.isChain_cons_cons.mp h.moves
  obtain ⟨finish, hlast, hreached⟩ := h.there
  rw [List.getLast?_cons_cons] at hlast
  exact ⟨hmove, hmoves, finish, hlast, hreached⟩

/-- A way that ends at the goal is a walk to it. -/
theorem Leads.walksTo {finish : Cell} (h : Leads g occupied goal start cells finish)
    (hreached : reached g goal finish = true) : WalksTo g occupied goal start cells := by
  refine ⟨?_, finish, h.last, hreached⟩
  have hfree : ∀ c ∈ cells, occupied c = false := fun c hc => (h.clear c hc).2
  have hlinked := h.linked
  clear h
  induction cells generalizing start with
  | nil => exact List.isChain_singleton _
  | cons c rest ih =>
    obtain ⟨hlink, hrest⟩ := List.isChain_cons_cons.mp hlinked
    have hmove : Moves g occupied start c := ⟨hlink, hfree c List.mem_cons_self⟩
    exact List.isChain_cons_cons.mpr
      ⟨hmove, ih (fun d hd => hfree d (List.mem_cons_of_mem _ hd)) hrest⟩

/-- The weight of a node is at least what the way back from it costs. -/
theorem Priced.lineage_le (h : Priced g goal price p) (horigin : Weighs p.labels origin 0)
    (hids : Lineage p.labels origin j ids) :
    ∃ b, Weighs p.labels j b ∧ totalPrice price (cellsOf g ids) ≤ b := by
  induction hids with
  | origin => exact ⟨0, horigin, le_rfl⟩
  | @step i j ids came _ ih =>
    obtain ⟨a, ha, hle⟩ := ih
    obtain ⟨a', b, k, ha', hb, hk, hcame⟩ := h.came i j came
    obtain rfl : a = a' := ha.unique ha'
    have hcells : cellsOf g (j :: ids) = k.cell :: cellsOf g ids := by
      simp [cellsOf, hk]
    refine ⟨b, hb, ?_⟩
    rw [hcells, totalPrice, List.map_cons, List.sum_cons]
    rw [totalPrice] at hle
    omega

/-! ## The missing distance -/

/-- One move brings a walk nearer by `slope` at most, and it ends when at most `short` is missing. -/
structure Consistent (g : WalkGraph) (goal : WalkGoal) (slope short : Nat) : Prop where
  positive : 1 ≤ slope
  move : ∀ a b, b ∈ g.neighbors a → missing goal a ≤ missing goal b + slope
  ends : ∀ c, reached g goal c = true → missing goal c ≤ short

/-- From no cell on a walk is more missing than what the rest of the walk makes good. -/
theorem Consistent.missing_le (h : Consistent g goal slope short) (hprice : ∀ c, 1 ≤ price c)
    (hwalk : WalksTo g occupied goal start cells) :
    missing goal start ≤ slope * totalPrice price cells + short := by
  induction cells generalizing start with
  | nil =>
    have hend : missing goal start ≤ short := h.ends start hwalk.reached_of_nil
    omega
  | cons c rest ih =>
    obtain ⟨hmove, hrest⟩ := hwalk.tail
    have hstep : missing goal start ≤ missing goal c + slope := h.move start c hmove.1
    have hlater : missing goal c ≤ slope * totalPrice price rest + short := ih hrest
    have hcost : slope * 1 ≤ slope * price c := Nat.mul_le_mul_left slope (hprice c)
    have htotal : slope * totalPrice price (c :: rest) =
        slope * price c + slope * totalPrice price rest := by
      rw [totalPrice, List.map_cons, List.sum_cons, Nat.mul_add, totalPrice]
    omega

/-! ## An open node on every walk -/

/-- **On every walk to the goal there is an open node** that has been come to for no more than the
walk did. -/
theorem Priced.exists_open (hspread : Spread g occupied price p.labels)
    (hswept : Swept g occupied goal origin p) (hg : g.Placed) (hprices : Prices g price)
    (hconsistent : Consistent g goal slope short) (hn : WalkGraph.node? g.nodes i = some n)
    (ha : Weighs p.labels i a) (hwalk : WalksTo g occupied goal n.cell cells) :
    ∃ j k b, Weighs p.labels j b ∧ (labelAt p.labels j).closed = false ∧
      WalkGraph.node? g.nodes j = some k ∧
      b + missing goal k.cell ≤ a + slope * totalPrice price cells + short := by
  induction cells generalizing i n a with
  | nil =>
    have hreached := hwalk.reached_of_nil
    refine ⟨i, n, a, ha, ?_, hn, ?_⟩
    · by_contra hclosed
      have honward := hswept.onward i n (by simpa using hclosed) hn
      rw [honward] at hreached
      cases hreached
    · have hend : missing goal n.cell ≤ short := hconsistent.ends n.cell hreached
      omega
  | cons c rest ih =>
    by_cases hclosed : (labelAt p.labels i).closed = true
    · obtain ⟨hmove, hrest⟩ := hwalk.tail
      obtain ⟨j, k, hj, hk, rfl⟩ := (hg.mem_neighbors hn).mp hmove.1
      obtain ⟨b, hb, hweighs⟩ := hspread i n a j k hclosed ha hn hj hk hmove.2
      obtain ⟨j', k', b', hweighs', hopen, hk', hle⟩ := ih hk hweighs hrest
      refine ⟨j', k', b', hweighs', hopen, hk', ?_⟩
      have hcost : 1 * price k.cell ≤ slope * price k.cell :=
        Nat.mul_le_mul_right _ hconsistent.positive
      have htotal : slope * totalPrice price (k.cell :: rest) =
          slope * price k.cell + slope * totalPrice price rest := by
        rw [totalPrice, List.map_cons, List.sum_cons, Nat.mul_add, totalPrice]
      omega
    · have hmissing := hconsistent.missing_le hprices.positive hwalk
      exact ⟨i, n, a, ha, by simpa using hclosed, hn, by omega⟩

/-- **The node that is found is worth no more** than a walk to the goal costs, but for what jumps and
counters save. -/
theorem Priced.found_le (h : Priced g goal price p) (hspread : Spread g occupied price p.labels)
    (hswept : Swept g occupied goal origin p) (hg : g.Placed) (hprices : Prices g price)
    (hconsistent : Consistent g goal slope short) {first : WalkNode}
    (hfirst : WalkGraph.node? g.nodes origin = some first) (horigin : Weighs p.labels origin 0)
    (hends : Ends g goal p (some j)) (hb : Weighs p.labels j b)
    (hwalk : WalksTo g occupied goal first.cell cells) :
    b ≤ slope * totalPrice price cells + short := by
  obtain ⟨j', k, b', hb', hopen, hk, hle⟩ :=
    exists_open hspread hswept hg hprices hconsistent hfirst horigin hwalk
  obtain ⟨d, hd, -, hasked⟩ := h.waits j' b' k hb' hopen hk
  cases hends with
  | @found c rest n l htop =>
    obtain ⟨-, hleast⟩ := h.ordered.pop htop
    have hc : c ∈ p.frontier.toList := (Frontier.mem_of_pop htop).mpr (Or.inl rfl)
    have hpaid := h.paid c hc
    rw [hb.worthAt, WithTop.coe_le_coe] at hpaid
    have hvalue : (Cost.whole b).value ≤ (Cost.whole (b' + missing goal k.cell)).value :=
      calc (Cost.whole b).value ≤ c.estimate.value := hpaid
        _ ≤ d.estimate.value := Candidate.value_le_of_key_le (hleast d hd)
        _ ≤ (Cost.whole (b' + missing goal k.cell)).value := hasked
    have hweight : b ≤ b' + missing goal k.cell := Cost.value_whole_le_iff.mp hvalue
    omega

/-! ## Walks that a search finds -/

/-- All sums of a search from where a walk sets out are below `2 ^ 24`. -/
def ExactFrom (g : WalkGraph) (occupied : Cell → Bool) (goal : WalkGoal) (start : Cell) : Prop :=
  ∀ i, g.index? ((pushedFrom g occupied start).getD start) = some i → Exact g occupied goal i

/-- A walk that is found costs no more than another one, but for what jumps and counters save. -/
theorem walk?_cheapest (hg : g.Placed) (hprices : Prices g price)
    (hexact : ExactFrom g occupied goal start) {budget : Nat} {path : List Cell}
    (h : walk? g budget start goal occupied = some path) :
    ∃ walked, path = (pushedFrom g occupied start).toList ++ walked ∧
      WalksTo g occupied goal ((pushedFrom g occupied start).getD start) walked ∧
      ∀ slope short cells, Consistent g goal slope short →
        WalksTo g occupied goal ((pushedFrom g occupied start).getD start) cells →
        totalPrice price walked ≤ slope * totalPrice price cells + short := by
  obtain ⟨i, first, q, j, ids, hindex, hfirst, hcell, hturns, hends, hids, hpath⟩ :=
    walk?_lineage hg h
  have hsound : Sound g occupied goal i q := (sound_opening hfirst).turns hturns
  have hswept : Swept g occupied goal i q :=
    (swept_opening hfirst).turns (sound_opening hfirst) ⟨first, hfirst⟩ hturns
  obtain ⟨hpriced, hspread⟩ := priced_of_turns hprices (hexact i hindex) hfirst hturns
  have horigin : Weighs q.labels i 0 := hsound.grounded.weight
  obtain ⟨ids', n, hids', hn, hreached⟩ := hsound.of_ends hends
  obtain ⟨n', hn', hleads⟩ := leads_of_lineage hg hsound.grounded hfirst hids
  obtain rfl : n = n' := Option.some.inj (hn.symm.trans hn')
  obtain ⟨b, hb, hcosts⟩ := hpriced.lineage_le horigin hids
  rw [← hcell]
  refine ⟨(cellsOf g ids).reverse, hpath, hleads.walksTo hreached, ?_⟩
  intro slope short cells hconsistent hwalk
  have hfound : b ≤ slope * totalPrice price cells + short :=
    hpriced.found_le hspread hswept hg hprices hconsistent hfirst horigin hends hb hwalk
  have htotal : totalPrice price (cellsOf g ids).reverse = totalPrice price (cellsOf g ids) := by
    rw [totalPrice, List.map_reverse, List.sum_reverse, totalPrice]
  omega

end Cartridge.Finder

namespace Cartridge

/-! ## The prices of a map -/

/-- What it costs to enter a cell: a price for tall grass and another one for everything else. -/
def Map.enterPrice (m : Map) (walk grass : Nat) (c : Cell) : Nat :=
  if (m.tile? c).any (·.behavior == Tile.tallGrass) then grass else walk

theorem Map.enterPrice_cases (m : Map) (walk grass : Nat) (c : Cell) :
    m.enterPrice walk grass c = walk ∨ m.enterPrice walk grass c = grass := by
  unfold enterPrice
  split
  · exact Or.inr rfl
  · exact Or.inl rfl

namespace Finder

variable {m : Map} {settings : WalkSettings} {f : Finder} {occupied : Cell → Bool} {start : Cell}
  {goal : WalkGoal} {path : List Cell} {walk grass : Nat}

theorem prices_ofMap (hwalk : Cost.ofBinary32 settings.walkCost = .whole walk)
    (hgrass : Cost.ofBinary32 settings.grassCost = .whole grass) (hwalk_pos : 1 ≤ walk)
    (hgrass_pos : 1 ≤ grass) : Prices (.ofMap m settings) (m.enterPrice walk grass) := by
  constructor
  case cost =>
    intro i k hk
    have hbare := WalkGraph.bare_node?_ofMap m settings i
    rw [hk, Option.map_some] at hbare
    obtain ⟨c, -, hnode⟩ := Option.bind_eq_some_iff.mp hbare.symm
    have hcell : k.cell = c := by
      have hbare : k.bare.cell = c := WalkGraph.cell_of_bareNode? hnode
      exact hbare
    obtain ⟨tile, htile, hnode⟩ := Option.bind_eq_some_iff.mp hnode
    rw [Map.enterPrice, hcell, htile]
    split at hnode
    · have hcost : Cost.ofBinary32
          (if tile.behavior = Tile.tallGrass then settings.grassCost else settings.walkCost) =
          k.cost := congrArg WalkNode.cost (Option.some.inj hnode)
      rw [← hcost]
      by_cases htall : tile.behavior = Tile.tallGrass
      · simp only [htall, if_true, Option.any_some, beq_self_eq_true, hgrass]
      · simp [htall, hwalk]
    · cases hnode
  case positive =>
    intro c
    rcases m.enterPrice_cases walk grass c with h | h
    · rwa [h]
    · rwa [h]

/-- On every map a move brings a walk nearer by two at most. -/
theorem consistent_ofMap (h : Gradual goal.distance) : Consistent (.ofMap m settings) goal 2 1 where
  positive := by omega
  move _ _ hab := (WalkGraph.hops_ofMap hab).missing_le h
  ends _ hc := missing_of_reached hc

/-- Without ledges and counters it brings a walk nearer by one at most, and walks end at the goal. -/
theorem consistent_of_plain (hm : m.Plain) (h : Gradual goal.distance) :
    Consistent (.ofMap m settings) goal 1 0 where
  positive := le_rfl
  move _ _ hab := (WalkGraph.hops_ofMap hab).missing_le_of_plain hm h
  ends _ hc := (missing_of_reached_plain hm hc).le

/-! ## The cheapest walk -/

/-- What walks to the goal cost. -/
def walkPrices (g : WalkGraph) (occupied : Cell → Bool) (goal : WalkGoal) (price : Cell → Nat)
    (start : Cell) : Set Nat :=
  { cost | ∃ cells, WalksTo g occupied goal start cells ∧ cost = totalPrice price cells }

/-- A finder that is asked for a walk to a cell, or to some cells, finds one to the goal that this
stands for. -/
inductive Finds (f : Finder) (start : Cell) (occupied : Cell → Bool) (path : List Cell) :
    WalkGoal → Prop where
  | toCell {target : Cell} {within : Int}
    (found : (f.searchTo start target within occupied).1 = some path) :
    Finds f start occupied path ⟨(·.steps target), within⟩
  | toAny {cells : List Cell} (found : (f.searchToAny start cells occupied).1 = some path) :
    Finds f start occupied path ⟨nearest cells, 0⟩

theorem Finds.search (h : Finds f start occupied path goal) :
    (f.search start goal occupied).1 = some path ∧ Gradual goal.distance := by
  cases h with
  | toCell found => exact ⟨found, gradual_steps _⟩
  | @toAny cells found =>
    unfold searchToAny at found
    split at found
    · cases found
    · next hne => exact ⟨found, gradual_nearest fun hnil => hne (by rw [hnil]; rfl)⟩

/-- **What a walk costs that a search finds.**  With whole prices and exact sums, a walk to a cell or
to the nearest of some cells costs, behind the step off a warp, as much as the cheapest walk on a map
without ledges and counters, and on every map at most twice as much and one. -/
theorem search_cheapest (hf : Session m settings f)
    (hwalk : Cost.ofBinary32 settings.walkCost = .whole walk)
    (hgrass : Cost.ofBinary32 settings.grassCost = .whole grass) (hwalk_pos : 1 ≤ walk)
    (hgrass_pos : 1 ≤ grass) (hfound : Finds f start occupied path goal)
    (hexact : ExactFrom (.ofMap m settings) occupied goal start) :
    ∃ walked least,
      path = (pushedFrom (.ofMap m settings) occupied start).toList ++ walked ∧
      IsLeast (walkPrices (.ofMap m settings) occupied goal (m.enterPrice walk grass)
        ((pushedFrom (.ofMap m settings) occupied start).getD start)) least ∧
      (m.Plain → totalPrice (m.enterPrice walk grass) walked = least) ∧
      totalPrice (m.enterPrice walk grass) walked ≤ 2 * least + 1 := by
  obtain ⟨hsearch, hgradual⟩ := hfound.search
  rw [hf.search_eq] at hsearch
  have hprices : Prices (.ofMap m settings) (m.enterPrice walk grass) :=
    prices_ofMap hwalk hgrass hwalk_pos hgrass_pos
  obtain ⟨walked, hpath, hwalked, hcheap⟩ :=
    walk?_cheapest (WalkGraph.placed_ofMap m settings) hprices hexact hsearch
  generalize hset : walkPrices (.ofMap m settings) occupied goal (m.enterPrice walk grass)
    ((pushedFrom (.ofMap m settings) occupied start).getD start) = costs
  have hmem : totalPrice (m.enterPrice walk grass) walked ∈ costs := by
    rw [← hset]
    exact ⟨walked, hwalked, rfl⟩
  have hleast : IsLeast costs (sInf costs) := ⟨Nat.sInf_mem ⟨_, hmem⟩, fun _ hc => Nat.sInf_le hc⟩
  obtain ⟨cells, hcells, hcost⟩ : ∃ cells, WalksTo (.ofMap m settings) occupied goal
      ((pushedFrom (.ofMap m settings) occupied start).getD start) cells ∧
      sInf costs = totalPrice (m.enterPrice walk grass) cells := by
    have hinf : sInf costs ∈ costs := hleast.1
    rwa [← hset] at hinf ⊢
  refine ⟨walked, sInf costs, hpath, hleast, fun hm => ?_, ?_⟩
  · have hle := hcheap 1 0 cells (consistent_of_plain hm hgradual) hcells
    have hge : sInf costs ≤ totalPrice (m.enterPrice walk grass) walked := hleast.2 hmem
    omega
  · have hle := hcheap 2 1 cells (consistent_ofMap hgradual) hcells
    omega

/-- A house at the edge of a meadow. -/
def meadow : Map :=
  .ofRows ⟨0, 0⟩ ["dg.", "..."]

/-- To the corner behind the grass. -/
def acrossMeadow : WalkGoal where
  distance := (·.steps ⟨2, 0⟩)
  target := 0

theorem search_cheapest_meadow :
    Session meadow {} (.ofMap meadow {}) ∧
    Finds (.ofMap meadow {}) ⟨0, 0⟩ (fun _ => false) [⟨0, 1⟩, ⟨1, 1⟩, ⟨2, 1⟩, ⟨2, 0⟩] acrossMeadow ∧
    ExactFrom (.ofMap meadow {}) (fun _ => false) acrossMeadow ⟨0, 0⟩ ∧
    ∃ walked least, [⟨0, 1⟩, ⟨1, 1⟩, ⟨2, 1⟩, ⟨2, 0⟩] =
        (pushedFrom (.ofMap meadow {}) (fun _ => false) ⟨0, 0⟩).toList ++ walked ∧
      IsLeast (walkPrices (.ofMap meadow {}) (fun _ => false) acrossMeadow (meadow.enterPrice 1 10)
        ((pushedFrom (.ofMap meadow {}) (fun _ => false) ⟨0, 0⟩).getD ⟨0, 0⟩)) least ∧
      totalPrice (meadow.enterPrice 1 10) walked ≤ 2 * least + 1 := by
  have hsession : Session meadow {} (.ofMap meadow {}) := .fresh
  have hwalk : Cost.ofBinary32 ({} : WalkSettings).walkCost = .whole 1 := by decide +kernel
  have hgrass : Cost.ofBinary32 ({} : WalkSettings).grassCost = .whole 10 := by decide +kernel
  have hfound : ((ofMap meadow {}).search ⟨0, 0⟩ acrossMeadow fun _ => false).1 =
      some [⟨0, 1⟩, ⟨1, 1⟩, ⟨2, 1⟩, ⟨2, 0⟩] := by
    rw [hsession.search_eq]
    have hanswer : walkIn? (.ofMap meadow {}) 10 ⟨0, 0⟩ acrossMeadow (fun _ => false) =
        some (some [⟨0, 1⟩, ⟨1, 1⟩, ⟨2, 1⟩, ⟨2, 0⟩]) := by decide +kernel
    exact walk?_of_walkIn? hanswer (by decide)
  have hfinds : Finds (.ofMap meadow {}) ⟨0, 0⟩ (fun _ => false)
      [⟨0, 1⟩, ⟨1, 1⟩, ⟨2, 1⟩, ⟨2, 0⟩] acrossMeadow := .toCell hfound
  have hprices : Prices (.ofMap meadow {}) (meadow.enterPrice 1 10) :=
    prices_ofMap hwalk hgrass le_rfl (by decide)
  have hhighest (c : Cell) : meadow.enterPrice 1 10 c ≤ 10 := by
    rcases meadow.enterPrice_cases 1 10 c with h | h <;> omega
  have hfew : Few (.ofMap meadow {}) acrossMeadow 10 := few_of_all (by decide +kernel)
  have hexact : ExactFrom (.ofMap meadow {}) (fun _ => false) acrossMeadow ⟨0, 0⟩ := by
    intro i hi
    obtain ⟨first, hfirst, -⟩ := (WalkGraph.placed_ofMap meadow {}).exists_node hi
    exact exact_of_small hprices hhighest hfew hfirst
  obtain ⟨walked, least, hpath, hleast, -, hbound⟩ :=
    search_cheapest hsession hwalk hgrass le_rfl (by decide) hfinds hexact
  exact ⟨hsession, hfinds, hexact, walked, least, hpath, hleast, hbound⟩

end Finder

end Cartridge
