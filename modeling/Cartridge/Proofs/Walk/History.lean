import Cartridge.Proofs.Walk.Verdict

/-!
# History — searches of one finder

A finder keeps the labels and verdicts of its last search, but clears them before the next one.  So
what it finds depends on the map, the settings and what is asked for, and not on what it has
searched before (`Finder.Session.search_eq`).  However it is asked for walks, and whatever comes of
it, it answers each time as a new finder would (`Finder.serve_eq`).
-/

namespace Cartridge.Finder

/-- A search from a node before its first turn. -/
def opening (g : WalkGraph) (i : Nat) : Progress where
  labels := (blankLabels g).setIfInBounds i { weight? := some .zero }
  frontier := Frontier.empty.push ⟨.zero, 0, i⟩
  arrivals := 0

/-- The walk that a search finds in a graph within a budget. -/
def walk? (g : WalkGraph) (budget : Nat) (start : Cell) (goal : WalkGoal)
    (occupied : Cell → Bool) : Option (List Cell) :=
  let pushed? := pushedFrom g occupied start
  match g.index? (pushed?.getD start) with
  | none => none
  | some i =>
    let (found?, labels) := explore g occupied goal budget (opening g i)
    found?.map fun j => pushed?.toList ++ traceBack g labels [] labels.size j

/-- The walk that a search finds if it ends within some turns. -/
def walkIn? (g : WalkGraph) (turns : Nat) (start : Cell) (goal : WalkGoal)
    (occupied : Cell → Bool) : Option (Option (List Cell)) :=
  let pushed? := pushedFrom g occupied start
  match g.index? (pushed?.getD start) with
  | none => some none
  | some i =>
    (answer? g occupied goal turns (opening g i)).map fun (found?, labels) =>
      found?.map fun j => pushed?.toList ++ traceBack g labels [] labels.size j

theorem walk?_of_walkIn? {g : WalkGraph} {turns budget : Nat} {start : Cell} {goal : WalkGoal}
    {occupied : Cell → Bool} {path? : Option (List Cell)}
    (h : walkIn? g turns start goal occupied = some path?) (hbudget : turns ≤ budget) :
    walk? g budget start goal occupied = path? := by
  unfold walkIn? at h
  unfold walk?
  dsimp only at h ⊢
  cases hindex : g.index? ((pushedFrom g occupied start).getD start) with
  | none =>
    rw [hindex] at h
    exact Option.some.inj h
  | some i =>
    rw [hindex] at h
    obtain ⟨r, hanswer, hpath⟩ := Option.map_eq_some_iff.mp h
    dsimp only
    rw [explore_of_answer? hanswer hbudget, ← hpath]

/-- Until its first search a finder has blank labels and verdicts. -/
def Tidy (f : Finder) : Prop :=
  f.used = false → f.labels = blankLabels f.graph ∧ f.verdicts = blankVerdicts f.graph

variable {m : Map} {settings : WalkSettings} {f : Finder}

theorem cleared_leaves (f : Finder) :
    f.cleared.graph = f.graph ∧ f.cleared.maxExpansions = f.maxExpansions := by
  unfold cleared
  split <;> exact ⟨rfl, rfl⟩

/-- Whatever it has searched before, a finder goes into a search with blank labels and verdicts. -/
theorem cleared_of_tidy (hf : f.Tidy) :
    f.cleared.labels = blankLabels f.graph ∧ f.cleared.verdicts = blankVerdicts f.graph := by
  unfold cleared
  split
  · exact ⟨rfl, rfl⟩
  · next hunused => exact hf (by simpa using hunused)

theorem search_of_tidy (hf : f.Tidy) (start : Cell) (goal : WalkGoal) (occupied : Cell → Bool) :
    (f.search start goal occupied).1 = walk? f.graph f.maxExpansions start goal occupied := by
  obtain ⟨hgraph, hbudget⟩ := cleared_leaves f
  obtain ⟨hlabels, hverdicts⟩ := cleared_of_tidy hf
  unfold search walk?
  dsimp only
  rw [hgraph, hbudget, hlabels, hverdicts]
  cases f.graph.index? ((pushedFrom f.graph occupied start).getD start) with
  | none => rfl
  | some i =>
    let s : Survey := { opening f.graph i with verdicts := blankVerdicts f.graph }
    have hblank : Survey.Faithful f.graph occupied s.verdicts := .blank
    have hexplore : _ = explore f.graph occupied goal f.maxExpansions (opening f.graph i) :=
      hblank.explore_eq f.maxExpansions
    dsimp only
    rw [← hexplore]
    rfl

theorem search_leaves (f : Finder) (start : Cell) (goal : WalkGoal) (occupied : Cell → Bool) :
    (f.search start goal occupied).2.graph = f.graph ∧
      (f.search start goal occupied).2.maxExpansions = f.maxExpansions ∧
      (f.search start goal occupied).2.used = true := by
  obtain ⟨hgraph, hbudget⟩ := cleared_leaves f
  unfold search
  dsimp only
  split <;> exact ⟨hgraph, hbudget, rfl⟩

variable (m settings) in
/-- What has become of the finder of a map: the searches that it has made. -/
inductive Session : Finder → Prop where
  | fresh : Session (.ofMap m settings)
  | search {f : Finder} (before : Session f) (start : Cell) (goal : WalkGoal)
    (occupied : Cell → Bool) : Session (f.search start goal occupied).2

namespace Session

/-- Searches leave the graph and the budget as they are, and tidy labels. -/
theorem keeps (h : Session m settings f) :
    f.graph = .ofMap m settings ∧ f.maxExpansions = settings.maxExpansions ∧ f.Tidy := by
  induction h with
  | fresh => exact ⟨rfl, rfl, fun _ => ⟨rfl, rfl⟩⟩
  | @search f _ start goal occupied ih =>
    obtain ⟨hgraph, hbudget, -⟩ := ih
    obtain ⟨hgraph', hbudget', hused⟩ := search_leaves f start goal occupied
    refine ⟨hgraph'.trans hgraph, hbudget'.trans hbudget, fun hunused => ?_⟩
    rw [hused] at hunused
    cases hunused

/-- **Earlier searches make no difference** to what a finder finds. -/
theorem search_eq (h : Session m settings f) (start : Cell) (goal : WalkGoal)
    (occupied : Cell → Bool) :
    (f.search start goal occupied).1 =
      walk? (.ofMap m settings) settings.maxExpansions start goal occupied := by
  obtain ⟨hgraph, hbudget, htidy⟩ := h.keeps
  rw [search_of_tidy htidy, hgraph, hbudget]

end Session

/-! ## One request after another -/

/-- What a finder can be asked for. -/
inductive Request where
  | search (start : Cell) (goal : WalkGoal) (occupied : Cell → Bool)
  | toCell (start goal : Cell) (within : Int) (occupied : Cell → Bool)
  | toAny (start : Cell) (cells : List Cell) (occupied : Cell → Bool)
  | toActor (start actor : Cell) (occupied : Cell → Bool)
  | toConnection (start : Cell) (exits : List Cell) (occupied : Cell → Bool)
  | toWarp (start warp : Cell) (occupied : Cell → Bool)

/-- The answer to a request and the finder after it. -/
def answer (f : Finder) : Request → Option (List Cell) × Finder
  | .search start goal occupied => f.search start goal occupied
  | .toCell start goal within occupied => f.searchTo start goal within occupied
  | .toAny start cells occupied => f.searchToAny start cells occupied
  | .toActor start actor occupied => f.searchToActor start actor occupied
  | .toConnection start exits occupied => f.searchToConnection start exits occupied
  | .toWarp start warp occupied => f.searchToWarp start warp occupied

/-- The answers to requests that one finder gets one after the other, and the finder after them. -/
def serve (f : Finder) : List Request → List (Option (List Cell)) × Finder
  | [] => ([], f)
  | r :: later =>
    let (path?, f) := f.answer r
    let (paths, f) := f.serve later
    (path? :: paths, f)

namespace Session

/-- Every request leads to a search or leaves the finder alone, and it is answered as the finder's
first one would be. -/
theorem answer (h : Session m settings f) (r : Request) :
    (f.answer r).1 = ((Finder.ofMap m settings).answer r).1 ∧
      Session m settings (f.answer r).2 := by
  have hsearch (start : Cell) (goal : WalkGoal) (occupied : Cell → Bool) :
      (f.search start goal occupied).1 =
          ((Finder.ofMap m settings).search start goal occupied).1 ∧
        Session m settings (f.search start goal occupied).2 := by
    have hfresh : Session m settings (.ofMap m settings) := .fresh
    rw [h.search_eq, hfresh.search_eq]
    exact ⟨rfl, h.search start goal occupied⟩
  have hany (start : Cell) (cells : List Cell) (occupied : Cell → Bool) :
      (f.searchToAny start cells occupied).1 =
          ((Finder.ofMap m settings).searchToAny start cells occupied).1 ∧
        Session m settings (f.searchToAny start cells occupied).2 := by
    unfold searchToAny
    by_cases hcells : cells.isEmpty = true
    · rw [if_pos hcells, if_pos hcells]
      exact ⟨rfl, h⟩
    · rw [if_neg hcells, if_neg hcells]
      exact hsearch _ _ _
  cases r with
  | search start goal occupied => exact hsearch _ _ _
  | toCell start goal within occupied => exact hsearch _ _ _
  | toAny start cells occupied => exact hany _ _ _
  | toActor start actor occupied => exact hsearch _ _ _
  | toConnection start exits occupied => exact hany _ _ _
  | toWarp start warp occupied =>
    -- The distance that a warp is searched for at depends on the graph alone.
    have hgraph : f.graph = (Finder.ofMap m settings).graph := h.keeps.1
    simp only [Finder.answer, searchToWarp, hgraph]
    exact hsearch _ _ _

theorem serve (h : Session m settings f) (requests : List Request) :
    (f.serve requests).1 =
        requests.map (fun r => ((Finder.ofMap m settings).answer r).1) ∧
      Session m settings (f.serve requests).2 := by
  induction requests generalizing f with
  | nil => exact ⟨rfl, h⟩
  | cons r later ih =>
    obtain ⟨hanswer, hsession⟩ := h.answer r
    obtain ⟨hlater, hend⟩ := ih hsession
    refine ⟨?_, hend⟩
    rw [List.map_cons, ← hanswer, ← hlater]
    rfl

end Session

/-- **Searches do not influence each other.**  To every request a finder gives the answer that a new
one would give, and it goes on to know the same cells and neighbours, whatever it has been asked
before, for which goals and among which occupied cells, and whatever came of it. -/
theorem serve_eq (m : Map) (settings : WalkSettings) (requests : List Request) :
    ((Finder.ofMap m settings).serve requests).1 =
        requests.map (fun r => ((Finder.ofMap m settings).answer r).1) ∧
      ∀ c, ((Finder.ofMap m settings).serve requests).2.graph.isStandable c =
          (Finder.ofMap m settings).graph.isStandable c ∧
        ((Finder.ofMap m settings).serve requests).2.graph.neighbors c =
          (Finder.ofMap m settings).graph.neighbors c := by
  have hfresh : Session m settings (.ofMap m settings) := .fresh
  obtain ⟨hanswers, hsession⟩ := hfresh.serve requests
  refine ⟨hanswers, fun c => ?_⟩
  have hgraph : ((Finder.ofMap m settings).serve requests).2.graph =
      (Finder.ofMap m settings).graph := hsession.keeps.1
  rw [hgraph]
  exact ⟨rfl, rfl⟩

end Cartridge.Finder
