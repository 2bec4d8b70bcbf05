import Cartridge.Proofs.Route.Explore

/-!
# Record — what searches have asked

A validator may answer the same question differently the next time, so what a finder remembers is
only worth the question it goes back to.  `Validator.recorded` gives a search the answers that it
would get anyway (`Validator.search_recorded`) and writes its questions down.  Whatever searches a
finder has made, each of its verdicts is the answer to a question that a search of the same
generation has asked (`Validator.Session.account`), and a route goes back to such questions
(`Validator.search_account`).
-/

namespace Cartridge

/-- Says whether a hop can be walked. -/
structure Validator (σ : Type) where
  /-- Changes when earlier verdicts may no longer hold. -/
  generation : σ → Nat
  validate : σ → Spot → Edge → Bool × σ

/-- A question for a validator. -/
structure Inquiry (σ : Type) where
  /-- The generation in which the search began that asked. -/
  epoch : Nat
  /-- The validator when it was asked. -/
  state : σ
  start : Spot
  edge : Edge

/-- A place that a search has held against its goal. -/
structure Look (τ : Type) where
  state : τ
  map : Map
  spot : Spot

/-- A validator and a goal, with the questions that they have been asked, last one first. -/
structure Record (σ τ : Type) where
  validator : σ
  goal : τ
  epoch : Nat
  inquiries : List (Inquiry σ)
  looks : List (Look τ)

/-! ## A guide seen through another -/

/-- One guide does what another does with a part of its state. -/
structure Guide.Mirrors {ρ σ : Type} (guide' : Guide ρ) (guide : Guide σ) (view : ρ → σ) :
    Prop where
  generation : ∀ r, guide.generation (view r) = guide'.generation r
  validate : ∀ r a e, guide.validate (view r) a e = Prod.map id view (guide'.validate r a e)
  check : ∀ r m a, guide.check (view r) m a = Prod.map id view (guide'.check r m a)

namespace RouteFinder

variable {ρ σ : Type} {guide' : Guide ρ} {guide : Guide σ} {view : ρ → σ} {f : RouteFinder} {r : ρ}

theorem judge_mirror (h : guide'.Mirrors guide view) (step : RouteStep) :
    judge guide f (view r) step = Prod.map id (Prod.map id view) (judge guide' f r step) := by
  unfold judge
  cases f.verdict? step.start step.edge with
  | some verdict => rfl
  | none =>
    rw [h.validate]
    rfl

theorem firstBlocked_mirror (h : guide'.Mirrors guide view) (steps : List RouteStep) :
    firstBlocked? guide f (view r) steps =
      Prod.map id (Prod.map id view) (firstBlocked? guide' f r steps) := by
  induction steps generalizing f r with
  | nil => rfl
  | cons step rest ih =>
    rw [firstBlocked?, firstBlocked?, judge_mirror h]
    rcases judge guide' f r step with ⟨_ | _, g, t⟩
    · rfl
    · exact ih

theorem explore_mirror (h : guide'.Mirrors guide view) (queue : Queue RouteCandidate)
    (budget : Nat) :
    explore guide f (view r) queue budget =
      Prod.map id (Prod.map id view) (explore guide' f r queue budget) := by
  induction budget generalizing f r queue with
  | zero => rw [explore_zero, explore_zero]; rfl
  | succ budget ih =>
    rw [explore, explore]
    cases queue.pop? with
    | none => rfl
    | some p =>
      obtain ⟨c, later⟩ := p
      cases hc : c.complete with
      | true =>
        simp only [hc, if_true]
        rw [firstBlocked_mirror h]
        rcases firstBlocked? guide' f r c.hops.reverse with ⟨_ | step, g, t⟩
        · rfl
        · exact ih _
      | false =>
        simp only [hc, Bool.false_eq_true, if_false]
        cases f.world.map? c.spot.map with
        | none => exact ih _
        | some m =>
          simp only [h.check]
          exact ih _

/-- A search finds the same with a guide and with one that does what it does. -/
theorem search_mirror (h : guide'.Mirrors guide view) (start : Spot) :
    search guide f (view r) start = Prod.map id (Prod.map id view) (search guide' f r start) := by
  rw [search, search, h.generation]
  exact explore_mirror h _ _

end RouteFinder

namespace Validator

open RouteFinder

variable {σ τ : Type} (v : Validator σ) (check : τ → Map → Spot → Goal × τ)

/-- The guide of a search that asks a validator and a goal. -/
def guide : Guide (σ × τ) where
  generation s := v.generation s.1
  validate s a e := Prod.map id (·, s.2) (v.validate s.1 a e)
  check s m a := Prod.map id (s.1, ·) (check s.2 m a)

/-- The guide that writes down what it is asked. -/
def recorded : Guide (Record σ τ) where
  generation r := v.generation r.validator
  validate r a e :=
    let (verdict, s) := v.validate r.validator a e
    (verdict, { r with validator := s, inquiries := ⟨r.epoch, r.validator, a, e⟩ :: r.inquiries })
  check r m a :=
    let (goal, t) := check r.goal m a
    (goal, { r with goal := t, looks := ⟨r.goal, m, a⟩ :: r.looks })

/-- The record with which a search begins. -/
def opening (s : σ) (t : τ) (past : List (Inquiry σ)) : Record σ τ where
  validator := s
  goal := t
  epoch := v.generation s
  inquiries := past
  looks := []

/-- **Writing down the questions makes no difference** to a search. -/
theorem search_recorded (f : RouteFinder) (s : σ) (t : τ) (past : List (Inquiry σ)) (start : Spot) :
    search (v.guide check) f (s, t) start =
      Prod.map id (Prod.map id fun r => (r.validator, r.goal))
        (search (v.recorded check) f (v.opening s t past) start) := by
  have hmirror : (v.recorded check).Mirrors (v.guide check) fun r => (r.validator, r.goal) :=
    ⟨fun _ => rfl, fun _ _ _ => rfl, fun _ _ _ => rfl⟩
  exact search_mirror (f := f) (r := v.opening s t past) hmirror start

/-- What a search asks, after what was asked before it. -/
def record (f : RouteFinder) (s : σ) (t : τ) (past : List (Inquiry σ)) (start : Spot) :
    Record σ τ :=
  (search (v.recorded check) f (v.opening s t past) start).2.2

/-- What has become of a finder: its searches, whatever they asked and were answered, and the times
that it was told to forget. -/
inductive Session (w : World) (n : Nat) : RouteFinder → List (Inquiry σ) → Prop where
  | fresh : Session w n (.fresh w n) []
  | search {f : RouteFinder} {past : List (Inquiry σ)} (before : Session w n f past) {τ : Type}
    (check : τ → Map → Spot → Goal × τ) (s : σ) (t : τ) (start : Spot) :
    Session w n (RouteFinder.search (v.recorded check) f (v.opening s t past) start).2.1
      (v.record check f s t past start).inquiries
  | clear {f : RouteFinder} {past : List (Inquiry σ)} (before : Session w n f past) :
    Session w n f.clear past

/-! ## The account of a search -/

/-- The question whether a hop can be walked was answered so, in a search of this generation. -/
structure Settled (epoch : Nat) (i : Inquiry σ) (a : Spot) (e : Edge) (verdict : Bool) : Prop where
  epoch_eq : i.epoch = epoch
  start_eq : i.start = a
  edge_eq : i.edge = e
  answer : (v.validate i.state a e).1 = verdict

/-- All verdicts of a finder go back to questions in searches of one generation. -/
def Backs (epoch : Nat) (f : RouteFinder) (inquiries : List (Inquiry σ)) : Prop :=
  ∀ a e verdict, f.verdict? a e = some verdict →
    ∃ i ∈ inquiries, v.Settled epoch i a e verdict

/-- The validator keeps its generation while it answers. -/
def Steady : Prop :=
  ∀ s a e, v.generation (v.validate s a e).2 = v.generation s

/-- Between searches: the verdicts of the finder go back to questions of its generation. -/
structure Account (w : World) (n : Nat) (f : RouteFinder) (inquiries : List (Inquiry σ)) :
    Prop where
  world : f.world = w
  size : f.maxCandidates = n
  charted : f.Charted
  backed : ∀ epoch, f.generation? = some epoch → v.Backs epoch f inquiries
  steady : v.Steady → ∀ i ∈ inquiries, v.generation i.state = i.epoch

/-- A search has held a place against its goal, which asked for some more hops there. -/
def Met (w : World) (looks : List (Look τ)) (here : Spot) (rest : List RouteStep) : Prop :=
  ∃ look ∈ looks, look.spot = here ∧ w.map? here.map = some look.map ∧
    (check look.state look.map here).1.rest? here = some rest

/-- During a search: the verdicts go back to questions of its generation, and every waiting
candidate is a simple trail from the start. -/
structure Underway (w : World) (n epoch : Nat) (start : Spot) (f : RouteFinder) (r : Record σ τ)
    (queue : List RouteCandidate) : Prop where
  world : f.world = w
  size : f.maxCandidates = n
  generation : f.generation? = some epoch
  begun : r.epoch = epoch
  backed : v.Backs epoch f r.inquiries
  now : v.Steady → v.generation r.validator = epoch
  steady : v.Steady → ∀ i ∈ r.inquiries, v.generation i.state = i.epoch
  candidates : ∀ c ∈ queue, c.Follows w (Met check w r.looks) start

variable {v check} {w : World} {n epoch : Nat} {start : Spot} {f f' : RouteFinder}
  {past : List (Inquiry σ)} {r : Record σ τ} {queue : List RouteCandidate} {c : RouteCandidate}

theorem Met.mono {looks looks' : List (Look τ)} (hlooks : looks ⊆ looks') {here : Spot}
    {rest : List RouteStep} (h : Met check w looks here rest) : Met check w looks' here rest := by
  obtain ⟨look, hmem, hlook⟩ := h
  exact ⟨look, hlooks hmem, hlook⟩

namespace Underway

/-- A search begins with what the searches before it have left. -/
theorem opening (h : v.Account w n f past) (check : τ → Map → Spot → Goal × τ) (s : σ) (t : τ)
    (start : Spot) :
    Underway v check w n (v.generation s) start (f.atGeneration (v.generation s))
      (v.opening s t past) [⟨start, [], [start], false⟩] where
  world := (world_atGeneration _).trans h.world
  size := (maxCandidates_atGeneration _).trans h.size
  generation := generation_atGeneration _
  begun := rfl
  backed := by
    unfold atGeneration
    split
    · next hgeneration => exact h.backed _ hgeneration
    · intro a e verdict hverdict
      have hnone : f.clear.verdict? a e = some verdict := hverdict
      rw [verdict_clear] at hnone
      cases hnone
  now _ := rfl
  steady := h.steady
  candidates _ hc := List.mem_singleton.mp hc ▸ RouteCandidate.Follows.first

theorem ask (h : Underway v check w n epoch start f r queue) (a : Spot) (e : Edge) :
    Underway v check w n epoch start (f.learn a e ((v.recorded check).validate r a e).1)
      ((v.recorded check).validate r a e).2 queue where
  world := h.world
  size := h.size
  generation := h.generation
  begun := h.begun
  backed b e' verdict hverdict := by
    rw [verdict_learn] at hverdict
    split at hverdict
    · next heq =>
      obtain ⟨rfl, rfl⟩ := heq
      exact ⟨_, List.mem_cons_self, h.begun, rfl, rfl, Option.some.inj hverdict⟩
    · obtain ⟨i, hi, hsettled⟩ := h.backed b e' verdict hverdict
      exact ⟨i, List.mem_cons_of_mem _ hi, hsettled⟩
  now hsteady := (hsteady _ _ _).trans (h.now hsteady)
  steady hsteady i hi := by
    rcases List.mem_cons.mp hi with rfl | hi
    · exact (h.now hsteady).trans h.begun.symm
    · exact h.steady hsteady i hi
  candidates := h.candidates

theorem look (h : Underway v check w n epoch start f r (c :: queue)) (hc : c.complete = false)
    {m : Map} (hm : w.map? c.spot.map = some m) :
    Underway v check w n epoch start f ((v.recorded check).check r m c.spot).2
      (queue ++ (completed c ((v.recorded check).check r m c.spot).1).toList ++
        successors (w.crossings m) c) where
  world := h.world
  size := h.size
  generation := h.generation
  begun := h.begun
  backed := h.backed
  now := h.now
  steady := h.steady
  candidates d hd := by
    have hlooks {d : RouteCandidate} (hd : d.Follows w (Met check w r.looks) start) :
        d.Follows w (Met check w (⟨r.goal, m, c.spot⟩ :: r.looks)) start :=
      hd.mono fun _ _ hmet => hmet.mono (List.subset_cons_self _ _)
    have hcandidate := hlooks (h.candidates c List.mem_cons_self)
    rcases List.mem_append.mp hd with hd | hd
    · rcases List.mem_append.mp hd with hd | hd
      · exact hlooks (h.candidates d (List.mem_cons_of_mem _ hd))
      · exact hcandidate.completed hc
          (fun rest hrest => ⟨_, List.mem_cons_self, rfl, hm, hrest⟩) hd
    · exact hcandidate.successors hc hm hd

theorem sublist {queue' : List RouteCandidate} (h : Underway v check w n epoch start f r queue)
    (hsub : queue'.Sublist queue) : Underway v check w n epoch start f r queue' :=
  { h with candidates := fun c hc => h.candidates c (hsub.subset hc) }

/-- What searches have left when one ends. -/
theorem account (h : Underway v check w n epoch start f r queue) (hf : f.Charted) :
    v.Account w n f r.inquiries where
  world := h.world
  size := h.size
  charted := hf
  backed generation hgeneration := by
    rw [h.generation] at hgeneration
    exact Option.some.inj hgeneration ▸ h.backed
  steady := h.steady

end Underway

/-- **The account of a search**: a route is a simple trail from the start and the hops that the goal
asks for where it ends, all granted in searches of the present generation. -/
theorem search_account (h : v.Account w n f past) (s : σ) (t : τ) (start : Spot)
    {route? : Option (List RouteStep)}
    (hr : search (v.recorded check) f (v.opening s t past) start = (route?, f', r)) :
    v.Account w n f' r.inquiries ∧ ∀ route, route? = some route → ∃ hops here rest,
      route = hops ++ rest ∧ w.Trail start hops here ∧ (spots start hops).Nodup ∧
      Met check w r.looks here rest ∧ ∀ step ∈ route, ∃ i ∈ r.inquiries,
        v.Settled (v.generation s) i step.start step.edge true := by
  obtain ⟨hcharted, queue, hend, hroute⟩ := explore_induction
    (P := fun f r queue => Underway v check w n (v.generation s) start f r queue)
    (fun f r q exits hq => { hq with })
    (fun f r q q' hq hsub => hq.sublist hsub)
    (fun f r q c step hq _ _ _ => hq.ask step.start step.edge)
    (fun f r q c m hq hc hm => by
      rw [hq.world] at hm ⊢
      exact hq.look hc hm)
    _ (h.charted.atGeneration _) (Queue.toList_ofList _ ▸ Underway.opening h check s t start) hr
  refine ⟨hend.account hcharted, fun route hsome => ?_⟩
  obtain ⟨c, hc, hcomplete, hform, hgranted⟩ := hroute route hsome
  obtain ⟨hops, rest, hcandidate, htrail, hsimple, hmet⟩ :=
    (hend.candidates c hc).of_complete hcomplete
  refine ⟨hops, c.spot, rest, ?_, htrail, hsimple, hmet, fun step hstep =>
    hend.backed _ _ _ (hgranted step hstep)⟩
  rw [hform, hcandidate]
  exact List.reverse_reverse _

/-- **Every verdict of a finder goes back to a question** of its generation, whatever its searches
were. -/
theorem Session.account (h : v.Session w n f past) : v.Account w n f past := by
  induction h with
  | fresh =>
    refine ⟨rfl, rfl, charted_fresh w n, fun epoch hepoch => ?_, fun _ i hi => ?_⟩
    · cases hepoch
    · exact absurd hi List.not_mem_nil
  | search _ check s t start ih => exact (search_account ih s t start rfl).1
  | @clear f past _ ih =>
    refine ⟨ih.world, ih.size, ih.charted, fun epoch _ a e verdict hverdict => ?_, ih.steady⟩
    rw [verdict_clear] at hverdict
    cases hverdict

end Validator

end Cartridge
