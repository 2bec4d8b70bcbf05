import Cartridge.Proofs.Script.Extent
import Cartridge.Proofs.Script.Progress
import Cartridge.Proofs.Script.SameState
import Cartridge.Proofs.Script.Turns
import Mathlib.Data.Set.Card
import Mathlib.Data.Set.Finite.List
import Mathlib.Logic.Hydra
import Mathlib.Tactic.Abel

/-!
# Ending — when explorations end by themselves

With a bound on the calls, a branch has only so many decisions left to meet; between two of them it
can only return from calls, and between two returns it runs towards an address that is not mapped.
These three numbers, in this order, are the rank of a branch: every instruction replaces a branch by
branches of smaller rank, except for a fight that asks no guard.  So an exploration ends by itself,
within limits that depend on the script alone, exactly if it comes to such fights only finitely
often (`explore_ends_iff`).
-/

namespace Cartridge

instance finiteAddress : Finite UInt32 :=
  Finite.of_injective UInt32.toFin fun _ _ h => UInt32.toFin_inj.mp h

namespace Context

/-- The decisions that a branch with at most `depth` calls can still meet. -/
def unmet (depth : Nat) (c : Context) : Set Visit :=
  {v | v.stack.length ≤ depth ∧ v.depth = v.stack.length ∧ v ∉ c.visited}

theorem finite_unmet (depth : Nat) (c : Context) : (c.unmet depth).Finite := by
  have hcalls : {s : List UInt32 | s.length ≤ depth}.Finite := List.finite_length_le UInt32 depth
  refine ((Set.finite_univ.prod hcalls).image fun p : UInt32 × List UInt32 =>
    (⟨p.1, p.2.length, p.2⟩ : Visit)).subset ?_
  rintro ⟨a, n, s⟩ ⟨hlength, hdepth, -⟩
  obtain rfl : n = s.length := hdepth
  exact ⟨(a, s), ⟨Set.mem_univ a, hlength⟩, rfl⟩

/-- How far a branch is from its end: decisions, calls, and bytes up to `u`. -/
noncomputable def rank (depth : Nat) (u : UInt32) (c : Context) : Nat × Nat × Nat :=
  ((c.unmet depth).ncard, c.stack.length, if c.isDone then 0 else (u - c.pc).toNat)

/-- Ranks are compared by decisions first, then by calls, then by bytes. -/
def RankLt : Nat × Nat × Nat → Nat × Nat × Nat → Prop :=
  Prod.Lex (· < ·) (Prod.Lex (· < ·) (· < ·))

theorem wellFounded_rankLt : WellFounded RankLt :=
  WellFounded.prod_lex Nat.lt_wfRel.wf (WellFounded.prod_lex Nat.lt_wfRel.wf Nat.lt_wfRel.wf)

end Context

open Context (RankLt)

variable {m : Memory} {u : UInt32} {i : Instruction} {c d : Context} {depth : Nat}

/-- Progress lowers the rank. -/
theorem Progress.rank_lt (hm : m.mappedBytes < 2 ^ 32) (hu : ¬m.Mapped u)
    (hi : Instruction.decode m c.pc = .ok i) (hn : c.isDone = false)
    (hdepth : c.stack.length ≤ depth) (h : Progress i c d) :
    RankLt (d.rank depth u) (c.rank depth u) := by
  have hcloser := Instruction.closer_of_decode hm hu hi
  simp only [RankLt, Prod.lex_def, Context.rank, hn, Bool.false_eq_true, if_false]
  cases h with
  | ended done visited stack =>
    have hunmet : d.unmet depth = c.unmet depth := by simp only [Context.unmet, visited]
    refine Or.inr ⟨by rw [hunmet], Or.inr ⟨by rw [stack], ?_⟩⟩
    rw [if_pos done]
    omega
  | onward pc visited stack =>
    have hunmet : d.unmet depth = c.unmet depth := by simp only [Context.unmet, visited]
    refine Or.inr ⟨by rw [hunmet], Or.inr ⟨by rw [stack], ?_⟩⟩
    rw [pc]
    split
    · omega
    · exact hcloser
  | back a stack visited =>
    have hunmet : d.unmet depth = c.unmet depth := by simp only [Context.unmet, visited]
    exact Or.inr ⟨by rw [hunmet], Or.inl (by rw [stack]; exact Nat.lt_succ_self _)⟩
  | decided new visited =>
    refine Or.inl (Set.ncard_lt_ncard ⟨?_, ?_⟩ (c.finite_unmet depth))
    · rintro v ⟨hlength, hv, hmet⟩
      rw [visited, List.mem_cons, not_or] at hmet
      exact ⟨hlength, hv, hmet.2⟩
    · intro hsub
      have hmem : i.decision c ∈ d.unmet depth := hsub ⟨hdepth, rfl, new⟩
      exact hmem.2.2 (visited ▸ List.mem_cons_self)

/-- The ranks of the open branches. -/
noncomputable def Agenda.ranks (depth : Nat) (u : UInt32) (g : Agenda) :
    Multiset (Nat × Nat × Nat) :=
  (g.opened : Multiset Context).map (Context.rank depth u)

namespace Interpreter

variable {I : Interpreter} {g : Agenda}

/-- The branch that comes first fights a trainer whom it has itself determined to be unbeaten. -/
def FightsFirst (I : Interpreter) (g : Agenda) : Prop :=
  ∃ c, g.opened.head? = some c ∧ c.isDone = false ∧ I.FightsKnown c

/-! ## Turns lower the ranks -/

/-- A turn replaces the rank of the branch that comes first by smaller ones. -/
theorem cutExpand_turn (hm : I.memory.mappedBytes < 2 ^ 32) (hu : ¬I.memory.Mapped u)
    (hdepth : ∀ d ∈ g.opened, d.stack.length ≤ depth) (ha : I.answer? .explore g = none)
    (hf : ¬I.FightsFirst g) :
    Relation.CutExpand RankLt ((I.turn .explore g).ranks depth u) (g.ranks depth u) := by
  obtain ⟨opened, closed⟩ := g
  cases opened with
  | nil => cases ha
  | cons c waiting =>
    by_cases hdone : c.isDone = true
    · refine ⟨0, c.rank depth u, by simp, ?_⟩
      rw [turn_of_isDone hdone]
      simp only [Agenda.ranks, ← Multiset.cons_coe, Multiset.map_cons, add_zero]
      rw [Multiset.add_comm, Multiset.singleton_add]
    · rw [Bool.not_eq_true] at hdone
      cases hs : I.step .explore c with
      | error fault => rw [answer_of_fault hdone hs] at ha; cases ha
      | ok a =>
        have hc : ¬I.FightsKnown c := fun hk => hf ⟨c, rfl, hdone, hk⟩
        refine ⟨(a.branches : Multiset Context).map (Context.rank depth u), c.rank depth u, ?_, ?_⟩
        · intro r hr
          obtain ⟨d, hd, rfl⟩ := Multiset.mem_map.mp hr
          obtain ⟨i, hi, hp⟩ := progress_next ⟨hdone, a, hs, Multiset.mem_coe.mp hd⟩ hc
          exact hp.rank_lt hm hu hi hdone (hdepth c List.mem_cons_self)
        · rw [turn_of_step hdone hs]
          simp only [Agenda.ranks, Advance.branches, ← Multiset.cons_coe, ← Multiset.coe_add,
            ← Multiset.singleton_add, Multiset.map_add, Multiset.map_singleton]
          abel

/-- A run that stays within some depth and comes to no such fight comes to its answer. -/
theorem exists_answer (hm : I.memory.mappedBytes < 2 ^ 32)
    (hdepth : ∀ n, ∀ d ∈ ((I.turn .explore)^[n] g).opened, d.stack.length ≤ depth)
    (hf : ∀ n, ¬I.FightsFirst ((I.turn .explore)^[n] g)) :
    ∃ n r, I.answer? .explore ((I.turn .explore)^[n] g) = some r := by
  obtain ⟨u, hu⟩ := Memory.exists_not_mapped hm
  have hwf := (Context.wellFounded_rankLt).cutExpand
  generalize hranks : g.ranks depth u = ranks
  induction ranks using hwf.induction generalizing g with
  | h ranks ih =>
    subst hranks
    cases ha : I.answer? .explore g with
    | some r => exact ⟨0, r, ha⟩
    | none =>
      have hturn := cutExpand_turn hm hu (hdepth 0) ha (hf 0)
      obtain ⟨n, r, hn⟩ := ih _ hturn (fun n => hdepth (n + 1)) (fun n => hf (n + 1)) rfl
      exact ⟨n + 1, r, hn⟩

/-! ## Endings -/

/-- A run that has its answer is about to fight nobody. -/
theorem not_fightsFirst_of_answer {r : Except ScriptError (List Context)}
    (h : I.answer? .explore g = some r) : ¬I.FightsFirst g := by
  rintro ⟨c, hc, hn, i, hi, hact, -⟩
  obtain ⟨opened, closed⟩ := g
  obtain ⟨waiting, rfl⟩ := List.head?_eq_some_iff.mp hc
  have hstep : ∃ a, I.step .explore c = .ok a :=
    ⟨_, step_eq_ok_iff.mpr ⟨i, hi, by unfold perform; rw [hact]⟩⟩
  obtain ⟨a, ha⟩ := hstep
  simp [answer?, hn, ha] at h

/-- Whatever its limits, an exploration that they do not cut off fights only finitely often. -/
theorem finite_fights_of_run {limits : RunLimits}
    (h : ¬Exhausted (({ I with limits := limits } : Interpreter).explore c)) :
    {n | I.FightsFirst ((I.turn .explore)^[n] (.start c))}.Finite := by
  obtain ⟨n, hn⟩ := turns_of_drain h
  have hanswer : I.answer? .explore ((I.turn .explore)^[n] (.start c)) = some _ := hn
  refine (Set.finite_Iio n).subset fun k hk => ?_
  by_contra hge
  obtain ⟨j, rfl⟩ := Nat.exists_eq_add_of_le (Nat.le_of_not_lt hge)
  have hlater := answer_after hanswer j
  rw [← Function.iterate_add_apply, Nat.add_comm] at hlater
  exact not_fightsFirst_of_answer hlater hk

/-- **An exploration ends by itself exactly if it fights only finitely often** a trainer whom it has
determined to be unbeaten, given that the memory has an address to spare and that calls do not nest
without bound.  Then some limits are wide enough for it, and so are all wider ones. -/
theorem explore_ends_iff (hm : I.memory.mappedBytes < 2 ^ 32)
    (hdepth : ∃ depth, ∀ n, ∀ d ∈ ((I.turn .explore)^[n] (.start c)).opened,
      d.stack.length < depth) :
    (∃ steps contexts, ∀ limits : RunLimits, steps ≤ limits.maxSteps →
      contexts ≤ limits.maxContexts →
      ¬Exhausted (({ I with limits := limits } : Interpreter).explore c)) ↔
    {n | I.FightsFirst ((I.turn .explore)^[n] (.start c))}.Finite := by
  constructor
  · rintro ⟨steps, contexts, h⟩
    exact finite_fights_of_run (h ⟨steps, contexts⟩ (Nat.le_refl _) (Nat.le_refl _))
  · intro hfinite
    obtain ⟨depth, hdepth⟩ := hdepth
    obtain ⟨last, hlast⟩ := hfinite.bddAbove
    -- After the last fight, the ranks of the open branches only fall.
    obtain ⟨n, r, hn⟩ := exists_answer (g := (I.turn .explore)^[last + 1] (.start c)) hm
      (fun n d hd => by
        rw [← Function.iterate_add_apply] at hd
        exact Nat.le_of_lt (hdepth _ d hd))
      (fun n hfight => by
        rw [← Function.iterate_add_apply] at hfight
        have := hlast hfight
        omega)
    rw [← Function.iterate_add_apply] at hn
    refine ⟨n + (last + 1) + 1, forkLimit * (n + (last + 1)), fun limits hsteps hcontexts => ?_⟩
    have hrun : ({ I with limits := limits } : Interpreter).explore c = r :=
      run_of_turns (n + (last + 1)) hn hsteps hcontexts
    rw [hrun]
    exact not_exhausted_of_answer hn

theorem explore_ends_askUntilSet :
    askUntilSet.memory.mappedBytes < 2 ^ 32 ∧
    (∃ depth, ∀ n, ∀ d ∈ ((askUntilSet.turn .explore)^[n] (.start flagSet)).opened,
      d.stack.length < depth) ∧
    ∃ steps contexts, ∀ limits : RunLimits, steps ≤ limits.maxSteps →
      contexts ≤ limits.maxContexts →
      ¬Exhausted (({ askUntilSet with limits := limits } : Interpreter).explore flagSet) := by
  have hends : ((askUntilSet.turn .explore)^[9] (.start flagSet)).opened = [] := by decide +kernel
  have hm : askUntilSet.memory.mappedBytes < 2 ^ 32 := by decide
  have hdepth : ∃ depth, ∀ n, ∀ d ∈ ((askUntilSet.turn .explore)^[n] (.start flagSet)).opened,
      d.stack.length < depth := by
    have hturns : ∀ n < 9, ∀ d ∈ ((askUntilSet.turn .explore)^[n] (.start flagSet)).opened,
        d.stack.length < 1 := by decide +kernel
    refine ⟨1, fun n d hd => ?_⟩
    rcases Nat.lt_or_ge n 9 with hn | hn
    · exact hturns n hn d hd
    · rw [opened_of_le hends hn] at hd
      exact absurd hd List.not_mem_nil
  refine ⟨hm, hdepth, (explore_ends_iff hm hdepth).mpr ?_⟩
  refine (Set.finite_Iio 9).subset fun n ⟨c, hc, _⟩ => ?_
  by_contra hn
  rw [opened_of_le hends (Nat.le_of_not_lt hn)] at hc
  cases hc

/-! ## An exploration without end -/

/-- A script that makes a trainer unbeaten and sends a party that is too small for the double battle
back to it. -/
def fightAgain : Interpreter :=
  .ofScript #[0x61, 3, 0, 0x5C, 4, 3, 0, 0, 0, 0, 0, 0, 0, 0, 0, 0, 0, 3, 0, 0, 8]

/-- The branch stands at the battle again. -/
def AtBattle (c : Context) : Prop :=
  c.pc = Memory.cartridgeBase + 3 ∧ c.exit? = none ∧ c.stack = [] ∧
    c.isDetermined (.flag (Command.trainerFlags + 3)) = true ∧
    c.flag (Command.trainerFlags + 3) = false

instance (c : Context) : Decidable (AtBattle c) := by
  unfold AtBattle
  infer_instance

theorem decode_fightAgain : ∃ i,
    Instruction.decode fightAgain.memory (Memory.cartridgeBase + 3) = .ok i ∧
      i.command.action = .transfer .battle ∧ i.operand 0 = 4 ∧ i.operand 1 = 3 ∧
      i.operand 5 = Memory.cartridgeBase + 3 := by
  have h : (Instruction.decode fightAgain.memory (Memory.cartridgeBase + 3)).toOption.map
      (fun i => (i.command.action, i.operand 0, i.operand 1, i.operand 5)) =
        some (.transfer .battle, 4, 3, Memory.cartridgeBase + 3) := by decide +kernel
  cases hd : Instruction.decode fightAgain.memory (Memory.cartridgeBase + 3) with
  | error e => rw [hd] at h; cases h
  | ok i =>
    rw [hd] at h
    simp only [Except.toOption, Option.map_some, Option.some.injEq, Prod.mk.injEq] at h
    exact ⟨i, rfl, h⟩

theorem settle_of_tooFew {flag : UInt16} {afterWin? : Option UInt32} {a : UInt32}
    (hf : c.flag flag = false) (hparty : I.game.partySize < 2) :
    I.settle i flag afterWin? (some a) c = c.goto a := by
  unfold settle
  simp only [hf, Bool.false_eq_true, if_false, if_pos hparty]

/-- From the battle, the branch comes to the battle. -/
theorem step_atBattle (h : AtBattle c) :
    ∃ d, fightAgain.step .explore c = .ok ⟨d, []⟩ ∧ AtBattle d := by
  obtain ⟨hpc, hexit, hstack, hknown, hclear⟩ := h
  obtain ⟨i, hi, hact, h0, h1, h5⟩ := decode_fightAgain
  have htrainer : (i.operand 1).toUInt16 = 3 := by rw [h1]; rfl
  refine ⟨(((c.noteRun i.address).noteInput (.flag (Command.trainerFlags + 3))).goto
    (Memory.cartridgeBase + 3)), ?_, rfl, hexit, hstack, hknown, hclear⟩
  refine step_eq_ok_iff.mpr ⟨i, hpc ▸ hi, ?_⟩
  have hkind : BattleKind.ofByte (i.operand 0).toUInt8 = .double := by rw [h0]; rfl
  have htooFew : BattleKind.double.tooFew?.map i.operand = some (Memory.cartridgeBase + 3) :=
    congrArg some h5
  have hknown' : ((c.noteRun i.address).noteInput (.flag (Command.trainerFlags + 3))).isDetermined
    (.flag (Command.trainerFlags + 3)) = true := hknown
  have hclear' : ((c.noteRun i.address).noteInput (.flag (Command.trainerFlags + 3))).flag
    (Command.trainerFlags + 3) = false := hclear
  unfold perform
  simp only [hact, applyTransfer, battle, htrainer, hkind, htooFew]
  rw [if_pos (Or.inr hknown'), settle_of_tooFew hclear' (by decide)]

theorem atBattle_turns (n : Nat) : ∃ c closed,
    (fightAgain.turn .explore)^[n + 1] (.start (.blank Memory.cartridgeBase)) = ⟨[c], closed⟩ ∧
      AtBattle c := by
  induction n with
  | zero =>
    have h : (fightAgain.turn .explore (.start (.blank Memory.cartridgeBase))).opened.length = 1 ∧
        ∀ c ∈ (fightAgain.turn .explore (.start (.blank Memory.cartridgeBase))).opened,
          AtBattle c := by decide +kernel
    rw [Nat.zero_add, Function.iterate_one]
    generalize fightAgain.turn .explore (.start (.blank Memory.cartridgeBase)) = g at h ⊢
    obtain ⟨opened, closed⟩ := g
    obtain ⟨c, rfl⟩ := List.length_eq_one_iff.mp h.1
    exact ⟨c, closed, rfl, h.2 c List.mem_cons_self⟩
  | succ n ih =>
    obtain ⟨c, closed, hturn, hc⟩ := ih
    obtain ⟨d, hd, hd'⟩ := step_atBattle hc
    refine ⟨d, closed, ?_, hd'⟩
    have hn : c.isDone = false := by rw [Context.isDone, hc.2.1]; rfl
    rw [Function.iterate_succ_apply', hturn, turn_of_step hn hd]
    rfl

/-- No limits are wide enough for an exploration that fights the same battle again and again. -/
theorem explore_without_end :
    ¬ ∀ (I : Interpreter) (c : Context), I.memory.mappedBytes < 2 ^ 32 →
      (∃ depth, ∀ n, ∀ d ∈ ((I.turn .explore)^[n] (.start c)).opened, d.stack.length < depth) →
      ∃ steps contexts, ∀ limits : RunLimits, steps ≤ limits.maxSteps →
        contexts ≤ limits.maxContexts →
        ¬Exhausted (({ I with limits := limits } : Interpreter).explore c) := by
  intro h
  have hdepth : ∃ depth, ∀ n, ∀ d ∈
      ((fightAgain.turn .explore)^[n] (.start (.blank Memory.cartridgeBase))).opened,
        d.stack.length < depth := by
    refine ⟨1, fun n d hd => ?_⟩
    cases n with
    | zero =>
      obtain rfl := List.mem_singleton.mp hd
      exact Nat.one_pos
    | succ n =>
      obtain ⟨c, closed, hturn, -, -, hstack, -⟩ := atBattle_turns n
      rw [hturn] at hd
      obtain rfl := List.mem_singleton.mp hd
      rw [hstack]
      exact Nat.one_pos
  obtain ⟨steps, contexts, hlimits⟩ := h fightAgain _ (by decide) hdepth
  obtain ⟨n, hn⟩ := turns_of_drain (hlimits ⟨steps, contexts⟩ (Nat.le_refl _) (Nat.le_refl _))
  have hanswer : fightAgain.answer? .explore ((fightAgain.turn .explore)^[n]
    (.start (.blank Memory.cartridgeBase))) = some _ := hn
  obtain ⟨c, closed, hturn, hc⟩ := atBattle_turns n
  obtain ⟨d, hd, -⟩ := step_atBattle hc
  have hdone : c.isDone = false := by rw [Context.isDone, hc.2.1]; rfl
  -- The answer would still be there one turn later, but there the battle goes on.
  have hlater := answer_after hanswer 1
  rw [← Function.iterate_add_apply, Nat.add_comm, hturn] at hlater
  simp [answer?, hdone, hd] at hlater

end Interpreter

end Cartridge
