import Cartridge.Proofs.Script.Growth
import Cartridge.Proofs.Script.Steady

/-!
# Coverage — exploring keeps up with executing

A `Shadow` is a relation between a branch that explores and one that executes which decisions cannot
tell apart: they stand at the same place, and what the explorer has determined holds for both.
Whatever decision the executing branch takes, the explorer takes it too, on one of its branches,
unless the loop guard ends it there (`Shadow.follows_transfer`).  So if effects keep the relation on
the way to an end of the execution, an outcome of the exploration shadows that end, or the loop
guard cut one off on the way there (`Shadow.covers`).  What effects do on other ways is left open.
-/

namespace Cartridge

/-- What an executing branch had run and answered before the explorer started. -/
structure Past where
  history : List UInt32 := []
  answered : List UInt8 := []

/-- A relation between an exploring branch and an executing one that decisions respect. -/
structure Shadow (past : Past) (R : Context → Context → Prop) : Prop extends Steady R where
  history {x e : Context} : R x e → e.history = x.history ++ past.history
  answered {x e : Context} : R x e → e.answered = x.answered ++ past.answered
  compared {x e : Context} : R x e → x.comparisonKnown = true →
    x.left = e.left ∧ x.right = e.right
  flag {x e : Context} : R x e → ∀ id, x.isDetermined (.flag id) = true → x.flag id = e.flag id
  visits {x e : Context} : R x e → ∀ v, R { x with visited := v } e

/-- Among the branches of an instruction one stands for `d`, or the loop guard has ended `x` there.
-/
def Follows (R : Context → Context → Prop) (x d : Context) (a : Advance) : Prop :=
  ∃ y ∈ a.branches, R y d ∨
    (y.exit? = some .revisit ∧ y.history = x.history ∧ y.answered = x.answered)

/-- `y` stands for `d`, or the loop guard has cut it off on the way of `d`. -/
def Meets (past : Past) (R : Context → Context → Prop) (y d : Context) : Prop :=
  R y d ∨ (y.exit? = some .revisit ∧ y.history ++ past.history <:+ d.history ∧
    y.answered ++ past.answered <:+ d.answered)

/-- The effect that both branches are about to run, if it is one, keeps the relation. -/
def Interpreter.Carries (I : Interpreter) (R : Context → Context → Prop) (x e : Context) : Prop :=
  ∀ i, Instruction.decode I.memory e.pc = .ok i → ∀ f x' e', i.command.action = .effect f →
    I.applyEffect .explore i f (x.noteRun i.address) = .ok x' →
    I.applyEffect .execute i f (e.noteRun i.address) = .ok e' → R x' e'

namespace Shadow

open Interpreter

variable {past : Past} {R : Context → Context → Prop} (hR : Shadow past R) {x e : Context}

include hR

/-- One of the three outcomes of a battle is the one at the values at hand. -/
theorem mem_settle {I : Interpreter} (h : R x e) {i : Instruction} {flag : UInt16}
    {afterWin? tooFew? : Option UInt32} :
    ∃ y ∈ (⟨x.goto i.next, (tooFew?.map x.goto).toList ++
      [Interpreter.win flag afterWin? x]⟩ : Advance).branches,
      R y (I.settle i flag afterWin? tooFew? e) := by
  simp only [Advance.branches, List.mem_cons, List.mem_append, Option.mem_toList,
    Option.map_eq_some_iff, List.not_mem_nil, or_false]
  unfold Interpreter.settle
  split
  · exact ⟨_, Or.inl rfl, hR.goto h _⟩
  · split
    · next a =>
      split
      · exact ⟨_, Or.inr (Or.inl ⟨a, rfl, rfl⟩), hR.goto h _⟩
      · exact ⟨_, Or.inr (Or.inr rfl), hR.win h _ _⟩
    · exact ⟨_, Or.inr (Or.inr rfl), hR.win h _ _⟩

/-! ## Decisions -/

variable {i : Instruction} {d : Context}

/-- A guarded decision is followed if what it guards is, unless the guard ends the explorer. -/
theorem follows_guarded {proceed : Context → Advance} (h : R x e)
    (hp : ∀ x', R x' e → ∃ y ∈ (proceed x').branches, R y d) :
    Follows R x d (guarded .explore i x proceed) := by
  simp only [guarded, Context.visit?]
  split
  · next x' hv =>
    split at hv
    · cases hv
    · cases hv
      obtain ⟨y, hy, hyd⟩ := hp _ (hR.visits h _)
      exact ⟨y, hy, Or.inl hyd⟩
  · exact ⟨_, List.mem_cons_self, Or.inr ⟨rfl, rfl, rfl⟩⟩

theorem follows_goto (h : R x e) {a : UInt32} (hd : d ∈ (⟨e.goto a, []⟩ : Advance).branches) :
    Follows R x d ⟨x.goto a, []⟩ := by
  obtain rfl := List.mem_singleton.mp hd
  exact ⟨_, List.mem_cons_self, Or.inl (hR.goto h a)⟩

theorem follows_close (h : R x e) {reason : ExitReason}
    (hd : d ∈ (⟨e.close reason, []⟩ : Advance).branches) :
    Follows R x d ⟨x.close reason, []⟩ := by
  obtain rfl := List.mem_singleton.mp hd
  exact ⟨_, List.mem_cons_self, Or.inl (hR.close h reason)⟩

theorem follows_jump (h : R x e) {call : Bool} {target : UInt32}
    (hd : d ∈ (guarded .execute i e fun c =>
      ⟨Interpreter.enter call i.next target c, []⟩).branches) :
    Follows R x d (guarded .explore i x fun c => ⟨Interpreter.enter call i.next target c, []⟩) := by
  obtain rfl := List.mem_singleton.mp hd
  exact hR.follows_guarded h fun x' hx => ⟨_, List.mem_cons_self, hR.enter hx _ _ _⟩

theorem follows_branch (h : R x e) {call : Bool} {relation? : Option Relation}
    {target? : Option UInt32} (hd : d ∈ (branch .execute i call relation? target? e).branches) :
    Follows R x d (branch .explore i call relation? target? x) := by
  cases relation? with
  | none => exact hR.follows_goto h hd
  | some relation =>
    cases target? with
    | none => exact hR.follows_goto h hd
    | some target =>
      simp only [branch, guarded, true_or, if_true, Advance.branches, List.mem_singleton] at hd
      refine hR.follows_guarded h fun x' hx => ?_
      simp only [reduceCtorEq, false_or]
      by_cases hk : x'.comparisonKnown = true
      · obtain ⟨hl, hr⟩ := hR.compared hx hk
        rw [if_pos hk, hl, hr]
        refine ⟨_, List.mem_cons_self, ?_⟩
        subst hd
        split
        · exact hR.enter hx _ _ _
        · exact hR.goto hx _
      · -- The explorer forks, so it goes both ways.
        rw [if_neg hk]
        subst hd
        split
        · exact ⟨_, List.mem_cons_self, hR.enter hx _ _ _⟩
        · exact ⟨_, List.mem_cons_of_mem _ List.mem_cons_self, hR.goto hx _⟩

theorem follows_prompt (h : R x e) {options : List (UInt8 × UInt16)}
    (hd : d ∈ (prompt .execute i options e).branches) :
    Follows R x d (prompt .explore i options x) := by
  simp only [prompt, guarded] at hd
  refine hR.follows_guarded h fun x' hx => ?_
  rw [← hR.pending hx] at hd
  cases hp : x'.pending with
  | cons answer later =>
    rw [hp] at hd
    obtain rfl := List.mem_singleton.mp hd
    exact ⟨_, List.mem_cons_self, hR.reply (hR.answers hx later) _ _⟩
  | nil =>
    rw [hp] at hd
    cases options with
    | nil =>
      obtain rfl := List.mem_singleton.mp hd
      exact ⟨_, List.mem_cons_self, hR.goto hx _⟩
    | cons first rest =>
      simp only [Advance.branches, List.mem_cons, List.mem_map] at hd
      rcases hd with rfl | ⟨option, ho, rfl⟩
      · exact ⟨_, List.mem_cons_self, hR.reply hx _ _⟩
      · exact ⟨_, List.mem_cons_of_mem _ (List.mem_map_of_mem ho), hR.reply hx _ _⟩

theorem follows_battle {I : Interpreter} (h : R x e) {kind : BattleKind}
    (hd : d ∈ (I.battle .execute i kind e).branches) :
    Follows R x d (I.battle .explore i kind x) := by
  simp only [battle, true_or, if_true, Advance.branches, List.mem_singleton] at hd
  subst hd
  have h₁ := hR.noteInput h (.flag (Command.trainerFlags + (i.operand 1).toUInt16))
  simp only [battle, reduceCtorEq, false_or]
  split
  · next hk => exact ⟨_, List.mem_cons_self, Or.inl (hR.settle h₁ (hR.flag h₁ _ hk))⟩
  · exact hR.follows_guarded h₁ fun x' hx => hR.mem_settle hx

/-- **The explorer follows every decision of the executing branch.** -/
theorem follows_transfer {I : Interpreter} (h : R x e) {t : Transfer}
    (hd : d ∈ (I.applyTransfer .execute i t e).branches) :
    Follows R x d (I.applyTransfer .explore i t x) := by
  cases t with
  | stop => exact hR.follows_close h hd
  | kill => exact hR.follows_close h hd
  | ret =>
    simp only [applyTransfer, ← hR.stack h] at hd ⊢
    cases hs : x.stack with
    | nil => rw [hs] at hd; exact hR.follows_close h hd
    | cons a rest =>
      rw [hs] at hd
      obtain rfl := List.mem_singleton.mp hd
      exact ⟨_, List.mem_cons_self, Or.inl (hR.goto (hR.calls h rest) a)⟩
  | jump call => exact hR.follows_jump h hd
  | branch call => exact hR.follows_branch h hd
  | standard call =>
    simp only [applyTransfer] at hd ⊢
    split at hd
    · exact hR.follows_jump h hd
    · exact hR.follows_goto h hd
  | standardBranch call => exact hR.follows_branch h hd
  | yesNo => exact hR.follows_prompt h hd
  | choice => exact hR.follows_prompt h hd
  | battle => exact hR.follows_battle h hd

/-! ## Instructions and runs -/

variable {I : Interpreter}

theorem follows_perform {a b : Advance} (h : R x e)
    (hc : ∀ f x' e', i.command.action = .effect f → I.applyEffect .explore i f x = .ok x' →
      I.applyEffect .execute i f e = .ok e' → R x' e')
    (ha : I.perform .execute i e = .ok a) (hb : I.perform .explore i x = .ok b)
    (hd : d ∈ a.branches) : Follows R x d b := by
  cases hact : i.command.action with
  | inert =>
    simp only [perform, hact] at ha hb
    cases ha
    cases hb
    exact hR.follows_goto h hd
  | effect f =>
    simp only [perform, hact] at ha hb
    cases he : I.applyEffect .execute i f e with
    | error g => rw [he] at ha; cases ha
    | ok e' =>
      cases hx : I.applyEffect .explore i f x with
      | error g => rw [hx] at hb; cases hb
      | ok x' =>
        rw [he] at ha
        rw [hx] at hb
        cases ha
        cases hb
        obtain rfl := List.mem_singleton.mp hd
        exact ⟨_, List.mem_cons_self, Or.inl (hR.goto (hc f x' e' hact hx he) _)⟩
  | transfer t =>
    simp only [perform, hact] at ha hb
    cases ha
    cases hb
    exact hR.follows_transfer h hd

/-- If the explorer stands for the executing branch, it follows its next instruction. -/
theorem follows_next {b : Advance} (h : R x e) (hc : I.Carries R x e)
    (hb : I.step .explore x = .ok b) (hd : I.Next .execute e d) :
    ∃ y ∈ b.branches, Meets past R y d := by
  obtain ⟨-, a, ha, hda⟩ := hd
  obtain ⟨i, hi, ha⟩ := step_eq_ok_iff.mp ha
  obtain ⟨j, hj, hb⟩ := step_eq_ok_iff.mp hb
  obtain rfl : j = i := by rw [hR.pc h, hi] at hj; exact (Except.ok.inj hj).symm
  have h₁ := hR.noteRun h j.address
  have hd₁ := (ran_of_perform ha hda).continues
  obtain ⟨y, hy, hyd | ⟨hexit, hhist, hans⟩⟩ := hR.follows_perform h₁ (hc j hi) ha hb hda
  · exact ⟨y, hy, Or.inl hyd⟩
  · have hsame : d.history = y.history ++ past.history := by
      rw [hhist, ← hR.history h₁, hd₁.history]
    refine ⟨y, hy, Or.inr ⟨hexit, hsame ▸ List.suffix_rfl, ?_⟩⟩
    rw [hans, ← hR.answered h₁]
    exact hd₁.answered

/-- **The explorer keeps up with a run**, if effects keep the relation on the way to its end. -/
theorem meets_of_reaches {x₀ e₀ r : Context} (h₀ : R x₀ e₀)
    (hc : ∀ x d d', I.Reaches .explore x₀ x → I.Reaches .execute e₀ d → I.Next .execute d d' →
      I.Reaches .execute d' r → R x d → I.Carries R x d)
    (hok : ∀ x, I.Reaches .explore x₀ x → x.isDone = false → ∃ b, I.step .explore x = .ok b)
    (he : I.Reaches .execute e₀ e) (hr : I.Reaches .execute e r) :
    ∃ y, I.Reaches .explore x₀ y ∧ Meets past R y e := by
  induction he with
  | refl => exact ⟨x₀, .refl _, Or.inl h₀⟩
  | @tail e d he hed ih =>
    obtain ⟨y, hy, hye | ⟨hexit, hhist, hans⟩⟩ :=
      ih (Relation.ReflTransGen.head hed hr)
    · have hn : y.isDone = false := by rw [hR.isDone hye]; exact hed.1
      obtain ⟨b, hb⟩ := hok y hy hn
      obtain ⟨z, hz, hzd⟩ := hR.follows_next hye (hc y e d hy he hed hr hye) hb hed
      exact ⟨z, Relation.ReflTransGen.tail hy ⟨hn, b, hb, hz⟩, hzd⟩
    · -- Once it is cut off, the executing branch only gets longer.
      have hsuf := Reaches.suffix (Relation.ReflTransGen.single hed)
      exact ⟨y, hy, Or.inr ⟨hexit, hhist.trans hsuf.1, hans.trans hsuf.2⟩⟩

/-- **An end of an execution is met by an outcome of the exploration.** -/
theorem covers {x₀ e₀ r : Context} {L M : List Context} (h₀ : R x₀ e₀)
    (hL : I.execute e₀ = .ok L) (hM : I.explore x₀ = .ok M)
    (hc : ∀ x d d', I.Reaches .explore x₀ x → I.Reaches .execute e₀ d → I.Next .execute d d' →
      I.Reaches .execute d' r → R x d → I.Carries R x d)
    (hr : r ∈ L) : ∃ y ∈ M, Meets past R y r := by
  obtain ⟨hr, hdone⟩ := (mem_run_iff hL r).mp hr
  obtain ⟨y, hy, hyr⟩ :=
    hR.meets_of_reaches h₀ hc (fun x hx hn => step_ok_of_run hM hx hn) hr (.refl r)
  refine ⟨y, (mem_run_iff hM y).mpr ⟨hy, ?_⟩, hyr⟩
  rcases hyr with hyr | ⟨hexit, -, -⟩
  · rw [hR.isDone hyr]; exact hdone
  · simp [Context.isDone, hexit]

end Shadow

end Cartridge
