import Cartridge.Proofs.Script.Reach
import Cartridge.Proofs.Script.Steady
import Mathlib.Data.List.Forall2

/-!
# Lockstep — two runs in one mode, side by side

A relation is in *lockstep* for a mode when decisions in that mode cannot tell related branches
apart: they have met the same decisions and know the same, and where a decision looks at a
comparison or a flag, it finds the same there.  Every decision then takes related branches to
related branches, one for each, in the same order (`Lockstep.transfer`).  If effects do so as well,
two runs from related branches with the same limits go in step, to answers that are related one by
one or to one error (`Interpreter.drain_pairs`).
-/

namespace Cartridge

/-- The branches after an instruction are related, one by one. -/
structure Advance.Pairs (R : Context → Context → Prop) (a b : Advance) : Prop where
  context : R a.context b.context
  forks : List.Forall₂ R a.forks b.forks

/-- A relation between branches of two runs that decisions in a mode cannot tell apart, as long as
the flags that they look at are shared. -/
structure Lockstep (mode : Mode) (shared : Access → Prop) (R : Context → Context → Prop) : Prop
    extends Steady R where
  visited {x y : Context} : R x y → x.visited = y.visited
  determined {x y : Context} : R x y → x.determined = y.determined
  known {x y : Context} : R x y → x.comparisonKnown = y.comparisonKnown
  compared {x y : Context} : R x y → mode = .execute ∨ x.comparisonKnown = true →
    x.left = y.left ∧ x.right = y.right
  flag {x y : Context} : R x y → ∀ id, shared (.flag id) →
    mode = .execute ∨ x.isDetermined (.flag id) = true → x.flag id = y.flag id
  visits {x y : Context} : R x y → ∀ v, R { x with visited := v } { y with visited := v }

/-- The flag that a transfer looks at, if it is a battle. -/
def Instruction.glances (i : Instruction) : Transfer → List Access
  | .battle => [.flag (Command.trainerFlags + (i.operand 1).toUInt16)]
  | _ => []

namespace Lockstep

open Interpreter

variable {mode : Mode} {shared : Access → Prop} {R : Context → Context → Prop}
  (hR : Lockstep mode shared R) {x y : Context} {I : Interpreter} {i : Instruction}

/-! ## Decisions -/

theorem single (h : R x y) : Advance.Pairs R ⟨x, []⟩ ⟨y, []⟩ := ⟨h, .nil⟩

include hR

theorem isDetermined (h : R x y) (a : Access) : x.isDetermined a = y.isDetermined a := by
  unfold Context.isDetermined
  rw [hR.determined h]

theorem guarded {proceed : Context → Advance} (h : R x y)
    (hp : ∀ x' y', R x' y' → (proceed x').Pairs R (proceed y')) :
    (guarded mode i x proceed).Pairs R (guarded mode i y proceed) := by
  cases mode with
  | execute => exact hp x y h
  | explore =>
    have hvisit : (⟨i.address, y.stack.length, y.stack⟩ : Visit) =
        ⟨i.address, x.stack.length, x.stack⟩ := by rw [hR.stack h]
    have hmet (v : Visit) : y.hasMet v = x.hasMet v := by
      simp only [Context.hasMet, hR.visited h]
    simp only [Interpreter.guarded, Context.visit?, hvisit, hmet, ← hR.visited h]
    by_cases hm : x.hasMet ⟨i.address, x.stack.length, x.stack⟩ = true
    · simp only [if_pos hm]
      exact single (hR.close h .revisit)
    · simp only [if_neg hm]
      exact hp _ _ (hR.visits h _)

theorem branch (h : R x y) {call : Bool} {relation? : Option Relation} {target? : Option UInt32} :
    (branch mode i call relation? target? x).Pairs R (branch mode i call relation? target? y) := by
  cases relation? with
  | none => exact single (hR.goto h _)
  | some relation =>
    cases target? with
    | none => exact single (hR.goto h _)
    | some target =>
      unfold Interpreter.branch
      refine hR.guarded h fun x' y' h' => ?_
      dsimp only
      by_cases hk : mode = .execute ∨ x'.comparisonKnown = true
      · obtain ⟨hl, hr⟩ := hR.compared h' hk
        have hk' : mode = .execute ∨ y'.comparisonKnown = true := hR.known h' ▸ hk
        rw [if_pos hk, if_pos hk', hl, hr]
        refine single ?_
        split
        · exact hR.enter h' _ _ _
        · exact hR.goto h' _
      · rw [if_neg hk, if_neg (hR.known h' ▸ hk)]
        exact ⟨hR.enter h' _ _ _, .cons (hR.goto h' _) .nil⟩

theorem prompt (h : R x y) {options : List (UInt8 × UInt16)} :
    (prompt mode i options x).Pairs R (prompt mode i options y) := by
  refine hR.guarded h fun x' y' h' => ?_
  dsimp only
  rw [← hR.pending h']
  cases hp : x'.pending with
  | cons answer later => exact single (hR.reply (hR.answers h' later) i _)
  | nil =>
    cases options with
    | nil => exact single (hR.goto h' _)
    | cons first rest =>
      refine ⟨hR.reply h' i _, ?_⟩
      simp only [List.forall₂_map_left_iff, List.forall₂_map_right_iff]
      exact List.forall₂_same.mpr fun option _ => hR.reply h' i option

theorem battle (h : R x y) {kind : BattleKind}
    (hs : shared (.flag (Command.trainerFlags + (i.operand 1).toUInt16))) :
    (I.battle mode i kind x).Pairs R (I.battle mode i kind y) := by
  have h₁ := hR.noteInput h (.flag (Command.trainerFlags + (i.operand 1).toUInt16))
  have hknown := hR.isDetermined h₁ (.flag (Command.trainerFlags + (i.operand 1).toUInt16))
  simp only [Interpreter.battle]
  split
  · next hk =>
    rw [if_pos (hknown ▸ hk)]
    exact single (hR.settle h₁ (hR.flag h₁ _ hs hk))
  · next hk =>
    rw [if_neg (hknown ▸ hk)]
    refine hR.guarded h₁ fun x' y' h' => ⟨hR.goto h' _, ?_⟩
    cases kind.tooFew? with
    | none => exact .cons (hR.win h' _ _) .nil
    | some n => exact .cons (hR.goto h' _) (.cons (hR.win h' _ _) .nil)

/-- **Decisions keep branches in lockstep**, one branch for each, in the same order. -/
theorem transfer (h : R x y) {t : Transfer} (hs : ∀ a ∈ i.glances t, shared a) :
    (I.applyTransfer mode i t x).Pairs R (I.applyTransfer mode i t y) := by
  have hjump (call : Bool) (target : UInt32) :
      (Interpreter.guarded mode i x fun c =>
          ⟨Interpreter.enter call i.next target c, []⟩).Pairs R
        (Interpreter.guarded mode i y fun c => ⟨Interpreter.enter call i.next target c, []⟩) :=
    hR.guarded h fun _ _ h' => single (hR.enter h' _ _ _)
  cases t with
  | stop | kill => exact single (hR.close h _)
  | ret =>
    simp only [applyTransfer, ← hR.stack h]
    cases x.stack with
    | nil => exact single (hR.close h _)
    | cons a rest => exact single (hR.goto (hR.calls h rest) a)
  | jump call => exact hjump _ _
  | branch call => exact hR.branch h
  | standard call =>
    simp only [applyTransfer]
    split
    · exact hjump _ _
    · exact single (hR.goto h _)
  | standardBranch call => exact hR.branch h
  | yesNo => exact hR.prompt h
  | choice => exact hR.prompt h
  | battle => exact hR.battle h (hs _ List.mem_cons_self)

/-! ## Instructions -/

/-- An instruction keeps branches in lockstep if its effect does.  The other branch may run where
other effects come about, as long as decisions are the same there. -/
theorem perform {J : Interpreter} (hJ : J.applyTransfer mode i = I.applyTransfer mode i)
    (h : R x y) (ht : ∀ t, i.command.action = .transfer t → ∀ a ∈ i.glances t, shared a)
    (he : ∀ f, i.command.action = .effect f →
      Results R (I.applyEffect mode i f x) (J.applyEffect mode i f y)) :
    Results (Advance.Pairs R) (I.perform mode i x) (J.perform mode i y) := by
  cases hact : i.command.action with
  | inert =>
    simp only [Interpreter.perform, hact]
    exact single (hR.goto h _)
  | effect f =>
    simp only [Interpreter.perform, hact]
    have hf := he f hact
    cases hx : I.applyEffect mode i f x with
    | error fault =>
      rw [hx] at hf
      obtain ⟨fault', hy, hcause⟩ := hf.of_error
      rw [hy]
      exact hcause
    | ok x' =>
      rw [hx] at hf
      obtain ⟨y', hy, hf'⟩ := hf.of_ok
      rw [hy]
      exact single (hR.goto hf' _)
  | transfer t =>
    simp only [Interpreter.perform, hact, hJ]
    exact hR.transfer h (ht t hact)

end Lockstep

namespace Interpreter

variable {I J : Interpreter} {mode : Mode} {R : Context → Context → Prop} {x y : Context}

/-! ## Runs -/

/-- Queues that hold related branches have room for the same forks. -/
theorem enqueue_pairs (cap : Nat) {waiting waiting' : Queue Context} {a b : Advance}
    (hw : List.Forall₂ R waiting.toList waiting'.toList) (hf : a.Pairs R b) :
    (enqueue? cap waiting a.forks = none ∧ enqueue? cap waiting' b.forks = none) ∨
      ∃ later later', enqueue? cap waiting a.forks = some later ∧
        enqueue? cap waiting' b.forks = some later' ∧
        List.Forall₂ R later.toList later'.toList := by
  have hsize : waiting'.size = waiting.size := by
    rw [← Queue.length_toList, ← Queue.length_toList, hw.length_eq]
  have hforks : b.forks.length = a.forks.length := hf.forks.length_eq.symm
  have hempty : b.forks.isEmpty = a.forks.isEmpty := by
    rw [Bool.eq_iff_iff, List.isEmpty_iff_length_eq_zero, List.isEmpty_iff_length_eq_zero, hforks]
  unfold enqueue?
  rw [hsize, hforks, hempty]
  split
  · exact Or.inr ⟨_, _, rfl, rfl, hw⟩
  · split
    · refine Or.inr ⟨_, _, rfl, rfl, ?_⟩
      rw [Queue.toList_pushAll, Queue.toList_pushAll]
      exact List.rel_append hw hf.forks
    · exact Or.inl ⟨rfl, rfl⟩

/-- Queues that hold related branches hand out related branches. -/
theorem pop_pairs {waiting waiting' later : Queue Context} {next : Context}
    (hw : List.Forall₂ R waiting.toList waiting'.toList)
    (h : waiting.pop? = some (next, later)) :
    ∃ next' later', waiting'.pop? = some (next', later') ∧ R next next' ∧
      List.Forall₂ R later.toList later'.toList := by
  rw [Queue.toList_of_pop h] at hw
  cases h' : waiting'.pop? with
  | none =>
    rw [Queue.pop?_eq_none_iff.mp h'] at hw
    cases hw
  | some p =>
    obtain ⟨next', later'⟩ := p
    rw [Queue.toList_of_pop h'] at hw
    obtain ⟨hnext, hlater⟩ := List.forall₂_cons.mp hw
    exact ⟨next', later', rfl, hnext, hlater⟩

/-- **Runs of related branches go in step**, to related answers or to the same error, if every
instruction on the way keeps the branches related. -/
theorem drain_pairs (hlimits : J.limits = I.limits)
    (hdone : ∀ {x y : Context}, R x y → x.isDone = y.isDone) (steps : Nat)
    {waiting waiting' : Queue Context} {closed closed' : List Context} (h : R x y)
    (hw : List.Forall₂ R waiting.toList waiting'.toList) (hc : List.Forall₂ R closed closed')
    (hstep : ∀ c ∈ x :: waiting.toList, ∀ d, I.Reaches mode c d → d.isDone = false →
      ∀ e, R d e → Results (Advance.Pairs R) (I.step mode d) (J.step mode e)) :
    (∃ L M, I.drain mode steps x waiting closed = .ok L ∧
      J.drain mode steps y waiting' closed' = .ok M ∧ List.Forall₂ R L M) ∨
    ∃ e, I.drain mode steps x waiting closed = .error e ∧
      J.drain mode steps y waiting' closed' = .error e := by
  have hy : y.isDone = x.isDone := (hdone h).symm
  fun_induction I.drain mode steps x waiting closed generalizing y waiting' closed' with
  | case1 steps x waiting closed hx hpop =>
    have hnil : waiting'.toList = [] := by
      rw [Queue.pop?_eq_none_iff.mp hpop] at hw
      exact List.forall₂_nil_left_iff.mp hw
    rw [drain_last (hy.trans hx) (Queue.pop?_eq_none_iff.mpr hnil)]
    exact Or.inl ⟨_, _, rfl, rfl, List.forall₂_reverse_iff.mpr (.cons h hc)⟩
  | case2 steps x waiting closed hx next later hpop _ ih =>
    obtain ⟨next', later', hpop', hnext, hlater⟩ := pop_pairs hw hpop
    rw [drain_next (hy.trans hx) hpop']
    refine ih hnext hlater (.cons h hc) ?_ (hdone hnext).symm
    rw [← Queue.toList_of_pop hpop]
    exact fun c hcmem => hstep c (List.mem_cons_of_mem _ hcmem)
  | case3 x waiting closed hx =>
    rw [drain_zero (hy ▸ hx), hlimits]
    exact Or.inr ⟨_, rfl, rfl⟩
  | case4 x waiting closed hx steps fault ha =>
    have hs := hstep x List.mem_cons_self x (.refl x) (by simpa using hx) y h
    rw [ha] at hs
    obtain ⟨fault', hb, hcause⟩ := hs.of_error
    rw [drain_fault (hy ▸ hx) hb]
    exact Or.inr ⟨_, rfl, congrArg _ hcause.symm⟩
  | case5 x waiting closed hx steps a ha hq =>
    have hs := hstep x List.mem_cons_self x (.refl x) (by simpa using hx) y h
    rw [ha] at hs
    obtain ⟨b, hb, hab⟩ := hs.of_ok
    rcases enqueue_pairs I.limits.maxContexts hw hab with ⟨-, hq'⟩ | ⟨_, _, hq', -⟩
    · rw [drain_full (hy ▸ hx) hb (hlimits ▸ hq'), hlimits]
      exact Or.inr ⟨_, rfl, rfl⟩
    · rw [hq] at hq'
      cases hq'
  | case6 x waiting closed hx steps a ha later hq ih =>
    have hn : x.isDone = false := by simpa using hx
    have hs := hstep x List.mem_cons_self x (.refl x) hn y h
    rw [ha] at hs
    obtain ⟨b, hb, hab⟩ := hs.of_ok
    rcases enqueue_pairs I.limits.maxContexts hw hab with ⟨hq', -⟩ | ⟨_, later', hq', hqb, hlater⟩
    · rw [hq] at hq'
      cases hq'
    · rw [hq] at hq'
      cases hq'
      rw [drain_step (hy ▸ hx) hb (hlimits ▸ hqb)]
      refine ih hab.context hlater hc ?_ (hdone hab.context).symm
      intro c hcmem d hd hdn
      rcases (mem_open_after hq c).mp hcmem with hbranch | hwaits
      · exact hstep x List.mem_cons_self d (.head hn ha hbranch hd) hdn
      · exact hstep c (List.mem_cons_of_mem _ hwaits) d hd hdn

/-- **Runs from related branches**: related answers, or the same error. -/
theorem run_pairs (hlimits : J.limits = I.limits)
    (hdone : ∀ {x y : Context}, R x y → x.isDone = y.isDone) (h : R x y)
    (hstep : ∀ d, I.Reaches mode x d → d.isDone = false →
      ∀ e, R d e → Results (Advance.Pairs R) (I.step mode d) (J.step mode e)) :
    (∃ L M, I.run mode x = .ok L ∧ J.run mode y = .ok M ∧ List.Forall₂ R L M) ∨
      ∃ e, I.run mode x = .error e ∧ J.run mode y = .error e := by
  unfold run
  rw [hlimits]
  refine drain_pairs hlimits hdone _ h .nil .nil fun c hc => ?_
  obtain rfl := List.mem_singleton.mp hc
  exact hstep

end Interpreter

end Cartridge
