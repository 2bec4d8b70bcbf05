import Cartridge.Proofs.Script.Draws
import Cartridge.Proofs.Script.Offer
import Cartridge.Proofs.Script.Turns

/-!
# Answers — replaying the answers of an outcome

A branch that has to give the answers of an outcome goes the way of that outcome and comes to
nothing else, unless it comes to a prompt with nothing to choose from while it still has answers to
give.  When the outcome was found no answer was taken there; the replay takes one, and every later
prompt gets the answer of the next.  `execute_give_iff` says that this is the only obstacle: behind
such a prompt the replay has taken one answer more than the outcome, and it never makes up for it,
since both take at least one wherever there is something to choose (`asked`).
-/

namespace Cartridge

/-- The answers that a later branch has taken since, oldest first. -/
def Context.answersTo (c e : Context) : List UInt8 :=
  e.choices.drop c.choices.length

namespace Interpreter

variable {I : Interpreter} {c d e : Context} {p : List UInt8}

theorem answered_eq (h : I.Reaches .execute c e) :
    e.answered = (c.answersTo e).reverse ++ c.answered := by
  obtain ⟨t, ht⟩ := h.suffix.2
  rw [Context.answersTo, Context.choices, Context.choices, ← ht, List.reverse_append,
    List.drop_left, List.reverse_reverse]

/-! ## Replaying a way -/

/-- A branch with the answers of a later one to give takes the step that leads there, and no other.
-/
theorem Next.replay (h : I.Next .execute c d) (hp : c.pending = []) (hdraw : I.DrawsBelowTwo c)
    (hde : d.answered <:+ e.answered) (hans : e.answered = p.reverse ++ c.answered)
    (hasks : I.offer? c.pc = some [] → p = []) (g : GameView) :
    ∃ q, e.answered = q.reverse ++ d.answered ∧
      (I.withDrawsOf g).step .execute (c.give p) = .ok ⟨d.give q, []⟩ := by
  have hgame : (I.withDrawsOf g).step .execute (c.give p) = I.step .execute (c.give p) :=
    step_withDrawsOf g fun _ => hdraw
  obtain ⟨-, a, ha, hd⟩ := h
  rw [hgame]
  cases hoffer : I.offer? c.pc with
  | none =>
    obtain ⟨x, hx, hgive⟩ := step_give hoffer ha
    have hstep := hgive c.pending
    rw [Context.give_of_pending rfl, ha] at hstep
    cases hstep
    obtain rfl := List.mem_singleton.mp hd
    exact ⟨p, hans.trans (congrArg (p.reverse ++ ·) hx.symm), hgive p⟩
  | some options =>
    obtain ⟨i, hstep⟩ := step_offer hoffer
    have hprompt := hstep []
    rw [Context.give_of_pending hp, ha] at hprompt
    obtain rfl := Except.ok.inj hprompt
    rw [hstep p]
    cases options with
    | nil =>
      obtain rfl := hasks hoffer
      rw [prompt_nothing rfl] at hd ⊢
      obtain rfl := List.mem_singleton.mp hd
      exact ⟨[], hans, rfl⟩
    | cons first rest =>
      obtain ⟨option, hoption, rfl⟩ := mem_prompt_open rfl (List.cons_ne_nil _ _) hd
      obtain ⟨t, ht⟩ := hde
      have hpt : p.reverse = t ++ [option.1] := by
        have happ := ht
        rw [answered_reply, hans, List.append_cons] at happ
        exact (List.append_cancel_right happ).symm
      have hpq : p = option.1 :: t.reverse := by
        rw [← List.reverse_reverse p, hpt]
        simp
      refine ⟨t.reverse, ?_, ?_⟩
      · rw [List.reverse_reverse]
        exact ht.symm
      · have hpending : ((c.noteRun i.address).give p).pending = option.1 :: t.reverse := hpq
        rw [prompt_offered (nodup_offer hoffer) hoption hpending, reply_give, reply_give]
        rfl

/-- **Replaying the answers of an outcome leads to it alone**, if wherever there was nothing to
choose from on the way, no answers were left to give. -/
theorem drain_give (hde : I.Reaches .execute d e) (he : e.isDone = true) (hp : d.pending = [])
    (hdraw : ∀ x, I.Reaches .execute d x → x.isDone = false → I.DrawsBelowTwo x)
    (hasks : ∀ x, I.Reaches .execute d x → I.Reaches .execute x e → I.offer? x.pc = some [] →
      x.answered = e.answered) (g : GameView) {steps : Nat}
    (hans : e.answered = p.reverse ++ d.answered)
    (hsteps : e.history.length ≤ d.history.length + steps) :
    (I.withDrawsOf g).drain .execute steps (d.give p) (.ofList []) [] = .ok [e] := by
  induction hde using Relation.ReflTransGen.head_induction_on generalizing p steps with
  | refl =>
    obtain rfl : p = [] := by simpa using hans
    rw [Context.give_of_pending hp]
    exact drain_last he rfl
  | @head x y hxy hye ih =>
    have hlen := congrArg List.length hxy.history_eq
    have hmore := (Reaches.suffix hye).1.length_le
    rw [List.length_cons] at hlen
    obtain ⟨steps, rfl⟩ : ∃ k, steps = k + 1 := ⟨steps - 1, by omega⟩
    have hy : I.Reaches .execute x y := .single hxy
    have hnothing : I.offer? x.pc = some [] → p = [] := fun ho => by
      simpa [hans] using hasks x (.refl x) (Relation.ReflTransGen.head hxy hye) ho
    obtain ⟨q, hq, hstep⟩ :=
      hxy.replay hp (hdraw x (.refl x) hxy.1) (Reaches.suffix hye).2 hans hnothing g
    have hopen : ¬(x.give p).isDone = true := fun hdone => absurd (hdone.symm.trans hxy.1) (by simp)
    rw [drain_step hopen hstep rfl]
    exact ih (hy.pending_nil hp) (fun z hz => hdraw z (hy.trans hz))
      (fun z hz => hasks z (hy.trans hz)) hq (by omega)

/-! ## Counting answers -/

/-- Whether there is something to choose from at an address. -/
def asksAt (I : Interpreter) (a : UInt32) : Bool :=
  match I.offer? a with
  | some (_ :: _) => true
  | some [] | none => false

/-- How often there was something to choose from. -/
def asked (I : Interpreter) (history : List UInt32) : Nat :=
  history.countP I.asksAt

theorem asked_cons (a : UInt32) (history : List UInt32) :
    I.asked (a :: history) = I.asked history + if I.asksAt a then 1 else 0 :=
  List.countP_cons

/-- An executing branch takes an answer wherever there is something to choose from. -/
theorem Next.asked_le (h : I.Next .execute c d) :
    c.answered.length + I.asked d.history ≤ d.answered.length + I.asked c.history := by
  rw [h.history_eq, asked_cons]
  cases h.took with
  | nothing hasks hans | passed hasks _ hans => simp [asksAt, hasks, hans]
  | chose _ _ _ hans | given _ _ hans =>
    rw [hans, List.length_cons]
    split <;> omega

/-- Without answers to give it takes one nowhere else. -/
theorem Next.asked_eq (h : I.Next .execute c d) (hp : c.pending = []) :
    c.answered.length + I.asked d.history = d.answered.length + I.asked c.history := by
  rw [h.history_eq, asked_cons]
  cases h.took with
  | nothing hasks hans | passed hasks _ hans => simp [asksAt, hasks, hans]
  | @chose options _ hasks _ hmem hans =>
    cases options with
    | nil => cases hmem
    | cons first rest =>
      simp only [asksAt, hasks, hans, List.length_cons, if_true]
      omega
  | given _ hgiven => rw [hp] at hgiven; cases hgiven

theorem Reaches.asked_le (h : I.Reaches .execute c d) :
    c.answered.length + I.asked d.history ≤ d.answered.length + I.asked c.history := by
  induction h with
  | refl => exact Nat.le_refl _
  | tail _ hde ih => have := hde.asked_le; omega

theorem Reaches.asked_eq (h : I.Reaches .execute c d) (hp : c.pending = []) :
    c.answered.length + I.asked d.history = d.answered.length + I.asked c.history := by
  induction h with
  | refl => rfl
  | tail hcd hde ih => have := hde.asked_eq (Reaches.pending_nil hcd hp); omega

/-- A replay that comes to a prompt with nothing to choose from and still leads to the outcome had
no answers left to give there. -/
theorem nil_of_replay {g : GameView} (hde : I.Reaches .execute d e) (hp : d.pending = [])
    (hasks : I.offer? d.pc = some []) (hne : d.isDone = false) (he : e.isDone = true)
    (hreplay : (I.withDrawsOf g).Reaches .execute (d.give p) e) : p = [] := by
  rcases Relation.ReflTransGen.cases_head hreplay with heq | ⟨y, hy, hye⟩
  · rw [← heq] at he
    exact absurd (he.symm.trans hne) (by simp)
  · cases hy.took with
    | nothing hnone => exact absurd (hnone.symm.trans hasks) (by simp)
    | passed _ hnil => exact hnil
    | chose _ hnil => exact hnil
    | given _ _ hans =>
      have hway := hde.asked_eq hp
      have hagain : y.answered.length + I.asked e.history ≤ e.answered.length + I.asked y.history :=
        Reaches.asked_le (I := I.withDrawsOf g) hye
      have hhistory : I.asked y.history = I.asked d.history := by
        rw [hy.history_eq, asked_cons]
        simp only [Context.give, asksAt, hasks]
        rfl
      rw [hans, List.length_cons] at hagain
      have hanswered : (d.give p).answered = d.answered := rfl
      rw [hanswered] at hagain
      omega

/-- A replay that leads to the outcome goes through every branch on the way there. -/
theorem reaches_give {g : GameView} (hcd : I.Reaches .execute c d) (hp : c.pending = [])
    (hdraw : ∀ x, I.Reaches .execute c x → x.isDone = false → I.DrawsBelowTwo x)
    (he : e.isDone = true)
    (hreplay : (I.withDrawsOf g).Reaches .execute (c.give (c.answersTo e)) e)
    (hde : I.Reaches .execute d e) :
    ∃ p, e.answered = p.reverse ++ d.answered ∧
      (I.withDrawsOf g).Reaches .execute (d.give p) e := by
  induction hcd with
  | refl => exact ⟨_, answered_eq hde, hreplay⟩
  | @tail x y hcx hxy ih =>
    have hxe : I.Reaches .execute x e :=
      Relation.ReflTransGen.head hxy hde
    obtain ⟨p, hans, hx⟩ := ih hxe
    have hpx : x.pending = [] := Reaches.pending_nil hcx hp
    obtain ⟨q, hq, hstep⟩ := hxy.replay hpx (hdraw x hcx hxy.1) hde.suffix.2 hans
      (fun ho => nil_of_replay hxe hpx ho hxy.1 he hx) g
    refine ⟨q, hq, ?_⟩
    rcases hx.cases_step hstep with heq | ⟨z, hz, hze⟩
    · have hdone := congrArg Context.isDone heq
      rw [he] at hdone
      exact absurd (hdone.trans hxy.1) (by simp)
    · obtain rfl := List.mem_singleton.mp hz
      exact hze

/-- **Replaying the answers of an outcome gives that outcome alone, exactly if** on the way to it no
answers were left to take wherever a prompt had nothing to choose from. -/
theorem execute_give_iff {L : List Context} (hp : c.pending = [])
    (hdraw : ∀ d, I.Reaches .execute c d → d.isDone = false → I.DrawsBelowTwo d)
    (hL : I.execute c = .ok L) (he : e ∈ L) (g : GameView) :
    (I.withDrawsOf g).execute (c.give (c.answersTo e)) = .ok [e] ↔
      ∀ d, I.Reaches .execute c d → I.Reaches .execute d e → I.offer? d.pc = some [] →
        d.answered = e.answered := by
  obtain ⟨hce, hdone⟩ := (mem_run_iff hL e).mp he
  constructor
  · intro hreplay d hcd hde hasks
    cases hd : d.isDone with
    | true => rw [hde.eq_of_isDone hd]
    | false =>
      have hreach := ((mem_run_iff hreplay e).mp List.mem_cons_self).1
      obtain ⟨p, hans, hpe⟩ := reaches_give hcd hp hdraw hdone hreach hde
      obtain rfl := nil_of_replay hde (hcd.pending_nil hp) hasks hd hdone hpe
      exact hans.symm
  · intro hasks
    have hsteps : e.history.length ≤ c.history.length + I.limits.maxSteps :=
      length_history_of_run hL he
    exact drain_give hce hdone hp hdraw hasks g (answered_eq hce) hsteps

/-- A script that draws below one, offers a list that one may back out of, and asks yes or no. -/
def drawAndAskTwice : Interpreter :=
  .ofScript #[0x8F, 1, 0, 0x6F, 0, 0, 0, 0, 0x6E, 0, 0, 0x02]

theorem execute_give_drawAndAskTwice :
    (∀ d, drawAndAskTwice.Reaches .execute (.blank Memory.cartridgeBase) d → d.isDone = false →
      drawAndAskTwice.DrawsBelowTwo d) ∧
    drawAndAskTwice.execute (.blank Memory.cartridgeBase) =
      .ok (drawAndAskTwice.endedBy .execute 17 (.blank Memory.cartridgeBase)) ∧
    ∀ e ∈ drawAndAskTwice.endedBy .execute 17 (.blank Memory.cartridgeBase),
      (drawAndAskTwice.withDrawsOf .unknown).execute ((Context.blank Memory.cartridgeBase).give
        ((Context.blank Memory.cartridgeBase).answersTo e)) = .ok [e] := by
  have hturns :
      ((drawAndAskTwice.turn .execute)^[17] (.start (.blank Memory.cartridgeBase))).opened = [] := by
    decide +kernel
  have hopened : ∀ k < 17, ∀ d ∈
      ((drawAndAskTwice.turn .execute)^[k] (.start (.blank Memory.cartridgeBase))).opened.head?,
        drawAndAskTwice.DrawsBelowTwo d ∧ drawAndAskTwice.offer? d.pc ≠ some [] := by
    decide +kernel
  have hreached (d : Context)
      (hd : drawAndAskTwice.Reaches .execute (.blank Memory.cartridgeBase) d) :
      drawAndAskTwice.DrawsBelowTwo d ∧ drawAndAskTwice.offer? d.pc ≠ some [] := by
    obtain ⟨k, hk, hdk⟩ := exists_turn_of_reaches hturns List.mem_cons_self hd
    exact hopened k hk d hdk
  have hdraw (d : Context) (hd : drawAndAskTwice.Reaches .execute (.blank Memory.cartridgeBase) d)
      (_ : d.isDone = false) : drawAndAskTwice.DrawsBelowTwo d := (hreached d hd).1
  have hL := run_eq_endedBy 17 hturns (by decide) (by decide)
  exact ⟨hdraw, hL, fun e he => (execute_give_iff rfl hdraw hL he .unknown).mpr
    fun d hd _ hasks => absurd hasks (hreached d hd).2⟩

/-- A script that offers an empty list that one may not back out of, and asks yes or no. -/
def askFromNothing : Interpreter :=
  { Interpreter.ofScript #[0x6F, 0, 0, 0, 1, 0x6E, 0, 0, 0x02] with
    game := { optionCount? := fun _ => some 0 } }

/-- The empty list takes the answer that was given to the question behind it. -/
theorem execute_give_askFromNothing :
    (Context.blank Memory.cartridgeBase).isDone = false ∧
    (Context.blank Memory.cartridgeBase).pending = [] ∧
    (∀ d, askFromNothing.Reaches .execute (.blank Memory.cartridgeBase) d → d.isDone = false →
      askFromNothing.DrawsBelowTwo d) ∧
    askFromNothing.execute (.blank Memory.cartridgeBase) =
      .ok (askFromNothing.endedBy .execute 6 (.blank Memory.cartridgeBase)) ∧
    ∃ e ∈ askFromNothing.endedBy .execute 6 (.blank Memory.cartridgeBase),
      askFromNothing.execute ((Context.blank Memory.cartridgeBase).give
        ((Context.blank Memory.cartridgeBase).answersTo e)) ≠ .ok [e] := by
  have hturns :
      ((askFromNothing.turn .execute)^[6] (.start (.blank Memory.cartridgeBase))).opened = [] := by
    decide +kernel
  have hopened : ∀ k < 6, ∀ d ∈
      ((askFromNothing.turn .execute)^[k] (.start (.blank Memory.cartridgeBase))).opened.head?,
        askFromNothing.DrawsBelowTwo d := by
    decide +kernel
  have hdraw (d : Context) (hd : askFromNothing.Reaches .execute (.blank Memory.cartridgeBase) d)
      (_ : d.isDone = false) : askFromNothing.DrawsBelowTwo d := by
    obtain ⟨k, hk, hdk⟩ := exists_turn_of_reaches hturns List.mem_cons_self hd
    exact hopened k hk d hdk
  have hL := run_eq_endedBy 6 hturns (by decide) (by decide)
  have hanswer : ∃ e ∈ askFromNothing.endedBy .execute 6 (.blank Memory.cartridgeBase),
      (Context.blank Memory.cartridgeBase).answersTo e = [0] := by
    decide +kernel
  obtain ⟨e, he, hanswers⟩ := hanswer
  refine ⟨rfl, rfl, hdraw, hL, e, he, ?_⟩
  rw [hanswers]
  -- The replay has an answer for the empty list and none for the question, which forks.
  have hreplay : ((askFromNothing.turn .execute)^[6]
      (.start ((Context.blank Memory.cartridgeBase).give [0]))).opened = [] := by
    decide +kernel
  have htwo : (askFromNothing.endedBy .execute 6
      ((Context.blank Memory.cartridgeBase).give [0])).length = 2 := by
    decide +kernel
  have hM := run_eq_endedBy 6 hreplay (by decide) (by decide)
  intro heq
  have hone := Except.ok.inj (hM.symm.trans heq)
  rw [hone] at htwo
  cases htwo

end Interpreter

end Cartridge
