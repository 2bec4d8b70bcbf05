import Cartridge.Proofs.Walk.Cost
import Cartridge.Walk.Frontier
import Mathlib.Data.List.Perm.Basic
import Mathlib.Data.Prod.Lex

/-!
# Frontier — the candidates of a heap

`Frontier.toList` lists the candidates of a heap in no particular order; every operation is
described by what it does to that list.  Candidates are ordered by their estimate and then by their
arrival (`Candidate.before_iff`).  A heap that keeps this order (`Frontier.Ordered`) gives out first
what comes first in it (`Ordered.pop`).
-/

namespace Cartridge

/-- What decides when a candidate's turn comes. -/
def Candidate.key (c : Candidate) : WithTop Nat ×ₗ Nat :=
  toLex (c.estimate.value, c.arrival)

theorem Candidate.before_iff {a b : Candidate} : a.before b = true ↔ a.key < b.key := by
  have hlex : a.key < b.key ↔ a.estimate.value < b.estimate.value ∨
      a.estimate.value = b.estimate.value ∧ a.arrival < b.arrival := Prod.Lex.toLex_lt_toLex
  rw [hlex, before, Bool.or_eq_true, Bool.and_eq_true, Cost.less_iff, beq_iff_eq,
    decide_eq_true_iff, Cost.value_inj]

theorem Candidate.value_le_of_key_le {a b : Candidate} (h : a.key ≤ b.key) :
    a.estimate.value ≤ b.estimate.value :=
  Prod.Lex.monotone_fst a.key b.key h

namespace Frontier

/-- The waiting candidates, in no particular order. -/
def toList : Frontier → List Candidate
  | empty => []
  | node _ top l r => top :: (l.toList ++ r.toList)

@[simp] theorem toList_empty : toList empty = [] := rfl

theorem toList_join (top : Candidate) (a b : Frontier) :
    (join top a b).toList.Perm (top :: (a.toList ++ b.toList)) := by
  unfold join
  split
  · exact List.Perm.refl _
  · exact List.perm_append_comm.cons top

theorem toList_merge (a b : Frontier) : (merge a b).toList.Perm (a.toList ++ b.toList) := by
  fun_induction merge a b with
  | case1 b => exact List.Perm.refl _
  | case2 a => rw [toList_empty, List.append_nil]
  | case3 k a l r k' b l' r' _ ih =>
    -- The first candidate of the second heap comes to the front.
    refine (toList_join b _ _).trans ?_
    have hfront : (b :: (l'.toList ++ (merge (node k a l r) r').toList)).Perm
        (b :: (l'.toList ++ ((node k a l r).toList ++ r'.toList))) :=
      (ih.append_left _).cons b
    refine hfront.trans ?_
    have hswap : (l'.toList ++ ((node k a l r).toList ++ r'.toList)).Perm
        ((node k a l r).toList ++ (l'.toList ++ r'.toList)) := by
      rw [← List.append_assoc, ← List.append_assoc]
      exact List.perm_append_comm.append_right _
    exact (hswap.cons b).trans List.perm_middle.symm
  | case4 k a l r k' b l' r' _ ih =>
    refine (toList_join a _ _).trans ?_
    rw [toList, List.cons_append, List.append_assoc]
    exact (ih.append_left _).cons a

theorem toList_push (h : Frontier) (c : Candidate) : (h.push c).toList.Perm (c :: h.toList) :=
  toList_merge _ _

theorem toList_of_pop {h rest : Frontier} {c : Candidate} (hp : h.pop? = some (c, rest)) :
    h.toList.Perm (c :: rest.toList) := by
  cases h with
  | empty => cases hp
  | node k top l r =>
    cases hp
    exact (toList_merge l r).symm.cons _

theorem mem_push {h : Frontier} {c d : Candidate} :
    d ∈ (h.push c).toList ↔ d = c ∨ d ∈ h.toList :=
  (toList_push h c).mem_iff.trans List.mem_cons

theorem mem_of_pop {h rest : Frontier} {c d : Candidate} (hp : h.pop? = some (c, rest)) :
    d ∈ h.toList ↔ d = c ∨ d ∈ rest.toList :=
  (toList_of_pop hp).mem_iff.trans List.mem_cons

theorem pop?_eq_none_iff {h : Frontier} : h.pop? = none ↔ h.toList = [] := by
  cases h with
  | empty => exact iff_of_true rfl rfl
  | node k top l r => exact iff_of_false (fun hp => by cases hp) (List.cons_ne_nil _ _)

/-! ## Order -/

/-- No candidate below comes before the one on top. -/
def Ordered : Frontier → Prop
  | empty => True
  | node _ top l r => (∀ c ∈ l.toList ++ r.toList, top.key ≤ c.key) ∧ l.Ordered ∧ r.Ordered

namespace Ordered

variable {a b : Frontier} {top : Candidate}

/-- What comes before the top of a heap comes before all of it. -/
theorem key_le {k : Nat} {l r : Frontier} {first c : Candidate} (h : (node k top l r).Ordered)
    (hfirst : first.key ≤ top.key) (hc : c ∈ (node k top l r).toList) : first.key ≤ c.key := by
  rcases List.mem_cons.mp hc with rfl | hc
  · exact hfirst
  · exact hfirst.trans (h.1 c hc)

theorem join (ha : a.Ordered) (hb : b.Ordered) (htop : ∀ c ∈ a.toList ++ b.toList, top.key ≤ c.key) :
    (join top a b).Ordered := by
  unfold Frontier.join
  split
  · exact ⟨htop, ha, hb⟩
  · refine ⟨fun c hc => htop c ?_, hb, ha⟩
    exact List.perm_append_comm.mem_iff.mp hc

/-- **Merging keeps the order.** -/
theorem merge (ha : a.Ordered) (hb : b.Ordered) : (merge a b).Ordered := by
  fun_induction Frontier.merge a b with
  | case1 b => exact hb
  | case2 a => exact ha
  | case3 k x l r k' y l' r' hbefore ih =>
    have hkey : y.key ≤ x.key := (Candidate.before_iff.mp hbefore).le
    refine join hb.2.1 (ih ha hb.2.2) fun c hc => ?_
    rcases List.mem_append.mp hc with hc | hc
    · exact hb.1 c (List.mem_append_left _ hc)
    · rcases List.mem_append.mp ((toList_merge _ _).mem_iff.mp hc) with hc | hc
      · exact ha.key_le hkey hc
      · exact hb.1 c (List.mem_append_right _ hc)
  | case4 k x l r k' y l' r' hafter ih =>
    have hkey : x.key ≤ y.key := not_lt.mp (mt Candidate.before_iff.mpr hafter)
    refine join ha.2.1 (ih ha.2.2 hb) fun c hc => ?_
    rcases List.mem_append.mp hc with hc | hc
    · exact ha.1 c (List.mem_append_left _ hc)
    · rcases List.mem_append.mp ((toList_merge _ _).mem_iff.mp hc) with hc | hc
      · exact ha.1 c (List.mem_append_right _ hc)
      · exact hb.key_le hkey hc

theorem push (h : a.Ordered) (c : Candidate) : (a.push c).Ordered := by
  have hsingle : (node 1 c empty empty).Ordered :=
    ⟨fun d hd => absurd hd List.not_mem_nil, trivial, trivial⟩
  exact hsingle.merge h

/-- **The candidate that is given out comes first.** -/
theorem pop {rest : Frontier} {c : Candidate} (h : a.Ordered) (hp : a.pop? = some (c, rest)) :
    rest.Ordered ∧ ∀ d ∈ a.toList, c.key ≤ d.key := by
  cases a with
  | empty => cases hp
  | node k top l r =>
    cases hp
    exact ⟨h.2.1.merge h.2.2, fun d hd => h.key_le le_rfl hd⟩

end Ordered

end Frontier

end Cartridge
