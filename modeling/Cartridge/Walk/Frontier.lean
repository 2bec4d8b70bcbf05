import Cartridge.Walk.Cost

/-!
# Frontier — the cells a search may look at next

A leftist heap of candidates.  The smallest estimate comes first; among equal estimates the one that
arrived first.
-/

namespace Cartridge

/-- A node that waits to be looked at. -/
structure Candidate where
  estimate : Cost
  /-- How many candidates arrived before. -/
  arrival : Nat
  node : Nat

/-- Whether the first candidate comes before the second. -/
def Candidate.before (a b : Candidate) : Bool :=
  a.estimate.less b.estimate || (a.estimate == b.estimate && a.arrival < b.arrival)

/-- The waiting candidates.  The rank is the length of the right spine. -/
inductive Frontier where
  | empty
  | node (rank : Nat) (top : Candidate) (left right : Frontier)

namespace Frontier

/-- The number of waiting candidates. -/
def size : Frontier → Nat
  | empty => 0
  | node _ _ l r => l.size + r.size + 1

/-- The length of the right spine. -/
def rank : Frontier → Nat
  | empty => 0
  | node k _ _ _ => k

/-- A heap with the longer spine on the left. -/
def join (top : Candidate) (a b : Frontier) : Frontier :=
  if b.rank ≤ a.rank then node (b.rank + 1) top a b else node (a.rank + 1) top b a

/-- All candidates of two heaps. -/
def merge : Frontier → Frontier → Frontier
  | empty, b => b
  | a, empty => a
  | node k a l r, node k' b l' r' =>
    if b.before a then join b l' (merge (node k a l r) r')
    else join a l (merge r (node k' b l' r'))
termination_by a b => a.size + b.size
decreasing_by
  all_goals simp only [size]; omega

/-- The heap with one more candidate. -/
def push (h : Frontier) (c : Candidate) : Frontier :=
  merge (node 1 c empty empty) h

/-- The candidate that comes first, and the others. -/
def pop? : Frontier → Option (Candidate × Frontier)
  | empty => none
  | node _ top l r => some (top, merge l r)

theorem size_join (top : Candidate) (a b : Frontier) :
    (join top a b).size = a.size + b.size + 1 := by
  unfold join
  split
  · simp only [size]
  · simp only [size]; omega

theorem size_merge (a b : Frontier) : (merge a b).size = a.size + b.size := by
  fun_induction merge a b with
  | case1 b => simp [size]
  | case2 a => simp [size]
  | case3 k a l r k' b l' r' _ ih => simp only [size_join, ih, size]; omega
  | case4 k a l r k' b l' r' _ ih => simp only [size_join, ih, size]; omega

theorem size_pop {h rest : Frontier} {c : Candidate} (hp : h.pop? = some (c, rest)) :
    rest.size < h.size := by
  cases h with
  | empty => simp [pop?] at hp
  | node k top l r =>
    simp only [pop?, Option.some.injEq, Prod.mk.injEq] at hp
    rw [← hp.2, size_merge, size]
    omega

end Frontier

end Cartridge
