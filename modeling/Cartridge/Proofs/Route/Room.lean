import Cartridge.Proofs.Route.Candidate
import Mathlib.Data.Finset.Card
import Mathlib.Order.Monotone.Basic

/-!
# Room — how many looks a search can need

The crossings of a world lead to finitely many places, and a candidate comes to none of them twice.
So a candidate has finitely many places left to come to, and what comes of it has fewer: the looks
that a queue is good for (`World.load`) fall with every look.
-/

namespace Cartridge.World

open RouteCandidate RouteFinder

variable {w : World} {c : RouteCandidate} {queue : List RouteCandidate}

/-- The places that the crossings of the world lead to. -/
def landings (w : World) : List Spot :=
  w.maps.flatMap fun m => (w.crossings m).map Prod.snd

theorem mem_landings {m : Map} {id : MapId} (hm : w.map? id = some m) {edge : Edge} {finish : Spot}
    (h : (edge, finish) ∈ w.crossings m) : finish ∈ w.landings :=
  List.mem_flatMap.mpr ⟨m, mem_maps_of_map? hm, List.mem_map_of_mem h⟩

theorem length_crossings_le {m : Map} {id : MapId} (hm : w.map? id = some m) :
    (w.crossings m).length ≤ w.landings.length := by
  have hsub := List.sublist_flatten_of_mem
    (List.mem_map_of_mem (f := fun m => (w.crossings m).map Prod.snd) (mem_maps_of_map? hm))
  simpa [landings, List.flatMap_def] using hsub.length_le

/-- The looks that a candidate is good for when each look may leave `width` others, with `depth`
places left for them. -/
def looks (width : Nat) : (depth : Nat) → Nat
  | 0 => 2
  | depth + 1 => 2 + width * looks width depth

theorem two_le_looks (width depth : Nat) : 2 ≤ looks width depth := by
  cases depth <;> simp [looks]

theorem looks_mono (width : Nat) : Monotone (looks width) := by
  refine monotone_nat_of_le_succ fun depth => ?_
  induction depth with
  | zero => simp [looks]
  | succ depth ih => exact Nat.add_le_add_left (Nat.mul_le_mul_left _ ih) _

/-- The landings that a candidate has not come to. -/
def unseen (w : World) (c : RouteCandidate) : Nat :=
  (w.landings.toFinset \ c.visited.toFinset).card

/-- The looks that a candidate and all that may come of it are good for. -/
def looksAt (w : World) (c : RouteCandidate) : Nat :=
  if c.complete then 1 else looks w.landings.length (w.unseen c)

/-- The looks that the candidates of a queue and all that may come of them are good for. -/
def load (w : World) : List RouteCandidate → Nat
  | [] => 0
  | c :: queue => w.looksAt c + load w queue

theorem load_cons : w.load (c :: queue) = w.looksAt c + w.load queue := rfl

theorem load_append {more : List RouteCandidate} :
    w.load (queue ++ more) = w.load queue + w.load more := by
  induction queue with
  | nil => rw [List.nil_append, load, Nat.zero_add]
  | cons c queue ih => rw [List.cons_append, load_cons, load_cons, ih, Nat.add_assoc]

theorem load_sublist {less : List RouteCandidate} (h : less.Sublist queue) :
    w.load less ≤ w.load queue := by
  induction h with
  | slnil => exact Nat.le_refl _
  | cons c _ ih => exact ih.trans (Nat.le_add_left _ _)
  | cons_cons c _ ih => exact Nat.add_le_add_left ih _

theorem load_le {most : Nat} (h : ∀ c ∈ queue, w.looksAt c ≤ most) :
    w.load queue ≤ queue.length * most := by
  induction queue with
  | nil => exact Nat.zero_le _
  | cons c queue ih =>
    have hfirst := h c List.mem_cons_self
    have hothers := ih fun d hd => h d (List.mem_cons_of_mem _ hd)
    rw [load_cons, List.length_cons, Nat.succ_mul]
    omega

theorem looksAt_pos : 0 < w.looksAt c := by
  unfold looksAt
  split
  · exact Nat.one_pos
  · exact Nat.lt_of_lt_of_le Nat.two_pos (two_le_looks _ _)

/-- A candidate one crossing farther has fewer places left to come to. -/
theorem unseen_lt {m : Map} (hm : w.map? c.spot.map = some m) {d : RouteCandidate}
    (hd : d ∈ successors (w.crossings m) c) : w.unseen d < w.unseen c := by
  obtain ⟨edge, finish, hcross, hnew, rfl⟩ := mem_successors.mp hd
  refine Finset.card_lt_card (Finset.ssubset_iff_of_subset ?_ |>.mpr ⟨finish, ?_, ?_⟩)
  · refine Finset.sdiff_subset_sdiff (Finset.Subset.refl _) fun a ha => ?_
    simp only [extend, List.mem_toFinset, List.mem_cons] at ha ⊢
    exact Or.inr ha
  · simp [mem_landings hm hcross, hnew]
  · simp [extend]

/-- What comes of a candidate is good for fewer looks than the candidate. -/
theorem load_onward {m : Map} (hm : w.map? c.spot.map = some m) (hc : c.complete = false)
    (g : Goal) : w.load ((completed c g).toList ++ successors (w.crossings m) c) < w.looksAt c := by
  have hcompleted : w.load (completed c g).toList ≤ 1 := by
    cases g <;> simp [completed, load, looksAt]
  have hcandidate : w.looksAt c = looks w.landings.length (w.unseen c) := by
    rw [looksAt, if_neg (by simp [hc])]
  rw [load_append, hcandidate]
  cases hunseen : w.unseen c with
  | zero =>
    have hnone : successors (w.crossings m) c = [] := by
      refine List.eq_nil_iff_forall_not_mem.mpr fun d hd => ?_
      have hfewer := unseen_lt hm hd
      omega
    have hroom := two_le_looks w.landings.length 0
    rw [hnone, load]
    omega
  | succ depth =>
    have hload : w.load (successors (w.crossings m) c) ≤
        (successors (w.crossings m) c).length * looks w.landings.length depth := by
      refine load_le fun d hd => ?_
      have hfewer := unseen_lt hm hd
      obtain ⟨edge, finish, -, -, rfl⟩ := mem_successors.mp hd
      rw [looksAt, if_neg (by simp [extend, hc])]
      exact looks_mono _ (by omega)
    have hlength : (successors (w.crossings m) c).length ≤ w.landings.length :=
      (List.length_filterMap_le _ _).trans (length_crossings_le hm)
    have hwidth := Nat.mul_le_mul_right (looks w.landings.length depth) hlength
    rw [looks]
    omega

end Cartridge.World
