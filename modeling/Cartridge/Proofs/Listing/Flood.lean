import Cartridge.Proofs.Listing.Stretch
import Mathlib.Logic.Function.Iterate

/-!
# Flood — the blocks of a listing

An `Outline` is where a listing stands: the addresses that wait for a block and the blocks found so
far.  `Listing.turn` serves the address that comes first.  Every turn lowers the addresses that wait
or uses up a mapped address that no block started at before, so the flood ends by itself
(`Listing.exists_settled`), and a listing holds the blocks of its whole flood
(`Listing.exists_blocks_eq`).
-/

namespace Cartridge

/-- Where the jumps and calls of a block lead, conditional ones included. -/
def Block.targets (b : Block) : List UInt32 :=
  b.instructions.filterMap (·.target?)

/-- Where a listing stands. -/
structure Outline where
  /-- The addresses that wait for a block. -/
  waiting : List UInt32
  /-- The blocks found so far, newest first. -/
  known : List Block := []

namespace Listing

variable {m : Memory} {start a : UInt32} {b : Block} {known : List Block} {waiting : List UInt32}
  {o : Outline}

/-! ## Turns -/

/-- Finds the block of the address that comes first, unless a block already answers for it. -/
def turn (m : Memory) (o : Outline) : Outline :=
  match o.waiting with
  | [] => o
  | a :: waiting =>
    if covered o.known a then ⟨waiting, o.known⟩
    else ⟨enqueueTargets o.known (Block.decode m a) waiting, Block.decode m a :: o.known⟩

theorem turn_of_covered (h : covered known a = true) :
    turn m ⟨a :: waiting, known⟩ = ⟨waiting, known⟩ := by
  simp [turn, h]

theorem turn_of_new (h : covered known a = false) :
    turn m ⟨a :: waiting, known⟩ =
      ⟨enqueueTargets known (Block.decode m a) waiting, Block.decode m a :: known⟩ := by
  simp [turn, h]

theorem turn_of_settled (h : o.waiting = []) : turn m o = o := by
  rw [turn, h]

/-- A flood takes one turn for each unit of its fuel. -/
theorem flood_eq (fuel : Nat) (o : Outline) :
    flood m fuel o.waiting o.known = ((turn m)^[fuel] o).known := by
  induction fuel generalizing o with
  | zero => cases o with | mk waiting known => cases waiting <;> rfl
  | succ fuel ih =>
    obtain ⟨waiting, known⟩ := o
    rw [Function.iterate_succ_apply]
    cases waiting with
    | nil =>
      rw [Function.iterate_fixed (turn_of_settled rfl)]
      rfl
    | cons a waiting =>
      by_cases hcovered : covered known a = true
      · rw [turn_of_covered hcovered, ← ih, flood, if_pos hcovered]
      · rw [Bool.not_eq_true] at hcovered
        rw [turn_of_new hcovered, ← ih, flood, if_neg (by simp [hcovered])]

/-! ## What waits -/

theorem covered_eq_true_iff :
    covered known a = true ↔ ∃ b ∈ known, b.contains a = true ∨ b.start = a := by
  simp [covered]

/-- The queue after one target. -/
def enqueue (known : List Block) (b : Block) (waiting : List UInt32) (a : UInt32) : List UInt32 :=
  if known.any (·.contains a) || b.contains a || waiting.contains a then waiting
  else waiting ++ [a]

theorem enqueueTargets_eq :
    enqueueTargets known b waiting = b.targets.foldl (enqueue known b) waiting := by
  rw [Block.targets, List.foldl_filterMap, enqueueTargets]
  congr with waiting i
  cases i.target? <;> rfl

theorem mem_enqueue {x : UInt32} : x ∈ enqueue known b waiting a ↔
    x ∈ waiting ∨ x = a ∧ known.any (·.contains a) = false ∧ b.contains a = false := by
  unfold enqueue
  constructor
  · intro hx
    split at hx
    · exact Or.inl hx
    · next hheld =>
      simp only [Bool.or_eq_true, not_or, Bool.not_eq_true] at hheld
      rcases List.mem_append.mp hx with hx | hx
      · exact Or.inl hx
      · exact Or.inr ⟨List.mem_singleton.mp hx, hheld.1⟩
  · rintro (hx | ⟨rfl, hknown, hb⟩)
    · split
      · exact hx
      · exact List.mem_append_left _ hx
    · rw [hknown, hb, Bool.false_or, Bool.false_or]
      split
      · next hwaits => exact List.contains_iff_mem.mp hwaits
      · exact List.mem_append_right _ (List.mem_singleton.mpr rfl)

/-- Targets wait unless a block holds them. -/
theorem mem_enqueueTargets : a ∈ enqueueTargets known b waiting ↔
    a ∈ waiting ∨ a ∈ b.targets ∧ known.any (·.contains a) = false ∧ b.contains a = false := by
  rw [enqueueTargets_eq]
  induction b.targets generalizing waiting with
  | nil => simp
  | cons t rest ih =>
    rw [List.foldl_cons, ih, mem_enqueue, List.mem_cons]
    constructor
    · rintro ((h | ⟨rfl, h⟩) | ⟨h, hnew⟩)
      · exact Or.inl h
      · exact Or.inr ⟨Or.inl rfl, h⟩
      · exact Or.inr ⟨Or.inr h, hnew⟩
    · rintro (h | ⟨rfl | h, hnew⟩)
      · exact Or.inl (Or.inl h)
      · exact Or.inl (Or.inr ⟨rfl, hnew⟩)
      · exact Or.inr ⟨h, hnew⟩

theorem length_enqueueTargets_le :
    (enqueueTargets known b waiting).length ≤ waiting.length + b.instructions.length := by
  have htargets : b.targets.length ≤ b.instructions.length := List.length_filterMap_le _ _
  have hone (waiting : List UInt32) (a : UInt32) :
      (enqueue known b waiting a).length ≤ waiting.length + 1 := by
    unfold enqueue
    split
    · exact Nat.le_succ _
    · rw [List.length_append, List.length_singleton]
  have hall (targets : List UInt32) : ∀ waiting : List UInt32,
      (targets.foldl (enqueue known b) waiting).length ≤ waiting.length + targets.length := by
    induction targets with
    | nil => exact fun _ => Nat.le_refl _
    | cons t rest ih =>
      intro waiting
      have hfirst := hone waiting t
      have hrest := ih (enqueue known b waiting t)
      rw [List.foldl_cons, List.length_cons]
      omega
  rw [enqueueTargets_eq]
  exact (hall b.targets waiting).trans (Nat.add_le_add_left htargets _)

/-! ## The end of a flood -/

/-- The mapped addresses that no block starts at. -/
def fresh (m : Memory) (known : List Block) : Finset UInt32 :=
  m.mappedAddresses.toFinset.filter fun a => ∀ b ∈ known, b.start ≠ a

/-- The turns that an outline can still take: one for what waits, and one for each instruction in the
blocks of fresh addresses. -/
def turnsLeft (m : Memory) (o : Outline) : Nat :=
  o.waiting.length + (fresh m o.known).card * m.mappedBytes

theorem fresh_cons_subset (m : Memory) (b : Block) (known : List Block) :
    fresh m (b :: known) ⊆ fresh m known := by
  intro a ha
  rw [fresh, Finset.mem_filter] at ha ⊢
  exact ⟨ha.1, fun b' hb' => ha.2 b' (List.mem_cons_of_mem _ hb')⟩

/-- A block with instructions starts at a fresh address. -/
theorem card_fresh_lt (hm : m.mappedBytes < 2 ^ 32) (hnew : covered known a = false)
    (hne : (Block.decode m a).instructions ≠ []) :
    (fresh m (Block.decode m a :: known)).card < (fresh m known).card := by
  refine Finset.card_lt_card ⟨fresh_cons_subset m _ known, fun hsub => ?_⟩
  have hfresh : a ∈ fresh m known := by
    rw [fresh, Finset.mem_filter, List.mem_toFinset]
    refine ⟨Memory.mem_mappedAddresses ((Block.stretch_decode hm a).mapped hm hne), ?_⟩
    intro b hb hstart
    rw [covered_eq_true_iff.mpr ⟨b, hb, Or.inr hstart⟩] at hnew
    cases hnew
  have hused := hsub hfresh
  rw [fresh, Finset.mem_filter] at hused
  exact hused.2 _ List.mem_cons_self rfl

/-- **Every turn leaves fewer turns.** -/
theorem turnsLeft_turn_lt (hm : m.mappedBytes < 2 ^ 32) (h : o.waiting ≠ []) :
    turnsLeft m (turn m o) < turnsLeft m o := by
  obtain ⟨waiting, known⟩ := o
  cases waiting with
  | nil => exact absurd rfl h
  | cons a waiting =>
    by_cases hcovered : covered known a = true
    · rw [turn_of_covered hcovered]
      simp only [turnsLeft, List.length_cons]
      omega
    · rw [Bool.not_eq_true] at hcovered
      rw [turn_of_new hcovered]
      have hlength : (enqueueTargets known (Block.decode m a) waiting).length ≤
          waiting.length + (Block.decode m a).instructions.length := length_enqueueTargets_le
      simp only [turnsLeft, List.length_cons]
      by_cases hempty : (Block.decode m a).instructions = []
      · -- The block is empty, so nothing is added to what waits.
        rw [hempty, List.length_nil] at hlength
        have hcard := Nat.mul_le_mul_right m.mappedBytes
          (Finset.card_le_card (fresh_cons_subset m (Block.decode m a) known))
        omega
      · have hbound := Block.length_decode_le hm a
        have hcard := Nat.mul_le_mul_right m.mappedBytes (card_fresh_lt hm hcovered hempty)
        rw [Nat.succ_mul] at hcard
        omega

/-- **The flood comes to its end** within the turns that are left. -/
theorem exists_settled (hm : m.mappedBytes < 2 ^ 32) (o : Outline) :
    ∃ n ≤ turnsLeft m o, ((turn m)^[n] o).waiting = [] := by
  induction hleft : turnsLeft m o using Nat.strong_induction_on generalizing o with
  | _ left ih =>
    subst hleft
    by_cases h : o.waiting = []
    · exact ⟨0, Nat.zero_le _, h⟩
    · have hlt := turnsLeft_turn_lt hm h
      obtain ⟨n, hn, hsettled⟩ := ih _ hlt (turn m o) rfl
      exact ⟨n + 1, by omega, by rwa [Function.iterate_succ_apply]⟩

/-- At first only the start waits. -/
def outset (start : UInt32) : Outline :=
  { waiting := [start] }

/-- **A listing holds the blocks of its whole flood.** -/
theorem exists_blocks_eq (hm : m.mappedBytes < 2 ^ 32) (start : UInt32) :
    ∃ n, ((turn m)^[n] (outset start)).waiting = [] ∧
      blocks m start = ((turn m)^[n] (outset start)).known.reverse := by
  obtain ⟨n, hn, hsettled⟩ := exists_settled hm (outset start)
  have hfresh : (fresh m []).card ≤ m.mappedBytes :=
    (Finset.card_filter_le _ _).trans
      (m.mappedAddresses.toFinset_card_le.trans m.length_mappedAddresses.le)
  have hleft : turnsLeft m (outset start) ≤ (m.mappedBytes + 1) * (m.mappedBytes + 1) + 1 := by
    have hmul := Nat.mul_le_mul_right m.mappedBytes hfresh
    have hsquare : m.mappedBytes * m.mappedBytes ≤ (m.mappedBytes + 1) * (m.mappedBytes + 1) :=
      Nat.mul_le_mul (Nat.le_succ _) (Nat.le_succ _)
    simp only [turnsLeft, outset, List.length_singleton]
    omega
  obtain ⟨spare, hspare⟩ := Nat.exists_eq_add_of_le (hn.trans hleft)
  refine ⟨n, hsettled, ?_⟩
  have hflood := flood_eq (m := m) (spare + n) (outset start)
  rw [Function.iterate_add_apply, Function.iterate_fixed (turn_of_settled hsettled)] at hflood
  rw [blocks, hspare, Nat.add_comm n]
  exact congrArg List.reverse hflood

end Listing

end Cartridge
