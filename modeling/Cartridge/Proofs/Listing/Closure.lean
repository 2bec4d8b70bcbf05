import Cartridge.Proofs.Listing.Flood

/-!
# Closure — what a listing holds

Once its first turn has found the block of the start, every turn keeps an outline sound
(`Outline.Sound`): what waits is a target of a known block, a target of a known block waits or is
covered, and no block starts where an older one starts or where it contains the address.  At the
end nothing waits, so the blocks of a listing are closed under the targets of their instructions
(`Listing.blocks_closed`).  Only a block that goes over the top of the address space, which contains
none of its bytes, can be listed again from inside.
-/

namespace Cartridge

open Listing (covered covered_eq_true_iff enqueueTargets mem_enqueueTargets turn)

variable {m : Memory} {start a next : UInt32} {b : Block} {o : Outline} {known : List Block}
  {waiting : List UInt32}

/-- Every block starts at the target of an older one, but for the oldest one, which starts at
`start`.  The blocks stand newest first. -/
def Sourced (start : UInt32) (known : List Block) : Prop :=
  ∀ later b earlier, known = later ++ b :: earlier →
    earlier = [] ∧ b.start = start ∨ ∃ b' ∈ earlier, b.start ∈ b'.targets

/-- A block with an older source goes in front. -/
theorem Sourced.cons (h : Sourced start known)
    (hsource : ∃ b' ∈ known, b.start ∈ b'.targets) : Sourced start (b :: known) := by
  intro later b' earlier hsplit
  cases later with
  | nil =>
    obtain ⟨rfl, rfl⟩ := List.cons.inj hsplit
    exact Or.inr hsource
  | cons c later =>
    obtain ⟨-, hrest⟩ := List.cons.inj hsplit
    exact h later b' earlier hrest

/-- No block starts where another one starts or inside it. -/
theorem covered_eq_false_iff :
    covered known a = false ↔ ∀ b ∈ known, b.start ≠ a ∧ b.contains a = false := by
  rw [← Bool.not_eq_true, covered_eq_true_iff]
  simp only [not_exists, not_and, not_or, Bool.not_eq_true]
  exact forall₂_congr fun b _ => and_comm

namespace Outline

/-- What the turns of a listing keep once the start has its block. -/
structure Sound (m : Memory) (start : UInt32) (o : Outline) : Prop where
  first : ∃ later, o.known = later ++ [Block.decode m start]
  decoded : ∀ b ∈ o.known, b = Block.decode m b.start
  sourced : Sourced start o.known
  apart : o.known.Pairwise fun b older => older.start ≠ b.start ∧ older.contains b.start = false
  waits : ∀ a ∈ o.waiting, ∃ b ∈ o.known, a ∈ b.targets
  closed : ∀ b ∈ o.known, ∀ a ∈ b.targets, covered o.known a = true ∨ a ∈ o.waiting

/-- A target of a new block waits unless a known block or the new one covers it. -/
theorem covered_or_waits (h : a ∈ b.targets) :
    covered (b :: known) a = true ∨ a ∈ enqueueTargets known b waiting := by
  by_cases hold : known.any (·.contains a) = true
  · obtain ⟨b', hb', hin⟩ := List.any_eq_true.mp hold
    exact Or.inl (covered_eq_true_iff.mpr ⟨b', List.mem_cons_of_mem _ hb', Or.inl hin⟩)
  · by_cases hnew : b.contains a = true
    · exact Or.inl (covered_eq_true_iff.mpr ⟨b, List.mem_cons_self, Or.inl hnew⟩)
    · exact Or.inr (mem_enqueueTargets.mpr (Or.inr ⟨h, by simpa using hold, by simpa using hnew⟩))

/-- The first turn finds the block of the start. -/
theorem sound_turn_outset (m : Memory) (start : UInt32) :
    Sound m start (turn m (Listing.outset start)) := by
  have hturn : turn m (Listing.outset start) =
      ⟨enqueueTargets [] (Block.decode m start) [], [Block.decode m start]⟩ := rfl
  rw [hturn]
  constructor
  case first => exact ⟨[], rfl⟩
  case decoded =>
    intro b hb
    obtain rfl := List.mem_singleton.mp hb
    rfl
  case sourced =>
    intro later b earlier hsplit
    cases later with
    | nil =>
      obtain ⟨rfl, rfl⟩ := List.cons.inj hsplit
      exact Or.inl ⟨rfl, rfl⟩
    | cons c later => simp at hsplit
  case apart => exact List.pairwise_singleton _ _
  case waits =>
    intro a ha
    rcases mem_enqueueTargets.mp ha with ha | ⟨ha, -⟩
    · exact absurd ha List.not_mem_nil
    · exact ⟨_, List.mem_singleton.mpr rfl, ha⟩
  case closed =>
    intro b hb a ha
    obtain rfl := List.mem_singleton.mp hb
    exact covered_or_waits ha

/-- A block that answers for an address still does so when another one is found. -/
theorem covered_cons (h : covered known a = true) :
    covered (b :: known) a = true := by
  obtain ⟨b', hb', hcovers⟩ := covered_eq_true_iff.mp h
  exact covered_eq_true_iff.mpr ⟨b', List.mem_cons_of_mem _ hb', hcovers⟩

/-- An address that a block answers for can be passed over. -/
theorem Sound.pass (h : Sound m start ⟨next :: waiting, known⟩)
    (hcovered : covered known next = true) : Sound m start ⟨waiting, known⟩ := by
  refine ⟨h.first, h.decoded, h.sourced, h.apart,
    fun a ha => h.waits a (List.mem_cons_of_mem _ ha), fun b hb a ha => ?_⟩
  rcases h.closed b hb a ha with hdone | hwaits
  · exact Or.inl hdone
  · rcases List.mem_cons.mp hwaits with rfl | hwaits
    · exact Or.inl hcovered
    · exact Or.inr hwaits

/-- An address that no block answers for gets a block of its own. -/
theorem Sound.find (h : Sound m start ⟨next :: waiting, known⟩)
    (hnew : covered known next = false) :
    Sound m start ⟨enqueueTargets known (Block.decode m next) waiting,
      Block.decode m next :: known⟩ := by
  constructor
  case first =>
    obtain ⟨later, hfirst⟩ := h.first
    exact ⟨_ :: later, congrArg (List.cons _) hfirst⟩
  case decoded =>
    intro b hb
    rcases List.mem_cons.mp hb with rfl | hb
    · rfl
    · exact h.decoded b hb
  case sourced => exact h.sourced.cons (h.waits next List.mem_cons_self)
  case apart => exact List.pairwise_cons.mpr ⟨covered_eq_false_iff.mp hnew, h.apart⟩
  case waits =>
    intro a ha
    rcases mem_enqueueTargets.mp ha with ha | ⟨ha, -⟩
    · obtain ⟨b, hb, ha⟩ := h.waits a (List.mem_cons_of_mem _ ha)
      exact ⟨b, List.mem_cons_of_mem _ hb, ha⟩
    · exact ⟨_, List.mem_cons_self, ha⟩
  case closed =>
    intro b hb a ha
    rcases List.mem_cons.mp hb with rfl | hb
    · exact covered_or_waits ha
    · rcases h.closed b hb a ha with hdone | hwaits
      · exact Or.inl (covered_cons hdone)
      · rcases List.mem_cons.mp hwaits with rfl | hwaits
        · exact Or.inl (covered_eq_true_iff.mpr ⟨_, List.mem_cons_self, Or.inr rfl⟩)
        · exact Or.inr (mem_enqueueTargets.mpr (Or.inl hwaits))

/-- **A turn keeps an outline sound.** -/
theorem Sound.turn (h : Sound m start o) : Sound m start (turn m o) := by
  obtain ⟨waiting, known⟩ := o
  cases waiting with
  | nil => exact h
  | cons next waiting =>
    by_cases hcovered : covered known next = true
    · rw [Listing.turn_of_covered hcovered]
      exact h.pass hcovered
    · rw [Bool.not_eq_true] at hcovered
      rw [Listing.turn_of_new hcovered]
      exact h.find hcovered

/-- After the first turn, every outline of a listing is sound. -/
theorem sound_turns (m : Memory) (start : UInt32) (n : Nat) :
    Sound m start ((Listing.turn m)^[n + 1] (Listing.outset start)) := by
  induction n with
  | zero => exact sound_turn_outset m start
  | succ n ih =>
    rw [Function.iterate_succ_apply']
    exact ih.turn

end Outline

namespace Listing

/-- **A listing is the closure of its start under jumps and calls.**  The flood ends by itself.  The
first block starts at `start`, every other one at a target of an instruction before it in the
listing.  No two start at one address, and none starts at a byte of an earlier one unless that one
goes over the top of the address space and contains nothing.  Every target of a listed instruction
starts a block or is a byte of one.  Every block is what the memory holds: one instruction right
behind the other up to the first that ends or returns, or up to the error. -/
theorem blocks_closed (hm : m.mappedBytes < 2 ^ 32) (start : UInt32) :
    (∃ n, ((turn m)^[n] (outset start)).waiting = [] ∧
      blocks m start = ((turn m)^[n] (outset start)).known.reverse) ∧
    (∃ later, blocks m start = Block.decode m start :: later) ∧
    (∀ earlier b later, blocks m start = earlier ++ b :: later →
      earlier = [] ∧ b.start = start ∨ ∃ b' ∈ earlier, b.start ∈ b'.targets) ∧
    ((blocks m start).Pairwise fun earlier b => earlier.start ≠ b.start ∧
      earlier.contains b.start = false ∧
      (earlier.start ≤ earlier.finish → ¬earlier.Holds b.start)) ∧
    (∀ b ∈ blocks m start, ∀ a ∈ b.targets,
      ∃ b' ∈ blocks m start, b'.start = a ∨ b'.Holds a) ∧
    ∀ b ∈ blocks m start, b.Faithful m := by
  obtain ⟨n, hsettled, hblocks⟩ := exists_blocks_eq hm start
  have hn : n ≠ 0 := by
    rintro rfl
    cases hsettled
  obtain ⟨k, rfl⟩ := Nat.exists_eq_succ_of_ne_zero hn
  have hsound := Outline.sound_turns m start k
  refine ⟨⟨_, hsettled, hblocks⟩, ?_⟩
  generalize (turn m)^[k + 1] (outset start) = o at hsettled hblocks hsound
  rw [hblocks]
  refine ⟨?first, ?sourced, ?apart, ?closed, ?faithful⟩
  case first =>
    obtain ⟨later, hfirst⟩ := hsound.first
    exact ⟨later.reverse, by rw [hfirst, List.reverse_append, List.reverse_singleton]; rfl⟩
  case sourced =>
    intro earlier b later hsplit
    have hknown : o.known = later.reverse ++ b :: earlier.reverse := by
      rw [← List.reverse_reverse o.known, hsplit]
      simp
    rcases hsound.sourced _ _ _ hknown with ⟨hnil, hstart⟩ | ⟨b', hb', htarget⟩
    · exact Or.inl ⟨List.reverse_eq_nil_iff.mp hnil, hstart⟩
    · exact Or.inr ⟨b', List.mem_reverse.mp hb', htarget⟩
  case apart =>
    refine List.pairwise_reverse.mpr (hsound.apart.imp_of_mem ?_)
    intro b older _ holder ⟨hstart, hcontains⟩
    refine ⟨hstart, hcontains, fun hends hholds => ?_⟩
    rw [hsound.decoded older holder] at hends hholds hcontains
    have hinside : (Block.decode m older.start).contains b.start = true :=
      (Block.contains_decode_iff hm hends).mpr hholds
    rw [hcontains] at hinside
    cases hinside
  case closed =>
    intro b hb a ha
    rcases hsound.closed b (List.mem_reverse.mp hb) a ha with hcovered | hwaits
    · obtain ⟨b', hb', hcovers⟩ := covered_eq_true_iff.mp hcovered
      refine ⟨b', List.mem_reverse.mpr hb', hcovers.symm.imp_right fun hcontains => ?_⟩
      rw [hsound.decoded b' hb'] at hcontains ⊢
      exact Block.holds_of_contains hm hcontains
    · rw [hsettled] at hwaits
      exact absurd hwaits List.not_mem_nil
  case faithful =>
    intro b hb
    rw [hsound.decoded b (List.mem_reverse.mp hb)]
    exact Block.faithful_decode hm b.start

/-- A script with a jump ahead, a call into its own first instruction and a jump back, and then a
jump to where there is nothing. -/
def crossing : Memory :=
  ⟨[⟨Memory.cartridgeBase, #[0x06, 0x01, 0x0C, 0, 0, 0x08, 0x04, 0x03, 0, 0, 0x08, 0x02,
    0x05, 0, 0, 0, 0x08, 0x05, 0, 0, 0, 0x02]⟩]⟩

theorem blocks_closed_crossing :
    crossing.mappedBytes < 2 ^ 32 ∧
    (blocks crossing Memory.cartridgeBase).map (·.start) = [0x08000000, 0x0800000C, 0x02000000] ∧
    ∀ b ∈ blocks crossing Memory.cartridgeBase, ∀ a ∈ b.targets,
      ∃ b' ∈ blocks crossing Memory.cartridgeBase, b'.start = a ∨ b'.Holds a := by
  have hm : crossing.mappedBytes < 2 ^ 32 := by decide
  obtain ⟨-, -, -, -, hclosed, -⟩ := blocks_closed hm Memory.cartridgeBase
  exact ⟨hm, by decide +kernel, hclosed⟩

/-- The last bytes of the address space: one that does nothing, and a jump to itself. -/
def lastBytes : Memory :=
  ⟨[⟨0xFFFFFFFA, #[0x00, 0x05, 0xFB, 0xFF, 0xFF, 0xFF]⟩]⟩

/-- A block that goes over the top of the address space is listed again from a target inside it. -/
theorem blocks_twice_lastBytes :
    lastBytes.mappedBytes < 2 ^ 32 ∧
    ¬(blocks lastBytes 0xFFFFFFFA).Pairwise fun earlier b => ¬earlier.Holds b.start := by
  decide +kernel

end Listing

end Cartridge
