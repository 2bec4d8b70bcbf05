import Cartridge.Proofs.Walk.Links
import Cartridge.Route.Border
import Mathlib.Data.Int.Order.Basic
import Mathlib.Data.List.Sort

/-!
# BothSides — a border has the same crossings from both sides

The cells along a side of a map are numbered (`Map.sideCell`), and a crossing at number `i` leads to
number `i - offset` of the opposite side of the neighbour (`Connection.entry?_sideCell`).  A number
starts a run if the cell there is open and the one before it is not; beyond the ends of either side
nothing is open, so this is the same question on both sides, and the exits of one map are the
entries of the other (`Connection.exits_back`).
-/

namespace Cartridge

/-- A border in a direction. -/
def ConnectionKind.toward : Direction → ConnectionKind
  | .down => down
  | .up => up
  | .left => left
  | .right => right

/-! ## Sides -/

namespace Map

/-- The number of cells of a side. -/
def sideLength (m : Map) : Direction → Nat
  | .down | .up => m.width
  | .left | .right => m.height

/-- A cell of a side by its number; the numbering goes on beyond the ends. -/
def sideCell (m : Map) (d : Direction) (i : Int) : Cell :=
  match d with
  | .down => ⟨i, m.height - 1⟩
  | .up => ⟨i, 0⟩
  | .left => ⟨0, i⟩
  | .right => ⟨m.width - 1, i⟩

/-- Beyond the ends of a side nothing can be walked on. -/
theorem lt_sideLength_of_isWalkable {m : Map} {d : Direction} {i : Int}
    (h : m.isWalkable (m.sideCell d i) = true) : 0 ≤ i ∧ i < m.sideLength d := by
  unfold isWalkable tile? index? at h
  split at h
  · next hin =>
    obtain ⟨hx, hy, hwidth, hheight⟩ := hin
    cases d with
    | down | up => exact ⟨hx, hwidth⟩
    | left | right => exact ⟨hy, hheight⟩
  · cases h

end Map

namespace Connection

variable {c back : Connection} {d : Direction}

theorem borderCells_toward (m : Map) (d : Direction) :
    borderCells m (.toward d) =
      (List.range (m.sideLength d)).map fun (i : Nat) => m.sideCell d i := by
  cases d <;> rfl

/-- A crossing leads to the opposite side of the neighbour. -/
theorem entry?_sideCell (h : c.kind = .toward d) (m neighbor : Map) (i : Int) :
    c.entry? neighbor (m.sideCell d i) =
      some (neighbor.sideCell d.opposite (i - c.offset)) := by
  unfold entry?
  rw [h]
  cases d <;> rfl

/-- Whether the crossing at a number of the side is open. -/
def opensAt (c : Connection) (m neighbor : Map) (d : Direction) (i : Int) : Bool :=
  c.isOpen m neighbor (m.sideCell d i)

theorem opensAt_eq (h : c.kind = .toward d) (m neighbor : Map) (i : Int) :
    c.opensAt m neighbor d i = (m.isWalkable (m.sideCell d i) &&
      neighbor.isWalkable (neighbor.sideCell d.opposite (i - c.offset))) := by
  rw [opensAt, isOpen, entry?_sideCell h, Option.any_some]

theorem opensAt_within {m neighbor : Map} {i : Int} (h : c.opensAt m neighbor d i = true) :
    0 ≤ i ∧ i < m.sideLength d :=
  Map.lt_sideLength_of_isWalkable (Bool.and_eq_true_iff.mp h).1

/-- Seen from the other side, the same crossings are open. -/
theorem opensAt_back (h : c.kind = .toward d) (hback : back.kind = .toward d.opposite)
    (hoffset : back.offset = -c.offset) (m neighbor : Map) (i : Int) :
    back.opensAt neighbor m d.opposite i = c.opensAt m neighbor d (i + c.offset) := by
  rw [opensAt_eq hback, opensAt_eq h, d.opposite_opposite, hoffset, Int.sub_neg,
    Int.add_sub_cancel, Bool.and_comm]

/-! ## Where runs start -/

/-- The numbers below a length at which runs start. -/
def starts (opens : Int → Bool) (length : Nat) : List Int :=
  ((List.range length).filter fun (i : Nat) => opens i && !opens (i - 1)).map Nat.cast

/-- Starts come in increasing order. -/
theorem pairwise_starts (opens : Int → Bool) (length : Nat) :
    (starts opens length).Pairwise (· < ·) := by
  refine List.pairwise_map.mpr (List.Pairwise.imp Int.ofNat_lt.mpr ?_)
  exact List.pairwise_lt_range.filter _

theorem mem_starts {opens : Int → Bool} {length : Nat}
    (h : ∀ i, opens i = true → 0 ≤ i ∧ i < length) {i : Int} :
    i ∈ starts opens length ↔ opens i = true ∧ opens (i - 1) = false := by
  unfold starts
  rw [List.mem_map]
  constructor
  · rintro ⟨n, hn, rfl⟩
    simpa using (List.mem_filter.mp hn).2
  · rintro ⟨hopen, hclosed⟩
    obtain ⟨hpos, hlt⟩ := h i hopen
    obtain ⟨n, rfl⟩ := Int.eq_ofNat_of_zero_le hpos
    refine ⟨n, List.mem_filter.mpr ⟨List.mem_range.mpr (Int.ofNat_lt.mp hlt), ?_⟩, rfl⟩
    rw [hopen, hclosed]
    rfl

/-- The scan of a border finds the starts. -/
theorem runStarts_eq (isOpen : Cell → Bool) (cell : Int → Cell) (first length : Nat) :
    runStarts isOpen (isOpen (cell (first - 1)))
        ((List.range' first length).map fun (i : Nat) => cell i) =
      ((List.range' first length).filter fun (i : Nat) =>
        isOpen (cell i) && !isOpen (cell (i - 1))).map fun (i : Nat) => cell i := by
  induction length generalizing first with
  | zero => rfl
  | succ length ih =>
    have hnext : ((first + 1 : Nat) : Int) - 1 = first := by omega
    have hrest := ih (first + 1)
    rw [hnext] at hrest
    rw [List.range'_succ, List.map_cons, runStarts, hrest, List.filter_cons]
    split <;> rfl

/-- The exits are the cells at which runs start. -/
theorem exits_eq (h : c.kind = .toward d) (m neighbor : Map) :
    c.exits m neighbor =
      (starts (c.opensAt m neighbor d) (m.sideLength d)).map (m.sideCell d) := by
  have hbefore : c.isOpen m neighbor (m.sideCell d ((0 : Nat) - 1)) = false := by
    rw [Bool.eq_false_iff]
    intro hopen
    have hnonneg := (opensAt_within hopen).1
    omega
  have hscan := runStarts_eq (c.isOpen m neighbor) (m.sideCell d) 0 (m.sideLength d)
  rw [hbefore] at hscan
  rw [exits, h, borderCells_toward, List.range_eq_range', hscan, starts, List.range_eq_range',
    List.map_map]
  rfl

/-- The starts on the other side are the starts on this side, shifted. -/
theorem starts_back (h : c.kind = .toward d) (hback : back.kind = .toward d.opposite)
    (hoffset : back.offset = -c.offset) (m neighbor : Map) :
    (starts (c.opensAt m neighbor d) (m.sideLength d)).map (· - c.offset) =
      starts (back.opensAt neighbor m d.opposite) (neighbor.sideLength d.opposite) := by
  have hshifted : ((starts (c.opensAt m neighbor d) (m.sideLength d)).map
      (· - c.offset)).Pairwise (· < ·) := by
    refine List.pairwise_map.mpr ((pairwise_starts _ _).imp fun hlt => ?_)
    omega
  refine List.Pairwise.eq_of_mem_iff hshifted (pairwise_starts _ _) fun i => ?_
  rw [List.mem_map, mem_starts fun i => opensAt_within, opensAt_back h hback hoffset,
    opensAt_back h hback hoffset, show i - 1 + c.offset = i + c.offset - 1 by omega]
  constructor
  · rintro ⟨j, hj, rfl⟩
    rw [Int.sub_add_cancel]
    exact (mem_starts fun i => opensAt_within).mp hj
  · intro hi
    exact ⟨i + c.offset, (mem_starts fun i => opensAt_within).mpr hi, Int.add_sub_cancel _ _⟩

/-! ## Runs -/

/-- The runs of cells that pass a test, each as long as it can be, in the order of the cells. -/
def runs (isOpen : Cell → Bool) (cells : List Cell) : List (List Cell) :=
  (cells.splitOnP fun x => !isOpen x).filter (· ≠ [])

theorem map_head?_filter_ne_nil (pieces : List (List Cell)) :
    (pieces.filter (· ≠ [])).map List.head? = (pieces.filterMap List.head?).map some := by
  induction pieces with
  | nil => rfl
  | cons piece rest ih =>
    cases piece with
    | nil => exact ih
    | cons x _ => exact congrArg (some x :: ·) ih

/-- The scan of a border finds the first cell of every piece between closed cells; a piece that has
begun before the border is not counted. -/
theorem runStarts_eq_heads (isOpen : Cell → Bool) (inRun : Bool) (cells : List Cell) :
    runStarts isOpen inRun cells =
      (if inRun then (cells.splitOnP fun x => !isOpen x).tail
        else cells.splitOnP fun x => !isOpen x).filterMap List.head? := by
  induction cells generalizing inRun with
  | nil => cases inRun <;> rfl
  | cons x rest ih =>
    obtain ⟨piece, others, hsplit⟩ :=
      List.exists_cons_of_ne_nil (List.splitOnP_ne_nil (fun x => !isOpen x) rest)
    rw [runStarts, ih, List.splitOnP_cons_eq_if_modifyHead, hsplit]
    cases hx : isOpen x <;> cases inRun <;> rfl

/-- The exits are the first cells of the runs of open border cells. -/
theorem exits_eq_heads (c : Connection) (m neighbor : Map) :
    (c.exits m neighbor).map some =
      (runs (c.isOpen m neighbor) (borderCells m c.kind)).map List.head? := by
  rw [runs, map_head?_filter_ne_nil, exits, runStarts_eq_heads]
  rfl

/-- **A border has the same crossings from both sides**, if the connection back is shifted the other
way: the exits of the neighbour are the entries that the exits lead to, one by one, and each of them
leads back to where it came from.  The exits are the first cells of the runs of border cells that
are open on both sides. -/
theorem exits_back (h : c.kind = .toward d) (hback : back.kind = .toward d.opposite)
    (hoffset : back.offset = -c.offset) (m neighbor : Map) :
    (c.exits m neighbor).map (c.entry? neighbor) = (back.exits neighbor m).map some ∧
    (∀ e ∈ c.exits m neighbor,
      ∃ x, c.entry? neighbor e = some x ∧ back.entry? m x = some e) ∧
    (c.exits m neighbor).map some =
      (runs (c.isOpen m neighbor) (borderCells m c.kind)).map List.head? := by
  have hexits := exits_eq h m neighbor
  refine ⟨?onward, ?there, exits_eq_heads c m neighbor⟩
  case onward =>
    rw [hexits, exits_eq hback, ← starts_back h hback hoffset, List.map_map, List.map_map,
      List.map_map]
    exact List.map_congr_left fun i _ => entry?_sideCell h m neighbor i
  case there =>
    intro e he
    rw [hexits] at he
    obtain ⟨i, -, rfl⟩ := List.mem_map.mp he
    refine ⟨_, entry?_sideCell h m neighbor i, ?_⟩
    rw [entry?_sideCell hback, d.opposite_opposite, hoffset, Int.sub_neg, Int.sub_add_cancel]

/-- A ridge with a rock in the middle. -/
def ridge : Map :=
  .ofTiles ⟨0, 0⟩ 3 1 #[.ground, .wall, .ground]

/-- A valley below the ridge that goes on beyond it on both sides. -/
def valley : Map :=
  .ofTiles ⟨0, 1⟩ 5 1 #[.ground, .ground, .ground, .ground, .ground]

/-- From the ridge down to the valley. -/
def toValley : Connection :=
  ⟨.down, -1, ⟨0, 1⟩⟩

/-- From the valley up to the ridge. -/
def toRidge : Connection :=
  ⟨.up, 1, ⟨0, 0⟩⟩

theorem exits_back_ridge :
    toValley.kind = .toward .down ∧ toRidge.kind = .toward .up ∧
    toRidge.offset = -toValley.offset ∧
    toValley.exits ridge valley = [⟨0, 0⟩, ⟨2, 0⟩] ∧
    toRidge.exits valley ridge = [⟨1, 0⟩, ⟨3, 0⟩] ∧
    (toValley.exits ridge valley).map (toValley.entry? valley) =
      (toRidge.exits valley ridge).map some := by
  have hdown : toValley.kind = .toward .down := rfl
  have hup : toRidge.kind = .toward Direction.down.opposite := rfl
  obtain ⟨hentries, -, -⟩ := exits_back hdown hup rfl ridge valley
  exact ⟨rfl, rfl, rfl, by decide +kernel, by decide +kernel, hentries⟩

end Connection

end Cartridge
