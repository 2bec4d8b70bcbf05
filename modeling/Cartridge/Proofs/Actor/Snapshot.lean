import Cartridge.Actor.Object
import Cartridge.Proofs.World.Collect

/-!
# Snapshot — what a refresh leaves

A refresh ends in one of four ways (`Overworld.refreshed_refresh`).  It is not needed, and nothing
changes; an object cannot be decoded, and nothing changes; everything is read; or the objects are
read and the state of the player is not, and then the new objects stand beside the old state and the
old frame.  The frame in mind is always that of the last refresh that read everything
(`Overworld.frame?_after`).
-/

namespace Cartridge.Overworld

/-- The table of objects holds these objects. -/
def TableHolds (m : Memory) (layout : Layout) (objects : Array Object) : Prop :=
  objects.size = layout.objectCount.toNat ∧ ∀ i (h : i < objects.size),
    Object.decode m (layout.objects + (Object.size * i).toUInt32) = .ok objects[i]

/-- Objects and player's state are those that memory holds. -/
structure Shows (w : Overworld) (m : Memory) (layout : Layout) : Prop where
  objects : TableHolds m layout w.objects
  state : ∃ byte, m.readU8 layout.playerState = .ok byte ∧
    w.playerState? = some (.ofByte byte)

variable {w : Overworld} {frame : Nat} {m : Memory} {layout : Layout} {objects : Array Object}

/-! ## One refresh -/

theorem collectObjects_eq_collect (soFar : Array Object) (i count : Nat) :
    collectObjects m layout soFar i count =
      Map.collect (fun i => Object.decode m (layout.objects + (Object.size * i).toUInt32))
        soFar i count := by
  induction count generalizing soFar i with
  | zero => rfl
  | succ count ih =>
    rw [collectObjects, Map.collect]
    cases Object.decode m (layout.objects + (Object.size * i).toUInt32) with
    | error e => rfl
    | ok o => exact ih _ _

theorem collectObjects_eq_ok_iff :
    collectObjects m layout #[] 0 layout.objectCount.toNat = .ok objects ↔
      TableHolds m layout objects := by
  rw [collectObjects_eq_collect]
  exact Map.collect_eq_ok_iff

/-- The table holds one array of objects at most. -/
theorem TableHolds.unique {objects' : Array Object} (h : TableHolds m layout objects)
    (h' : TableHolds m layout objects') : objects = objects' :=
  Except.ok.inj ((collectObjects_eq_ok_iff.mpr h).symm.trans (collectObjects_eq_ok_iff.mpr h'))

/-- The four ways in which a refresh ends. -/
inductive Refreshed (w : Overworld) (frame : Nat) (m : Memory) (layout : Layout) :
    Overworld × Except MemoryError Bool → Prop where
  /-- The frame was read before. -/
  | known (same : w.frame? = some frame) : Refreshed w frame m layout (w, .ok false)
  /-- Some object cannot be decoded. -/
  | unlisted {e : MemoryError} (new : w.frame? ≠ some frame)
    (missing : ∀ objects, ¬TableHolds m layout objects) : Refreshed w frame m layout (w, .error e)
  /-- The objects are decoded, and then the state of the player cannot be read. -/
  | torn {e : MemoryError} {objects : Array Object} (new : w.frame? ≠ some frame)
    (holds : TableHolds m layout objects) (fails : m.readU8 layout.playerState = .error e) :
    Refreshed w frame m layout ({ w with objects }, .error e)
  /-- Everything is read. -/
  | complete {objects : Array Object} {byte : UInt8} (new : w.frame? ≠ some frame)
    (holds : TableHolds m layout objects) (state : m.readU8 layout.playerState = .ok byte) :
    Refreshed w frame m layout
      ({ frame? := some frame, objects, playerState? := some (.ofByte byte) }, .ok true)

theorem refreshed_refresh (w : Overworld) (frame : Nat) (m : Memory) (layout : Layout) :
    Refreshed w frame m layout (w.refresh frame m layout) := by
  unfold refresh
  split
  · next hsame => exact .known hsame
  · next hnew =>
    cases hobjects : collectObjects m layout #[] 0 layout.objectCount.toNat with
    | error e =>
      refine .unlisted hnew fun objects holds => ?_
      rw [collectObjects_eq_ok_iff.mpr holds] at hobjects
      cases hobjects
    | ok objects =>
      have holds := collectObjects_eq_ok_iff.mp hobjects
      dsimp only
      cases hstate : m.readU8 layout.playerState with
      | error e => exact .torn hnew holds hstate
      | ok byte => exact .complete hnew holds hstate

/-! ## One refresh after another -/

/-- What there is to be seen when a refresh is asked for. -/
structure Scene where
  frame : Nat
  memory : Memory
  layout : Layout

/-- The snapshot after the refreshes that were asked for; the last one stands first. -/
def after : List Scene → Overworld
  | [] => {}
  | s :: past => ((after past).refresh s.frame s.memory s.layout).1

/-- The answer to a refresh after others. -/
def answer (past : List Scene) (s : Scene) : Except MemoryError Bool :=
  ((after past).refresh s.frame s.memory s.layout).2

/-- The frame of the last refresh that read everything. -/
def lastRead? : List Scene → Option Nat
  | [] => none
  | s :: past =>
    match answer past s with
    | .ok true => some s.frame
    | _ => lastRead? past

theorem refreshed_after (past : List Scene) (s : Scene) :
    Refreshed (after past) s.frame s.memory s.layout (after (s :: past), answer past s) :=
  refreshed_refresh _ _ _ _

/-- **The frame in mind** is that of the last refresh that read everything. -/
theorem frame?_after (past : List Scene) : (after past).frame? = lastRead? past := by
  induction past with
  | nil => rfl
  | cons s past ih =>
    have h := refreshed_after past s
    rw [lastRead?]
    generalize after (s :: past) = w, answer past s = answer at h ⊢
    cases h with
    | known | unlisted | torn => exact ih
    | complete => rfl

/-- **What a refresh leaves**, whatever was refreshed before.  It answers no exactly for the frame
that was read last, and changes nothing then; if it answers yes, everything is as memory has it; and
if it fails, nothing changes but the objects, and these change exactly if memory has others. -/
theorem refresh_after (past : List Scene) (s : Scene) :
    (answer past s = .ok false ↔ lastRead? past = some s.frame) ∧
    (answer past s = .ok false → after (s :: past) = after past) ∧
    (answer past s = .ok true → (after (s :: past)).frame? = some s.frame ∧
      (after (s :: past)).Shows s.memory s.layout) ∧
    ∀ e, answer past s = .error e →
      after (s :: past) = { after past with objects := (after (s :: past)).objects } ∧
      (after (s :: past) = after past ↔
        ∀ objects, TableHolds s.memory s.layout objects → objects = (after past).objects) := by
  have h := refreshed_after past s
  rw [← frame?_after]
  generalize after (s :: past) = w, answer past s = answer at h ⊢
  cases h with
  | known same => exact ⟨⟨fun _ => same, fun _ => rfl⟩, fun _ => rfl, nofun, nofun⟩
  | unlisted new missing =>
    have hkept : after past = after past ↔
        ∀ objects, TableHolds s.memory s.layout objects → objects = (after past).objects :=
      ⟨fun _ objects holds => absurd holds (missing objects), fun _ => rfl⟩
    exact ⟨⟨nofun, fun h => absurd h new⟩, nofun, nofun, fun _ _ => ⟨rfl, hkept⟩⟩
  | @torn e objects new holds fails =>
    have hkept : { after past with objects } = after past ↔
        ∀ objects', TableHolds s.memory s.layout objects' → objects' = (after past).objects := by
      constructor
      · intro hsame objects' holds'
        rw [← hsame]
        exact holds'.unique holds
      · intro hall
        rw [hall objects holds]
    exact ⟨⟨nofun, fun h => absurd h new⟩, nofun, nofun, fun _ _ => ⟨rfl, hkept⟩⟩
  | complete new holds state =>
    exact ⟨⟨nofun, fun h => absurd h new⟩, nofun, fun _ => ⟨rfl, holds, _, state, rfl⟩, nofun⟩

/-- One object and the byte behind it, the state of the player. -/
def stall : Memory :=
  Memory.empty.map Memory.workBase ((Array.replicate Object.size 0).push 2)

/-- The stall with one object listed, and the state of the player so far behind its start. -/
def stallScene (frame : Nat) (behind : UInt32) : Scene where
  frame := frame
  memory := stall
  layout := {
    objects := Memory.workBase, objectCount := 1, playerState := Memory.workBase + behind }

theorem refresh_after_stall :
    answer [] (stallScene 7 0x24) = .ok true ∧
    (after [stallScene 7 0x24]).Shows stall (stallScene 7 0x24).layout ∧
    answer [stallScene 7 0x24] (stallScene 7 0x25) = .ok false ∧
    after [stallScene 7 0x25, stallScene 7 0x24] = after [stallScene 7 0x24] := by
  have hread : answer [] (stallScene 7 0x24) = .ok true := by rfl
  obtain ⟨-, -, hshows, -⟩ := refresh_after [] (stallScene 7 0x24)
  have hlast : lastRead? [stallScene 7 0x24] = some (stallScene 7 0x25).frame := by
    rw [lastRead?, hread]
    rfl
  obtain ⟨hfalse, hsame, -⟩ := refresh_after [stallScene 7 0x24] (stallScene 7 0x25)
  have hanswer := hfalse.mpr hlast
  exact ⟨hread, (hshows hread).2, hanswer, hsame hanswer⟩

/-- **A refresh that fails may change the objects**: here memory ends before the state of the
player. -/
theorem refresh_torn :
    answer [] (stallScene 7 0x25) = .error (.unmapped 0x02000025) ∧
    after [stallScene 7 0x25] ≠ after [] :=
  ⟨rfl, by decide +kernel⟩

end Cartridge.Overworld
