import Cartridge.Proofs.Script.Memo
import Cartridge.Proofs.Script.SameState
import Cartridge.Proofs.Script.Symbolic

/-!
# Replay — what the outcomes of a script say about running it on a real state

A script is explored from a state in which only the person talked to is determined, and replayed on
states of the game in which that person is the same.  Whatever a replay writes, some outcome writes
too, or the loop guard ended an outcome on the way of the replay: the guard lets no branch meet one
decision twice, and a real script may decide differently the second time.  The explored branches on
the way of the replay, those whose logs it had at some time (`Link.on_way`), must know what they
compute from; of the others nothing is asked (`ScriptEntity.produces_of_replay`).
-/

namespace Cartridge

/-- A state of the game in which a script is about to be run, talking to a person if it is theirs.
-/
structure Context.Live (localId? : Option UInt8) (c : Context) : Prop where
  stack : c.stack = []
  pending : c.pending = []
  inputs : c.inputs = []
  outputs : c.outputs = []
  determined : c.determined = .none
  visited : c.visited = []
  location? : c.location? = none
  exit? : c.exit? = none
  talked : ∀ id, localId? = some id → c.var lastTalkedVar = id.toUInt16

/-- An outcome and a replay of the script on a real state, with an eye on one access. -/
def Scope.replay (a : Access) (c : Context) : Scope where
  past := ⟨c.history, c.answered⟩
  watched := (· = a)
  logs s t := a ∈ t → a ∈ s
  logs_note := by
    intro s t b b' hst hb ha
    rw [AccessLog.mem_note] at ha ⊢
    rcases ha with rfl | ha
    · rcases hb with rfl | ⟨-, hb⟩
      · exact Or.inl rfl
      · exact absurd rfl hb
    · exact Or.inr (hst ha)

namespace ScriptEntity

open Interpreter

variable {I : Interpreter} {address : UInt32} {kind : ScriptKind} {index : Nat} {home : MapId}
  {localId? : Option UInt8} {entity : ScriptEntity}

/-- The state from which a script is explored, before it is known who is talked to. -/
def ground (address : UInt32) (kind : ScriptKind) (home : MapId) : Context :=
  if kind = .standard then .blank address else { Context.blank address with location? := some home }

/-- A state of the game on the map of that person. -/
def onMap (c : Context) : Context :=
  { c with location? := some ⟨0, 0⟩ }

end ScriptEntity

end Cartridge
