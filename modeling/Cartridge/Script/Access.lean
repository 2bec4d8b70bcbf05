import Cartridge.Numeral

/-!
# Access — the pieces of state that a script reads or writes
-/

namespace Cartridge

/-- A piece of state, by kind and number. -/
inductive Access where
  | flag (id : UInt16)
  | var (id : UInt16)
  | bank (id : UInt8)
  /-- A native routine. -/
  | special (id : UInt16)
  | item (id : UInt16)
  | money
  /-- A species handed to the player. -/
  | species (id : UInt16)
  /-- The map a warp leads to. -/
  | warp (bank map : UInt8)
deriving DecidableEq

namespace Access

/-- The access in words. -/
def text : Access → String
  | flag id => "flag " ++ hex id.toNat
  | var id => "var " ++ hex id.toNat
  | bank id => "bank " ++ toString id.toNat
  | special id => "special " ++ hex id.toNat
  | item id => "item " ++ hex id.toNat
  | money => "money"
  | species id => "pokemon " ++ hex id.toNat
  | warp b m => "warp (" ++ toString b.toNat ++ ", " ++ toString m.toNat ++ ")"

/-- The rank of the kind and the number within it. -/
def sortKey : Access → Nat × Nat
  | flag id => (0, id.toNat)
  | var id => (1, id.toNat)
  | bank id => (2, id.toNat)
  | special id => (3, id.toNat)
  | item id => (4, id.toNat)
  | money => (5, 0)
  | species id => (6, id.toNat)
  | warp b m => (7, 256 * b.toNat + m.toNat)

/-- Accesses are ordered by kind, then by number. -/
instance : Ord Access where
  compare a b :=
    (compare a.sortKey.1 b.sortKey.1).then (compare a.sortKey.2 b.sortKey.2)

end Access

/-- A set of accesses in the order in which they were first made, newest first. -/
abbrev AccessLog := List Access

namespace AccessLog

/-- Notes an access unless it is noted already. -/
def note (log : AccessLog) (a : Access) : AccessLog :=
  if a ∈ log then log else a :: log

theorem mem_note {log : AccessLog} {a b : Access} : b ∈ note log a ↔ b = a ∨ b ∈ log := by
  unfold note
  split
  · next h => exact ⟨Or.inr, fun hb => hb.elim (fun e => e ▸ h) id⟩
  · exact List.mem_cons

/-- The accesses, oldest first. -/
def inOrder (log : AccessLog) : List Access :=
  log.reverse

/-- Whether two logs hold the same accesses, in any order. -/
def sameAs (log other : AccessLog) : Bool :=
  log.all (· ∈ other) && other.all (· ∈ log)

end AccessLog

end Cartridge
