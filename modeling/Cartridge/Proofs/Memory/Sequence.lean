import Cartridge.Memory.Cursor
import Mathlib.Data.List.Forall2

/-!
# Sequence — numbers read one after another

Reading a sequence of numbers from an address is reading each of them at an address of its own, as
far behind as the numbers before it are wide.  The equations below take a `Cursor` computation apart
into such reads.
-/

namespace Cartridge

theorem bind_eq_ok_iff {ε α β : Type} {x : Except ε α} {next : α → Except ε β} {b : β} :
    x >>= next = .ok b ↔ ∃ a, x = .ok a ∧ next a = .ok b := by
  cases x with
  | error e => simp [bind, Except.bind]
  | ok a => simp [bind, Except.bind]

theorem exists_eq_ok_of_isOk {ε α : Type} {x : Except ε α} (h : x.isOk) : ∃ a, x = .ok a := by
  cases x with
  | error e => cases h
  | ok a => exact ⟨a, rfl⟩

/-- A step for every element of a list succeeds if each of them does, and gives their results in
order. -/
theorem mapM_eq_ok_iff {ε α β : Type} {f : α → Except ε β} {xs : List α} {ys : List β} :
    xs.mapM f = .ok ys ↔ List.Forall₂ (fun x y => f x = .ok y) xs ys := by
  induction xs generalizing ys with
  | nil =>
    rw [List.mapM_nil, List.forall₂_nil_left_iff]
    change Except.ok [] = .ok ys ↔ _
    rw [Except.ok.injEq, eq_comm]
  | cons x xs ih =>
    rw [List.mapM_cons, List.forall₂_cons_left_iff, bind_eq_ok_iff]
    refine exists_congr fun y => ?_
    simp only [bind_eq_ok_iff, ih]
    constructor
    · rintro ⟨hy, rest, hrest, ⟨⟩⟩
      exact ⟨rest, hy, hrest, rfl⟩
    · rintro ⟨rest, hy, hrest, rfl⟩
      exact ⟨hy, rest, hrest, rfl⟩

namespace Cursor

variable {m : Memory} {a : UInt32} {α : Type}

theorem readAt_pure (x : α) (a : UInt32) : (pure x : Cursor α).readAt a = .ok x :=
  rfl

theorem readAt_bind_nat {β : Type} (width : Nat) (narrow : Nat → β) (next : β → Cursor α) :
    ((do return narrow (← nat m width)) >>= next).readAt a =
      m.readNat a width >>= fun n => (next (narrow n)).readAt (a + width.toUInt32) := by
  change _ <$> ((nat m width a >>= _) >>= _) = _
  rw [nat]
  cases m.readNat a width <;> rfl

theorem readAt_bind_u8 (next : UInt8 → Cursor α) :
    (u8 m >>= next).readAt a = m.readU8 a >>= fun v => (next v).readAt (a + 1) := by
  rw [u8, readAt_bind_nat, Memory.readU8, bind_assoc]
  rfl

theorem readAt_bind_u16 (next : UInt16 → Cursor α) :
    (u16 m >>= next).readAt a = m.readU16 a >>= fun v => (next v).readAt (a + 2) := by
  rw [u16, readAt_bind_nat, Memory.readU16, bind_assoc]
  rfl

theorem readAt_bind_u32 (next : UInt32 → Cursor α) :
    (u32 m >>= next).readAt a = m.readU32 a >>= fun v => (next v).readAt (a + 4) := by
  rw [u32, readAt_bind_nat, Memory.readU32, bind_assoc]
  rfl

theorem readAt_bind_skip (count : UInt32) (next : Unit → Cursor α) :
    (skip count >>= next).readAt a = (next ()).readAt (a + count) :=
  rfl

end Cursor

end Cartridge
