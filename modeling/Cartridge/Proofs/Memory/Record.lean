import Cartridge.Memory.Field
import Cartridge.Proofs.Memory.Block
import Cartridge.Proofs.Memory.LittleEndian

/-!
# Record — a record at once and field by field

A record can be read at once (`Memory.readFields`), which cuts up the bytes of a single read, and
field by field (`Cursor.fields`), which looks for the region of every field anew.  Where regions are
separate, a record is read at once if and only if it lies in one region, and then its fields, read
one after another, have the same values (`Memory.readFields_eq_ok_iff_fields`).
-/

namespace Cartridge

variable {m : Memory} {a : UInt32} {bytes : List UInt8}

/-! ## One field -/

/-- Two's complement of a number of so many bytes is that of a bit vector as wide as they are. -/
theorem Field.toInt_ofNat_eq_signed (width : Nat) {value : Nat} (hwidth : 0 < width)
    (hvalue : value < 256 ^ width) :
    (BitVec.ofNat (8 * width) value).toInt = signed width value := by
  have hpow : 2 ^ (8 * width) = 256 ^ width := Nat.pow_mul 2 8 width
  have hhalf : 2 * 2 ^ (8 * width - 1) = 2 ^ (8 * width) := by
    rw [← Nat.pow_succ', show (8 * width - 1).succ = 8 * width by omega]
  rw [BitVec.toInt_eq_toNat_cond, BitVec.toNat_ofNat, Nat.mod_eq_of_lt (hpow ▸ hvalue), signed,
    Nat.one_shiftLeft, Nat.one_shiftLeft]
  by_cases hlow : value < 2 ^ (8 * width - 1)
  · rw [if_pos hlow, if_pos (by omega)]
  · rw [if_neg hlow, if_neg (by omega)]

namespace Cursor

variable (m) in
/-- The number in the next field; padding has none.  A cursor has no signed bytes and halfwords of
its own: they are the unsigned ones, converted. -/
def field : Field → Cursor (Option Int)
  | .u8 => return some (← u8 m).toNat
  | .u16 => return some (← u16 m).toNat
  | .u32 => return some (← u32 m).toNat
  | .i8 => return some (← u8 m).toInt8.toInt
  | .i16 => return some (← u16 m).toInt16.toInt
  | .i32 => return some (← i32 m).toInt
  | .pad length => do
    skip length.toUInt32
    return none

variable (m) in
/-- The numbers of a record, its fields read one after another. -/
def fields : List Field → Cursor (List Int)
  | [] => return []
  | f :: rest => do
    let number? ← field m f
    return number?.toList ++ (← fields rest)

theorem run_return {α β : Type} {c : Cursor α} {x : α} {b : UInt32} {f : α → β} {y : β}
    (h : c.run a = .ok (x, b)) (hf : f x = y) : (do return f (← c)).run a = .ok (y, b) := by
  rw [StateT.run_bind, h, ← hf]
  rfl

theorem run_nat {width : Nat} (h : m.read a width = .ok bytes) :
    (nat m width).run a = .ok (Memory.littleEndian bytes, a + width.toUInt32) := by
  change nat m width a = _
  rw [nat, Memory.readNat, h]
  rfl

/-- **A field whose bytes can be read** has the value of these bytes, and the cursor moves on behind
it. -/
theorem run_field {f : Field} (h : m.read a f.size = .ok bytes) :
    (field m f).run a = .ok (f.value? bytes, a + f.size.toUInt32) := by
  have hlt : Memory.littleEndian bytes < 256 ^ f.size :=
    Memory.length_of_read h ▸ Memory.littleEndian_lt bytes
  have hnat := run_nat h
  cases f with
  | pad length => rfl
  | u8 | u16 | u32 =>
    -- a number that fits is not changed by the width of the integer that takes it
    exact run_return (run_return hnat rfl) (congrArg (some ∘ Nat.cast) (Nat.mod_eq_of_lt hlt))
  | i8 =>
    have hvalue := Field.toInt_ofNat_eq_signed 1 (by decide) hlt
    exact run_return (run_return hnat rfl) (congrArg some hvalue)
  | i16 =>
    have hvalue := Field.toInt_ofNat_eq_signed 2 (by decide) hlt
    exact run_return (run_return hnat rfl) (congrArg some hvalue)
  | i32 =>
    have hvalue := Field.toInt_ofNat_eq_signed 4 (by decide) hlt
    exact run_return (run_return (run_return hnat rfl) rfl) (congrArg some hvalue)

/-- **A field among bytes that were read at once** can be read on its own.  Empty padding may also
lie behind the last of them, where nothing could be read. -/
theorem run_field_within (hm : m.Separate) {n : Nat} (h : m.read a n = .ok bytes) {f : Field}
    {i : Nat} (hi : i + f.size ≤ n) :
    (field m f).run (a + i.toUInt32) =
      .ok (f.value? ((bytes.drop i).take f.size), a + (i + f.size).toUInt32) := by
  rw [← add_toUInt32]
  rcases Nat.eq_zero_or_pos f.size with hempty | hpos
  · cases f with
    | pad length => rfl
    | _ => cases hempty
  · exact run_field (Memory.read_within hm h (by omega) hi)

/-! ## One field after another -/

/-- **A record among bytes that were read at once** can be read field by field, and has the values
that its bytes have. -/
theorem run_fields_within (hm : m.Separate) {n : Nat} (h : m.read a n = .ok bytes)
    {record : List Field} {i : Nat} (hi : i + Field.totalSize record ≤ n) :
    (fields m record).run (a + i.toUInt32) =
      .ok (Field.values record (bytes.drop i), a + (i + Field.totalSize record).toUInt32) := by
  induction record generalizing i with
  | nil => rfl
  | cons f rest ih =>
    have hsize : Field.totalSize (f :: rest) = f.size + Field.totalSize rest := rfl
    rw [hsize, ← Nat.add_assoc] at hi
    have hfield := run_field_within hm h (f := f) (i := i) (by omega)
    have hrest := ih (i := i + f.size) hi
    rw [fields, StateT.run_bind, hfield, hsize, ← Nat.add_assoc, Field.values, List.drop_drop]
    exact run_return hrest rfl

end Cursor

namespace Memory

/-- **Reading a record at once** and reading its fields one after another agree.  If the region of
its address has a byte there and room for the whole record, both give the same values, and the
cursor stands behind the record afterwards; otherwise the record cannot be read at once.  No two
regions may overlap, and an empty region inside another one counts as overlapping it
(`Memory.Separate`): a record read at once goes on past the place where such a region begins, a
field that lies behind it cannot be read. -/
theorem readFields_eq_ok_iff_fields (hm : m.Separate) {record : List Field} {values : List Int} :
    m.readFields a record = .ok values ↔
      (∃ r, m.region? a = some r ∧ offset r a < r.bytes.size ∧
        offset r a + Field.totalSize record ≤ r.bytes.size) ∧
      (Cursor.fields m record).run a = .ok (values, a + (Field.totalSize record).toUInt32) := by
  have hrun {bytes : List UInt8} (h : m.read a (Field.totalSize record) = .ok bytes) :
      (Cursor.fields m record).run a =
        .ok (Field.values record bytes, a + (Field.totalSize record).toUInt32) := by
    have hstart : a + (0 : Nat).toUInt32 = a := UInt32.add_zero a
    have hwithin := Cursor.run_fields_within hm h (i := 0) (Nat.zero_add _).le
    rwa [hstart, Nat.zero_add, List.drop_zero] at hwithin
  constructor
  · intro h
    obtain ⟨bytes, hbytes, hvalues⟩ := bind_eq_ok_iff.mp h
    obtain ⟨r, hr, hfirst, hlast, -⟩ := read_eq_ok_iff.mp hbytes
    cases hvalues
    exact ⟨⟨r, hr, hfirst, hlast⟩, hrun hbytes⟩
  · rintro ⟨⟨r, hr, hfirst, hlast⟩, hfields⟩
    have hbytes := read_eq_ok_iff.mpr ⟨r, hr, hfirst, hlast, rfl⟩
    rw [hrun hbytes] at hfields
    cases hfields
    exact bind_eq_ok_iff.mpr ⟨_, hbytes, rfl⟩

/-- The last sixteen bytes of the address space, eight of them in each of two regions. -/
def summit : Memory :=
  (empty.map 0xFFFFFFF0 #[1, 0, 0, 0, 2, 0, 0, 0]).map 0xFFFFFFF8
    #[0x2A, 0xEE, 0x34, 0x12, 0xFE, 0xFF, 0xFF, 0xFF]

theorem separate_summit : summit.Separate :=
  .of_pairwise (by decide +kernel) (by decide +kernel)

/-- A record that fills the upper region: behind it the cursor stands at the first address. -/
theorem readFields_eq_ok_iff_fields_summit :
    summit.Separate ∧
    summit.readFields 0xFFFFFFF8 [.u8, .pad 1, .u16, .i32] = .ok [42, 0x1234, -2] ∧
      (Cursor.fields summit [.u8, .pad 1, .u16, .i32]).run 0xFFFFFFF8 =
        .ok ([42, 0x1234, -2], 0) := by
  have hread : summit.readFields 0xFFFFFFF8 [.u8, .pad 1, .u16, .i32] = .ok [42, 0x1234, -2] := by
    decide +kernel
  obtain ⟨-, hfields⟩ := (readFields_eq_ok_iff_fields separate_summit).mp hread
  exact ⟨separate_summit, hread, hfields⟩

/-- A record that lies in both regions can only be read field by field. -/
example : summit.readFields 0xFFFFFFF4 [.u32, .u8] = .error (.outOfBounds 0xFFFFFFF4 5) ∧
    (Cursor.fields summit [.u32, .u8]).run 0xFFFFFFF4 = .ok ([2, 42], 0xFFFFFFF9) := by
  decide +kernel

end Memory

end Cartridge
