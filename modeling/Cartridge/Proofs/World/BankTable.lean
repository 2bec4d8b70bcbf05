import Cartridge.Proofs.Memory.Mapped
import Cartridge.Proofs.World.Collect
import Cartridge.Proofs.World.Stored
import Cartridge.World.Basic

/-!
# BankTable — where the maps of a decoded world come from

Every map of a decoded world is stored under the header that the bank table lists for its bank and
its number (`World.listed_of_decode`), and has its id from these two (`World.id_of_listed`).  In a
memory with fewer mapped bytes than addresses the table is decoded up to its end
(`World.ends_of_decode`).
-/

namespace Cartridge.World

variable {m : Memory} {layout : Layout} {w : World} {banks : Array (Array Map)}
  {maps : Array Map} {b n : Nat} {x : Map}

/-- Where the bank table says where the headers of a bank are listed. -/
def bankEntry (layout : Layout) (b : Nat) : UInt32 :=
  layout.mapBanks + (4 * b).toUInt32

/-- These are the maps of a bank: their headers are listed from where the entry of the bank says up
to where the next entry says. -/
def BankAt (m : Memory) (layout : Layout) (b : Nat) (maps : Array Map) : Prop :=
  ∃ start finish, m.readU32 (bankEntry layout b) = .ok start ∧
    m.readU32 (bankEntry layout b + 4) = .ok finish ∧ Memory.cartridgeBase < finish ∧
    start ≤ finish ∧ decodeBank m layout b start finish = .ok maps

/-- The bank table ends with this entry. -/
def EndsAt (m : Memory) (layout : Layout) (b : Nat) : Prop :=
  ∃ start finish, m.readU32 (bankEntry layout b) = .ok start ∧
    m.readU32 (bankEntry layout b + 4) = .ok finish ∧ finish ≤ Memory.cartridgeBase

/-! ## The table -/

theorem mapError_eq_ok_iff {ε ε' α : Type} {f : ε → ε'} {r : Except ε α} {a : α} :
    r.mapError f = .ok a ↔ r = .ok a := by
  cases r <;> simp [Except.mapError]

/-- Behind the banks decoded so far the table ends, or has one more bank. -/
theorem collectBanks_succ_eq_ok_iff {fuel : Nat} :
    collectBanks m layout banks (fuel + 1) = .ok w ↔
      EndsAt m layout banks.size ∧ w = ⟨banks⟩ ∨
      ∃ maps, BankAt m layout banks.size maps ∧
        collectBanks m layout (banks.push maps) fuel = .ok w := by
  simp only [collectBanks, bind_eq_ok_iff, mapError_eq_ok_iff, EndsAt, BankAt, bankEntry]
  constructor
  · rintro ⟨start, hstart, finish, hfinish, h⟩
    split at h
    · next hend =>
      cases h
      exact Or.inl ⟨⟨start, finish, hstart, hfinish, hend⟩, rfl⟩
    · next hlisted =>
      split at h
      · cases h
      · next hrange =>
        obtain ⟨maps, hmaps, h⟩ := bind_eq_ok_iff.mp h
        exact Or.inr ⟨maps, ⟨start, finish, hstart, hfinish, UInt32.not_le.mp hlisted,
          UInt32.not_lt.mp hrange, mapError_eq_ok_iff.mp hmaps⟩, h⟩
  · rintro (⟨⟨start, finish, hstart, hfinish, hend⟩, rfl⟩ |
      ⟨maps, ⟨start, finish, hstart, hfinish, hlisted, hrange, hmaps⟩, h⟩)
    · exact ⟨start, hstart, finish, hfinish, if_pos hend⟩
    · refine ⟨start, hstart, finish, hfinish, ?_⟩
      rw [if_neg (UInt32.not_le.mpr hlisted), if_neg (UInt32.not_lt.mpr hrange)]
      exact bind_eq_ok_iff.mpr ⟨maps, mapError_eq_ok_iff.mpr hmaps, h⟩

/-- The maps of a bank are stored under the headers listed for it, in their order. -/
theorem decodeBank_eq_ok_iff {start finish : UInt32} :
    decodeBank m layout b start finish = .ok maps ↔
      maps.size = (finish.toNat - start.toNat + 3) / 4 ∧
      ∀ n (h : n < maps.size), ∃ header, m.readU32 (start + (4 * n).toUInt32) = .ok header ∧
        maps[n].id = ⟨b.toUInt8, n.toUInt8⟩ ∧ Map.StoredAt m layout header maps[n] := by
  simp only [decodeBank, Map.collect_eq_ok_iff, bind_eq_ok_iff, Map.decode_eq_ok_iff]

/-- What the banks decoded so far are, all banks are. -/
theorem bankAt_collectBanks {fuel : Nat}
    (hbanks : ∀ b maps, banks[b]? = some maps → BankAt m layout b maps)
    (h : collectBanks m layout banks fuel = .ok w) (hb : w.banks[b]? = some maps) :
    BankAt m layout b maps := by
  induction fuel generalizing banks with
  | zero =>
    cases h
    exact hbanks b maps hb
  | succ fuel ih =>
    rcases collectBanks_succ_eq_ok_iff.mp h with ⟨-, rfl⟩ | ⟨new, hnew, h⟩
    · exact hbanks b maps hb
    · refine ih (fun b' maps' hb' => ?_) h
      rw [Array.getElem?_push] at hb'
      split at hb'
      · next hlast =>
        cases hb'
        rwa [hlast]
      · exact hbanks b' maps' hb'

/-- The entries of the banks decoded so far take mapped bytes, so decoding comes to the end of the
table before it has gone through as many banks as there are mapped bytes. -/
theorem endsAt_collectBanks {fuel : Nat} (hm : m.mappedBytes < 2 ^ 32)
    (hmapped : ∀ j < 4 * banks.size, m.Mapped (layout.mapBanks + j.toUInt32))
    (hfuel : m.mappedBytes < banks.size + fuel) (h : collectBanks m layout banks fuel = .ok w) :
    EndsAt m layout w.banks.size := by
  induction fuel generalizing banks with
  | zero =>
    obtain ⟨j, hj, hnot⟩ := Memory.exists_not_mapped_near hm layout.mapBanks
    exact absurd (hmapped j (by omega)) hnot
  | succ fuel ih =>
    rcases collectBanks_succ_eq_ok_iff.mp h with ⟨hends, rfl⟩ | ⟨new, hnew, h⟩
    · exact hends
    · refine ih (fun j hj => ?_) (by rw [Array.size_push]; omega) h
      rw [Array.size_push] at hj
      rcases Nat.lt_or_ge j (4 * banks.size) with hlt | hge
      · exact hmapped j hlt
      · obtain ⟨start, finish, hstart, -⟩ := hnew
        obtain ⟨value, hvalue, -⟩ := bind_eq_ok_iff.mp hstart
        have := (Memory.mapped_of_readNat hm hvalue).2 (j - 4 * banks.size) (by omega)
        rwa [bankEntry, add_toUInt32, Nat.add_sub_cancel' hge] at this

/-- **The table is decoded up to its end.** -/
theorem ends_of_decode (hm : m.mappedBytes < 2 ^ 32) (h : decode m layout = .ok w) :
    EndsAt m layout w.banks.size :=
  endsAt_collectBanks hm (fun _ hj => by simp at hj) (by simp) h

/-! ## Maps of a decoded world -/

/-- **Every map of a decoded world** is stored under the header that the table lists for its bank and
its number. -/
theorem listed_of_decode (h : decode m layout = .ok w) (hb : w.banks[b]? = some maps)
    (hn : maps[n]? = some x) : ∃ start header, m.readU32 (bankEntry layout b) = .ok start ∧
      m.readU32 (start + (4 * n).toUInt32) = .ok header ∧ x.id = ⟨b.toUInt8, n.toUInt8⟩ ∧
      Map.StoredAt m layout header x := by
  obtain ⟨start, finish, hstart, -, -, -, hbank⟩ :=
    bankAt_collectBanks (fun _ _ h => by simp at h) h hb
  obtain ⟨hlt, rfl⟩ := Array.getElem?_eq_some_iff.mp hn
  obtain ⟨header, hheader, hstored⟩ := (decodeBank_eq_ok_iff.mp hbank).2 n hlt
  exact ⟨start, header, hstart, hheader, hstored⟩

theorem id_of_listed (h : decode m layout = .ok w) (hb : w.banks[b]? = some maps)
    (hn : maps[n]? = some x) : x.id = ⟨b.toUInt8, n.toUInt8⟩ := by
  obtain ⟨-, -, -, -, hid, -⟩ := listed_of_decode h hb hn
  exact hid

/-- One bank of two maps.  Both have the same header, and so the same three persons, of whom the last
two share a local id. -/
def hamlet : Memory :=
  Memory.empty.map Memory.cartridgeBase #[
    0x10, 0, 0, 8, 0x18, 0, 0, 8, 0, 0, 0, 0, 0, 0, 0, 0,
    0x18, 0, 0, 8, 0x18, 0, 0, 8,
    0x30, 0, 0, 8, 0x48, 0, 0, 8, 0, 0, 0, 0, 0, 0, 0, 0, 0, 0, 0, 0, 0, 0, 0, 0,
    0, 0, 0, 0, 0, 0, 0, 0, 0, 0, 0, 0, 0x30, 0, 0, 8, 0x30, 0, 0, 8, 0x30, 0, 0, 8,
    3, 0, 0, 0, 0x5C, 0, 0, 8, 0, 0, 0, 0, 0, 0, 0, 0, 0, 0, 0, 0,
    1, 0, 0, 0, 0, 0, 0, 0, 0, 0, 0, 0, 0, 0, 0, 0, 0, 0, 0, 0, 0x51, 0, 0, 0,
    2, 0, 0, 0, 0, 0, 0, 0, 0, 0, 0, 0, 0, 0, 0, 0, 0, 0, 0, 0, 0x20, 0, 0, 0,
    2, 0, 0, 0, 0, 0, 0, 0, 0, 0, 0, 0, 0, 0, 0, 0, 0, 0, 0, 0, 0x30, 0, 0, 0]

/-- The bank table of the hamlet stands at its start. -/
def hamletLayout : Layout where
  mapBanks := Memory.cartridgeBase

/-- The hamlet is decoded, and its second map is there. -/
theorem exists_decode_hamlet :
    ∃ w x, decode hamlet hamletLayout = .ok w ∧ w.map? ⟨0, 1⟩ = some x := by
  have hthere : (match decode hamlet hamletLayout with
      | .ok w => (w.map? ⟨0, 1⟩).isSome
      | .error _ => false) = true := by decide +kernel
  cases hw : decode hamlet hamletLayout with
  | error e => rw [hw] at hthere; cases hthere
  | ok w =>
    rw [hw] at hthere
    obtain ⟨x, hx⟩ := Option.isSome_iff_exists.mp hthere
    exact ⟨w, x, rfl, hx⟩

end Cartridge.World
