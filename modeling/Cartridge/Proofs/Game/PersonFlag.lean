import Cartridge.Game.Fixed
import Cartridge.Game.Live
import Cartridge.Proofs.World.Placed
import Cartridge.Script.Step

/-!
# PersonFlag — the flag of a person, in memory and on the decoded maps

A running game looks for the flag of a person in memory, entry by entry, and a game with given
answers among the persons of its maps.  Where the maps are those of the decoded world both find the
flag of the first person with the local id (`LiveGame.personFlag?_agree`), so a script hides the same
person.
-/

namespace Cartridge

open Cursor (readAt_pure readAt_bind_u8 readAt_bind_u16 readAt_bind_u32 readAt_bind_skip)

variable {m : Memory} {layout : Layout} {w : World} {x : Map} {id : MapId}

/-! ## The table of persons -/

/-- A stored person has its local id at the start and its flag twenty bytes behind. -/
theorem Map.stored_of_personEntry {a : UInt32} {p : Person}
    (h : (personEntry m).readAt a = .ok p) :
    m.readU8 a = .ok p.localId ∧ m.readU16 (a + 20) = .ok p.flag := by
  simp only [personEntry, readAt_bind_u8, readAt_bind_u16, readAt_bind_u32, readAt_bind_skip,
    readAt_pure, bind_eq_ok_iff, UInt32.add_assoc, UInt32.reduceAdd] at h
  obtain ⟨localId, hlocalId, _, -, _, -, _, -, _, -, _, -, _, -, _, -, _, -, _, -,
    flag, hflag, hp⟩ := h
  cases hp
  exact ⟨hlocalId, hflag⟩

namespace LiveGame

/-- **Entry by entry** the flag is that of the first person with the local id. -/
theorem entryFlag?_eq (g : LiveGame) {a : UInt32} (localId : UInt8) {persons : List Person}
    {k : Nat} (h : ∀ j (hj : j < persons.length),
      (Map.personEntry g.memory).readAt (a + (24 * (k + j)).toUInt32) = .ok persons[j]) :
    g.entryFlag? a localId k persons.length =
      (persons.find? (·.localId == localId)).map (·.flag) := by
  induction persons generalizing k with
  | nil => rfl
  | cons p rest ih =>
    obtain ⟨hlocalId, hflag⟩ := Map.stored_of_personEntry (h 0 (Nat.succ_pos _))
    have hbyte : g.byte? (a + (24 * k).toUInt32) = some p.localId :=
      congrArg Except.toOption hlocalId
    have hhalf : g.half? (a + (24 * k).toUInt32 + 20) = some p.flag :=
      congrArg Except.toOption hflag
    rw [List.length_cons, entryFlag?, hbyte, hhalf, List.find?_cons]
    by_cases hp : p.localId = localId
    · rw [if_pos (congrArg some hp), beq_iff_eq.mpr hp]
      rfl
    · rw [if_neg fun h => hp (Option.some.inj h), beq_eq_false_iff_ne.mpr hp]
      refine ih fun j hj => ?_
      rw [Nat.add_assoc, Nat.add_comm 1 j]
      exact h (j + 1) (Nat.succ_lt_succ hj)

/-- How far the entry with the number of a byte lies behind the start of a table of words. -/
theorem four_mul_toUInt32 (n : UInt8) : (4 * n.toNat).toUInt32 = 4 * n.toUInt32 := by
  apply UInt32.toNat_inj.mp
  simp

/-- **Through the bank table** the flag is that of the first person with the local id on the map that
is listed there. -/
theorem personFlag?_of_storedAt {bank map : UInt8} {start header : UInt32}
    (hstart : m.readU32 (World.bankEntry layout bank.toNat) = .ok start)
    (hheader : m.readU32 (start + (4 * map.toNat).toUInt32) = .ok header)
    (hx : Map.StoredAt m layout header x) (localId : UInt8) :
    (LiveGame.mk m layout).personFlag? bank map localId =
      (x.persons.find? (·.localId == localId)).map (·.flag) := by
  obtain ⟨events, hevents, ⟨⟨count, list, hcount, hlist, htable⟩, -, -, -⟩⟩ := hx.events
  obtain ⟨hsize, hentries⟩ := Map.collect_eq_ok_iff.mp htable
  rw [World.bankEntry, four_mul_toUInt32] at hstart
  rw [four_mul_toUInt32] at hheader
  simp only [personFlag?, word?, byte?, hstart, hheader, hevents, hcount, hlist, Except.toOption,
    Option.bind_eq_bind, Option.bind_some]
  rw [← hsize, ← Array.find?_toList, ← Array.length_toList]
  refine entryFlag?_eq ⟨m, layout⟩ localId fun j hj => ?_
  rw [Nat.zero_add]
  exact hentries j hj

end LiveGame

/-! ## The maps of a decoded world -/

/-- A byte is not that of a number below its own. -/
theorem toUInt8_ne_of_lt {i : Nat} {n : UInt8} (h : i < n.toNat) : i.toUInt8 ≠ n := by
  rintro rfl
  exact Nat.not_lt.mpr (Nat.mod_le i 256) h

namespace World

/-- The first map of a decoded world with an id is the one that is found under it.  In a bank of more
than 256 maps ids come again, but only behind the map that is found. -/
theorem find?_maps (h : decode m layout = .ok w) (hx : w.map? id = some x) :
    w.maps.find? (·.id == id) = some x := by
  obtain ⟨bank, hbank, hmap⟩ := Option.bind_eq_some_iff.mp hx
  have hid := keyed_of_decode h id x hx
  obtain ⟨hb, rfl⟩ := Array.getElem?_eq_some_iff.mp hbank
  obtain ⟨hn, rfl⟩ := Array.getElem?_eq_some_iff.mp hmap
  rw [maps, List.find?_flatten, List.findSome?_map, List.findSome?_eq_some_iff]
  refine ⟨w.banks.toList.take id.bank.toNat, w.banks[id.bank.toNat],
    w.banks.toList.drop (id.bank.toNat + 1), ?_, ?_, fun bank hbank => ?_⟩
  · rw [← Array.getElem_toList, ← List.drop_eq_getElem_cons, List.take_append_drop]
  · refine List.find?_eq_some_iff_getElem.mpr ⟨beq_iff_eq.mpr hid, id.map.toNat, hn, rfl, ?_⟩
    intro n hlt
    have hother := id_of_listed h hbank (n := n) (Array.getElem?_eq_getElem (by omega))
    rw [Bool.not_eq_true', beq_eq_false_iff_ne, Array.getElem_toList, hother]
    exact fun hsame => toUInt8_ne_of_lt hlt (congrArg MapId.map hsame)
  · obtain ⟨b, hlt, rfl⟩ := List.mem_take_iff_getElem.mp hbank
    rw [Function.comp_apply, List.find?_eq_none]
    intro y hy
    obtain ⟨n, hn⟩ := List.mem_iff_getElem?.mp hy
    have hother := id_of_listed h (b := b) (n := n) (Array.getElem?_eq_getElem (by omega)) (by
      rw [← Array.getElem?_toList]
      exact hn)
    rw [Bool.not_eq_true, beq_eq_false_iff_ne, hother]
    exact fun hsame => toUInt8_ne_of_lt (by omega) (congrArg MapId.bank hsame)

end World

/-! ## Both games -/

/-- **The flag of a person** on a map of a decoded world is the same for the running game and for a
game that is given the decoded maps: that of the first person with the local id, or none without such
a person.  So hiding a person, on the script's own map or on another one, comes to the same with
either of them. -/
theorem LiveGame.personFlag?_agree {fixed : FixedGame} {bank map : UInt8}
    (hw : World.decode m layout = .ok w) (hmaps : fixed.maps = w.maps)
    (hx : w.map? ⟨bank, map⟩ = some x) :
    (∀ localId, (LiveGame.mk m layout).personFlag? bank map localId =
      (x.persons.find? (·.localId == localId)).map (·.flag)) ∧
    (∀ localId, fixed.personFlag? bank map localId =
      (x.persons.find? (·.localId == localId)).map (·.flag)) ∧
    ∀ (I : Interpreter) (mode : Mode) (i : Instruction) (c : Context),
      (c.location? = some ⟨bank, map⟩ →
        { I with game := (LiveGame.mk m layout).view }.applyEffect mode i .hidePerson c =
          { I with game := fixed.view }.applyEffect mode i .hidePerson c) ∧
      ((i.operand 1).toUInt8 = bank → (i.operand 2).toUInt8 = map →
        { I with game := (LiveGame.mk m layout).view }.applyEffect mode i .hidePersonOn c =
          { I with game := fixed.view }.applyEffect mode i .hidePersonOn c) := by
  obtain ⟨maps, hb, hn⟩ := Option.bind_eq_some_iff.mp hx
  obtain ⟨start, header, hstart, hheader, -, hstored⟩ := World.listed_of_decode hw hb hn
  have hlive := personFlag?_of_storedAt hstart hheader hstored
  have hfixed (localId : UInt8) : fixed.personFlag? bank map localId =
      (x.persons.find? (·.localId == localId)).map (·.flag) := by
    rw [FixedGame.personFlag?, hmaps, World.find?_maps hw hx]
    cases hp : x.persons.find? (·.localId == localId) <;> simp [hp]
  have hhide (I : Interpreter) (person : UInt8) (c : Context) :
      { I with game := (LiveGame.mk m layout).view }.hide bank map person c =
        { I with game := fixed.view }.hide bank map person c := by
    simp only [Interpreter.hide, view, FixedGame.view, hlive, hfixed]
  refine ⟨hlive, hfixed, fun I mode i c => ⟨fun hhere => ?_, fun hbank hmap => ?_⟩⟩
  · simp only [Interpreter.applyEffect, hhere, hhide]
  · simp only [Interpreter.applyEffect, hbank, hmap, hhide]

/-- Of the two persons of the hamlet who share a local id the first one counts, in either game. -/
theorem LiveGame.personFlag?_agree_hamlet :
    ∃ w x, World.decode World.hamlet World.hamletLayout = .ok w ∧ w.map? ⟨0, 1⟩ = some x ∧
      (x.persons.find? (·.localId == 2)).map (·.flag) = some 0x20 ∧
      (LiveGame.mk World.hamlet World.hamletLayout).personFlag? 0 1 2 = some 0x20 ∧
      (FixedGame.mk #[] #[] [] 0 1 w.maps).personFlag? 0 1 2 = some 0x20 := by
  obtain ⟨w, x, hw, hx⟩ := World.exists_decode_hamlet
  have hmaps : (FixedGame.mk #[] #[] [] 0 1 w.maps).maps = w.maps := rfl
  obtain ⟨hlive, hfixed, -⟩ := personFlag?_agree hw hmaps hx
  have hflag : (LiveGame.mk World.hamlet World.hamletLayout).personFlag? 0 1 2 = some 0x20 := by
    decide +kernel
  have hfirst : (x.persons.find? (·.localId == 2)).map (·.flag) = some 0x20 :=
    (hlive 2).symm.trans hflag
  exact ⟨w, x, hw, hx, hfirst, hflag, (hfixed 2).trans hfirst⟩

end Cartridge