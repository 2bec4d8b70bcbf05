import Cartridge.Proofs.Script.Turns
import Cartridge.Script.Cache
import Mathlib.Data.Finset.Card
import Mathlib.Data.List.Infix

/-!
# Memo — a script cache answers as if it were empty

What a cache keeps under a key is what exploring some script of that key has given
(`ScriptCache.Faithful`), and scripts of one key differ only in the map of a standard script
(`ScriptKey.explore_alike`).  So whatever has been asked for before, every answer is that of an
empty cache, and the cache keeps one script for every key that was granted
(`ScriptCache.transparent_after`).
-/

namespace Cartridge

namespace ScriptEntity

/-- The same script; a standard script may have been asked for on another map. -/
def Alike (e e' : ScriptEntity) : Prop :=
  e = { e' with home := e.home } ∧ (e.kind ≠ .standard → e.home = e'.home)

theorem Alike.refl (e : ScriptEntity) : e.Alike e :=
  ⟨rfl, fun _ => rfl⟩

variable {I : Interpreter} {address : UInt32} {kind : ScriptKind} {index : Nat} {home : MapId}
  {localId? : Option UInt8} {e : ScriptEntity}

/-- What an entity keeps of its exploration. -/
theorem explore_eq_ok (h : explore I address kind index home localId? = .ok e) :
    I.explore (initial address kind home localId?) = .ok e.explored ∧
      e.address = address ∧ e.kind = kind ∧ e.home = home := by
  unfold explore at h
  split at h
  · cases h
  · next explored hexplored =>
    cases h
    exact ⟨hexplored, rfl, rfl, rfl⟩

theorem exists_entity (index : Nat) {M : List Context}
    (h : I.explore (initial address kind home localId?) = .ok M) :
    ∃ e, explore I address kind index home localId? = .ok e ∧ e.explored = M := by
  unfold explore
  rw [h]
  exact ⟨_, rfl, rfl⟩

/-- Exploring a standard script only notes the map. -/
theorem explore_standard (I : Interpreter) (address : UInt32) (index : Nat) (home home' : MapId)
    (localId? : Option UInt8) : explore I address .standard index home localId? =
      (explore I address .standard index home' localId?).map ({ · with home := home }) := by
  have hinitial : initial address .standard home localId? =
      initial address .standard home' localId? := rfl
  rw [explore, explore, hinitial]
  cases I.explore (initial address .standard home' localId?) <;> rfl

end ScriptEntity

variable {w : World} {I : Interpreter} {k k' : ScriptKey}

namespace ScriptKey

/-- What exploring the script of a key gives. -/
def explore (k : ScriptKey) (w : World) (I : Interpreter) : Except ScriptError ScriptEntity :=
  match k.locate? w I.game with
  | none => .error (.noSuchScript k.kind k.index k.home)
  | some (address, localId?) =>
    ScriptEntity.explore I address k.kind k.index k.home localId?

theorem explore_standard_alike {index : Nat} {home : MapId} {e : ScriptEntity}
    (h : explore ⟨.standard, index, home⟩ w I = .ok e) (home' : MapId) :
    ∃ e', explore ⟨.standard, index, home'⟩ w I = .ok e' ∧ e.Alike e' := by
  have hlocate : locate? ⟨.standard, index, home'⟩ w I.game =
      locate? ⟨.standard, index, home⟩ w I.game := rfl
  unfold explore at h ⊢
  rw [hlocate]
  cases hfound : locate? ⟨.standard, index, home⟩ w I.game with
  | none => rw [hfound] at h; cases h
  | some found =>
    obtain ⟨address, localId?⟩ := found
    rw [hfound] at h
    dsimp only at h ⊢
    rw [ScriptEntity.explore_standard I address index home home' localId?] at h
    cases hexplored : ScriptEntity.explore I address .standard index home' localId? with
    | error err => rw [hexplored] at h; cases h
    | ok e' =>
      rw [hexplored] at h
      cases h
      obtain ⟨-, -, hkind, -⟩ := ScriptEntity.explore_eq_ok hexplored
      exact ⟨e', rfl, rfl, fun hne => absurd hkind hne⟩

theorem canonical_of_ne (h : k.kind ≠ .standard) : k.canonical = k :=
  if_neg h

@[simp] theorem kind_canonical (k : ScriptKey) : k.canonical.kind = k.kind := by
  unfold canonical
  split <;> rfl

@[simp] theorem index_canonical (k : ScriptKey) : k.canonical.index = k.index := by
  unfold canonical
  split <;> rfl

/-- **Scripts kept under one key are alike.** -/
theorem explore_alike (hk : k.canonical = k'.canonical) {e : ScriptEntity}
    (h : k.explore w I = .ok e) : ∃ e', k'.explore w I = .ok e' ∧ e.Alike e' := by
  have hkind : k.kind = k'.kind := by rw [← kind_canonical k, hk, kind_canonical]
  by_cases hstandard : k.kind = .standard
  · have hindex : k.index = k'.index := by rw [← index_canonical k, hk, index_canonical]
    obtain ⟨kind, index, home⟩ := k
    obtain ⟨kind', index', home'⟩ := k'
    obtain rfl : kind = .standard := hstandard
    obtain rfl : .standard = kind' := hkind
    obtain rfl : index = index' := hindex
    exact explore_standard_alike h home'
  · rw [canonical_of_ne hstandard, canonical_of_ne (hkind ▸ hstandard)] at hk
    exact ⟨e, hk ▸ h, .refl e⟩

end ScriptKey

namespace ScriptCache

variable {cache : ScriptCache}

/-! ## One request -/

/-- The same error, or the same script. -/
inductive Agree : Except ScriptError ScriptEntity → Except ScriptError ScriptEntity → Prop where
  | error (err : ScriptError) : Agree (.error err) (.error err)
  | ok {e e' : ScriptEntity} (alike : e.Alike e') : Agree (.ok e) (.ok e')

theorem Agree.refl : ∀ answer, Agree answer answer
  | .error err => .error err
  | .ok e => .ok (.refl e)

/-- A request is answered from the cache, or else by exploring the script; only a script that was
explored is added. -/
theorem get_eq (cache : ScriptCache) (w : World) (I : Interpreter) (k : ScriptKey) :
    cache.get w I k =
      match cache.find? k.canonical with
      | some e => (.ok e, cache)
      | none =>
        match k.explore w I with
        | .error err => (.error err, cache)
        | .ok e => (.ok e, ⟨cache.entries ++ [(k.canonical, e)]⟩) := by
  rw [get, ScriptKey.explore]
  cases cache.find? k.canonical with
  | some e => rfl
  | none =>
    cases k.locate? w I.game with
    | none => rfl
    | some found =>
      obtain ⟨address, localId?⟩ := found
      rfl

theorem get_empty (w : World) (I : Interpreter) (k : ScriptKey) :
    (empty.get w I k).1 = k.explore w I := by
  have hnone : empty.find? k.canonical = none := rfl
  rw [get_eq, hnone]
  dsimp only
  cases k.explore w I <;> rfl

/-- The keys under which scripts are kept. -/
def keys (cache : ScriptCache) : List ScriptKey :=
  cache.entries.map (·.1)

theorem find?_eq_none_iff : cache.find? k = none ↔ k ∉ cache.keys := by
  rw [find?, Option.map_eq_none_iff, List.find?_eq_none, keys, List.mem_map]
  constructor
  · rintro h ⟨p, hp, rfl⟩
    exact h p hp (beq_self_eq_true _)
  · exact fun h p hp hk => h ⟨p, hp, beq_iff_eq.mp hk⟩

theorem mem_of_find? {e : ScriptEntity} (h : cache.find? k = some e) : (k, e) ∈ cache.entries := by
  obtain ⟨⟨k', e'⟩, hfound, rfl⟩ := Option.map_eq_some_iff.mp h
  obtain rfl : k' = k := by simpa using List.find?_some hfound
  exact List.mem_of_find?_eq_some hfound

/-- The three ways in which a request is answered. -/
inductive Answered (w : World) (I : Interpreter) (k : ScriptKey) (cache : ScriptCache) :
    Except ScriptError ScriptEntity × ScriptCache → Prop where
  /-- The script is kept already. -/
  | kept {e : ScriptEntity} (there : (k.canonical, e) ∈ cache.entries) :
    Answered w I k cache (.ok e, cache)
  /-- The script cannot be found or explored. -/
  | failed {err : ScriptError} (missing : k.canonical ∉ cache.keys)
    (fails : k.explore w I = .error err) : Answered w I k cache (.error err, cache)
  /-- The script is explored, and kept from now on. -/
  | explored {e : ScriptEntity} (missing : k.canonical ∉ cache.keys)
    (found : k.explore w I = .ok e) :
    Answered w I k cache (.ok e, ⟨cache.entries ++ [(k.canonical, e)]⟩)

theorem answered_get (cache : ScriptCache) (w : World) (I : Interpreter) (k : ScriptKey) :
    Answered w I k cache (cache.get w I k) := by
  rw [get_eq]
  cases hfind : cache.find? k.canonical with
  | some e => exact .kept (mem_of_find? hfind)
  | none =>
    have hmissing := find?_eq_none_iff.mp hfind
    dsimp only
    cases hexplore : k.explore w I with
    | error err => exact .failed hmissing hexplore
    | ok e => exact .explored hmissing hexplore

/-- Whether talking to someone heals the party, by what is known of the script. -/
def heals : Except ScriptError ScriptEntity → Bool
  | .ok e => e.produces (.special healRoutine)
  | .error _ => false

theorem heals_eq_of_agree {answer answer' : Except ScriptError ScriptEntity}
    (h : Agree answer answer') : heals answer = heals answer' := by
  cases h with
  | error => rfl
  | ok alike =>
    rw [heals, heals, alike.1]
    rfl

theorem isHealer_eq (cache : ScriptCache) (w : World) (I : Interpreter) (home : MapId)
    (index : Nat) : cache.isHealer w I home index =
      (heals (cache.get w I ⟨.person, index, home⟩).1,
        (cache.get w I ⟨.person, index, home⟩).2) := by
  rw [isHealer]
  rcases cache.get w I ⟨.person, index, home⟩ with ⟨_ | _, _⟩ <;> rfl

/-! ## What a cache keeps -/

/-- Every script is kept under one key, and is what exploring some script of this key gives. -/
structure Faithful (w : World) (I : Interpreter) (cache : ScriptCache) : Prop where
  nodup : cache.keys.Nodup
  explored : ∀ p ∈ cache.entries, ∃ k : ScriptKey, k.canonical = p.1 ∧ k.explore w I = .ok p.2

theorem faithful_empty (w : World) (I : Interpreter) : empty.Faithful w I :=
  ⟨List.nodup_nil, fun _ hp => absurd hp List.not_mem_nil⟩

theorem Faithful.get (h : cache.Faithful w I) (k : ScriptKey) :
    (cache.get w I k).2.Faithful w I := by
  have hanswered := answered_get cache w I k
  generalize cache.get w I k = answer at hanswered ⊢
  cases hanswered with
  | kept | failed => exact h
  | @explored e missing found =>
    refine ⟨?_, fun p hp => ?_⟩
    · rw [keys, List.map_append]
      exact List.nodup_append'.mpr ⟨h.nodup, List.nodup_singleton _,
        List.disjoint_singleton.mpr missing⟩
    · rcases List.mem_append.mp hp with hp | hp
      · exact h.explored p hp
      · obtain rfl := List.mem_singleton.mp hp
        exact ⟨k, rfl, found⟩

/-- A faithful cache answers as an empty one. -/
theorem Faithful.agree (h : cache.Faithful w I) (k : ScriptKey) :
    Agree (cache.get w I k).1 (empty.get w I k).1 := by
  rw [get_empty]
  have hanswered := answered_get cache w I k
  generalize cache.get w I k = answer at hanswered ⊢
  cases hanswered with
  | @kept e there =>
    obtain ⟨k', hk', he⟩ := h.explored _ there
    obtain ⟨e', he', halike⟩ := ScriptKey.explore_alike hk' he
    rw [he']
    exact .ok halike
  | failed _ fails => rw [fails]; exact .error _
  | explored _ found => rw [found]; exact .refl _

/-! ## Requests one after another -/

/-- What is asked of a cache, or told to it. -/
inductive Request where
  | get (k : ScriptKey)
  | isHealer (home : MapId) (index : Nat)
  /-- Forget all scripts. -/
  | clear
deriving DecidableEq

/-- The script that a request asks for. -/
def Request.key? : Request → Option ScriptKey
  | get k => some k
  | isHealer home index => some ⟨.person, index, home⟩
  | clear => none

/-- What becomes of a cache. -/
def perform (w : World) (I : Interpreter) (cache : ScriptCache) : Request → ScriptCache
  | .get k => (cache.get w I k).2
  | .isHealer home index => (cache.isHealer w I home index).2
  | .clear => empty

/-- A cache that was empty at first, after requests; the last one stands first. -/
def after (w : World) (I : Interpreter) : List Request → ScriptCache
  | [] => empty
  | r :: past => (after w I past).perform w I r

/-- The keys of the scripts that were asked for successfully since the cache was last cleared. -/
def granted (w : World) (I : Interpreter) : List Request → Finset ScriptKey
  | [] => ∅
  | r :: past =>
    match r.key? with
    | none => ∅
    | some k =>
      match ((after w I past).get w I k).1 with
      | .ok _ => insert k.canonical (granted w I past)
      | .error _ => granted w I past

/-- A request for a script does to the cache what getting the script does. -/
theorem perform_eq_get {r : Request} (hr : r.key? = some k) (cache : ScriptCache) (w : World)
    (I : Interpreter) : cache.perform w I r = (cache.get w I k).2 := by
  cases r with
  | get => cases hr; rfl
  | isHealer =>
    cases hr
    rw [perform, isHealer_eq]
  | clear => cases hr

theorem perform_of_key_none {r : Request} (hr : r.key? = none) (cache : ScriptCache) (w : World)
    (I : Interpreter) : cache.perform w I r = empty := by
  cases r with
  | get | isHealer => cases hr
  | clear => rfl

theorem Faithful.perform (h : cache.Faithful w I) (r : Request) :
    (cache.perform w I r).Faithful w I := by
  cases hr : r.key? with
  | some k =>
    rw [perform_eq_get hr]
    exact h.get k
  | none =>
    rw [perform_of_key_none hr]
    exact faithful_empty w I

theorem faithful_after (w : World) (I : Interpreter) (past : List Request) :
    (after w I past).Faithful w I := by
  induction past with
  | nil => exact faithful_empty w I
  | cons r past ih => exact ih.perform r

/-- Getting a script keeps all scripts that were there. -/
theorem entries_prefix_get (cache : ScriptCache) (w : World) (I : Interpreter) (k : ScriptKey) :
    cache.entries <+: (cache.get w I k).2.entries := by
  have hanswered := answered_get cache w I k
  generalize cache.get w I k = answer at hanswered ⊢
  cases hanswered with
  | kept | failed => exact List.prefix_rfl
  | explored => exact List.prefix_append _ _

/-- Until the cache is cleared, the scripts that it keeps do not change. -/
theorem entries_prefix_after (past : List Request) {later : List Request}
    (hlater : ∀ r ∈ later, r ≠ .clear) :
    (after w I past).entries <+: (after w I (later ++ past)).entries := by
  induction later with
  | nil => exact List.prefix_rfl
  | cons r later ih =>
    obtain ⟨hr, hlater⟩ := List.forall_mem_cons.mp hlater
    refine (ih hlater).trans ?_
    obtain ⟨k, hk⟩ : ∃ k, r.key? = some k := by
      cases r with
      | get k => exact ⟨k, rfl⟩
      | isHealer home index => exact ⟨_, rfl⟩
      | clear => exact absurd rfl hr
    rw [List.cons_append, after, perform_eq_get hk]
    exact entries_prefix_get _ w I k

/-- The keys of a cache that was asked for a script. -/
theorem toFinset_keys_get (cache : ScriptCache) (w : World) (I : Interpreter) (k : ScriptKey) :
    (cache.get w I k).2.keys.toFinset =
      match (cache.get w I k).1 with
      | .ok _ => insert k.canonical cache.keys.toFinset
      | .error _ => cache.keys.toFinset := by
  have hanswered := answered_get cache w I k
  generalize cache.get w I k = answer at hanswered ⊢
  cases hanswered with
  | @kept e there =>
    have hkey : k.canonical ∈ cache.keys.toFinset :=
      List.mem_toFinset.mpr (List.mem_map.mpr ⟨_, there, rfl⟩)
    exact (Finset.insert_eq_self.mpr hkey).symm
  | failed => rfl
  | explored =>
    ext k'
    simp [keys]

/-- **A cache keeps one script for every key that was granted.** -/
theorem toFinset_keys_after (w : World) (I : Interpreter) (past : List Request) :
    (after w I past).keys.toFinset = granted w I past := by
  induction past with
  | nil => rfl
  | cons r past ih =>
    rw [after, granted]
    cases hr : r.key? with
    | none =>
      rw [perform_of_key_none hr]
      rfl
    | some k =>
      rw [perform_eq_get hr, toFinset_keys_get, ih]

/-- **A script cache is transparent.**  Whatever was asked before, it answers as an empty one; a
script that cannot be had leaves it as it is; the scripts that it keeps stay as they are until it is
cleared; and it keeps as many as different ones were asked for successfully since then. -/
theorem transparent_after (w : World) (I : Interpreter) (past : List Request) :
    (∀ k, Agree ((after w I past).get w I k).1 (empty.get w I k).1) ∧
    (∀ home index,
      ((after w I past).isHealer w I home index).1 = (empty.isHealer w I home index).1) ∧
    (∀ k err, ((after w I past).get w I k).1 = .error err →
      ((after w I past).get w I k).2 = after w I past) ∧
    (∀ later : List Request, (∀ r ∈ later, r ≠ .clear) →
      (after w I past).entries <+: (after w I (later ++ past)).entries) ∧
    (after w I past).size = (granted w I past).card := by
  have hfaithful := faithful_after w I past
  refine ⟨hfaithful.agree, fun home index => ?healer, fun k err herr => ?failed,
    fun later => entries_prefix_after past, ?size⟩
  case healer =>
    rw [isHealer_eq, isHealer_eq]
    exact heals_eq_of_agree (hfaithful.agree _)
  case failed =>
    have hanswered := answered_get (after w I past) w I k
    generalize (after w I past).get w I k = answer at hanswered herr ⊢
    cases hanswered with
    | kept | explored => cases herr
    | failed => rfl
  case size =>
    rw [← toFinset_keys_after, List.toFinset_card_of_nodup hfaithful.nodup, keys, List.length_map]
    rfl

/-- A cartridge with one script, which heals and is standard script 0. -/
def healingScript : Interpreter :=
  { Interpreter.ofScript #[0x25, 0, 0, 0x02] with
    game := { standardScript? := fun i => if i = 0 then some Memory.cartridgeBase else none } }

/-- The standard script can be explored for any map. -/
theorem explore_healingScript (home : MapId) :
    ∃ e, ScriptKey.explore ⟨.standard, 0, home⟩ .empty healingScript = .ok e := by
  have hturns : ((healingScript.turn .explore)^[3]
      (.start (.blank Memory.cartridgeBase))).opened = [] := by
    decide +kernel
  have hrun := Interpreter.run_eq_endedBy 3 hturns (by decide) (by decide)
  have hlocate : ScriptKey.locate? ⟨.standard, 0, home⟩ .empty healingScript.game =
      some (Memory.cartridgeBase, none) := rfl
  have hinitial : ScriptEntity.initial Memory.cartridgeBase .standard home none =
      .blank Memory.cartridgeBase := rfl
  rw [← hinitial] at hrun
  obtain ⟨e, he, -⟩ := ScriptEntity.exists_entity 0 hrun
  rw [ScriptKey.explore, hlocate]
  exact ⟨e, he⟩

/-- The standard script, asked for on a map that does not exist. -/
def elsewhere : List Request :=
  [.get ⟨.standard, 0, ⟨5, 0⟩⟩]

/-- The same script asked for on another one, and someone who is not there. -/
def thenHere : List Request :=
  [.isHealer ⟨0, 0⟩ 0, .get ⟨.standard, 0, ⟨0, 0⟩⟩]

theorem transparent_after_elsewhere :
    (∀ r ∈ thenHere, r ≠ .clear) ∧
    (after .empty healingScript elsewhere).size = 1 ∧
    (after .empty healingScript elsewhere).entries <+:
      (after .empty healingScript (thenHere ++ elsewhere)).entries := by
  have hkept : ∀ r ∈ thenHere, r ≠ .clear := by decide
  obtain ⟨-, -, -, hprefix, hsize⟩ := transparent_after .empty healingScript elsewhere
  obtain ⟨e, he⟩ := explore_healingScript ⟨5, 0⟩
  refine ⟨hkept, ?_, hprefix thenHere hkept⟩
  have hanswer : ((after .empty healingScript []).get .empty healingScript
      ⟨.standard, 0, ⟨5, 0⟩⟩).1 = .ok e := (get_empty _ _ _).trans he
  rw [hsize, elsewhere, granted, Request.key?]
  dsimp only
  rw [hanswer]
  rfl

end ScriptCache

end Cartridge
