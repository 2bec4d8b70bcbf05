import Cartridge.Settings.Section
import Cartridge.Toml.Document

/-!
# Settings.ofToml? — settings from a document

A section is a table, or an array that gives its settings in order.  What a document leaves out
keeps its default, and names that no section knows are passed over.  A date counts as a section
without settings.
-/

namespace Cartridge

/-- A part of a section that a value of a document can set. -/
structure Part (σ : Type) where
  name : String
  /-- The section with the part set, if the value is of the right kind and in range. -/
  assign? : Toml → σ → Option σ

namespace Part

/-- A whole number. -/
def ofSetting {σ : Type} (s : Setting σ) : Part σ where
  name := s.name
  assign?
    | .integer n, start => if 0 ≤ n ∧ n < s.bound then some (s.set start n.toNat) else none
    | _, _ => none

/-- A number of single precision; a decimal number passes through double precision. -/
def single {σ : Type} (name : String) (set : σ → Binary32 → σ) : Part σ where
  name := name
  assign?
    | .integer n, start => some (set start ⟨(Float32.ofInt n).toBits⟩)
    | .decimal d, start => some (set start (ofDecimal d))
    | _, _ => none
where
  /-- A bit pattern with its sign. -/
  signed (negative : Bool) (bits : UInt32) : Binary32 :=
    ⟨if negative then bits ||| 0x80000000 else bits⟩
  /-- The number nearest to a decimal number. -/
  ofDecimal : Decimal → Binary32
    | .finite negative digits exponent =>
      signed negative (Decimal.magnitude digits exponent).toFloat32.toBits
    | .infinite negative => signed negative 0x7F800000
    | .notANumber negative => signed negative 0x7FC00000

/-- Sets the parts that the entries of a table name. -/
def assignEntries {σ : Type} (parts : List (Part σ)) (start : σ) :
    List (String × Toml) → Option σ
  | [] => some start
  | (name, value) :: rest =>
    match parts.find? (·.name == name) with
    | none => assignEntries parts start rest
    | some part => do
      let changed ← part.assign? value start
      assignEntries parts changed rest

/-- Sets parts in their order. -/
def assignInOrder {σ : Type} (start : σ) : List (Part σ) → List Toml → Option σ
  | part :: parts, value :: values => do
    let changed ← part.assign? value start
    assignInOrder changed parts values
  | _, _ => some start

/-- Sets the parts of a section from a value. -/
def assignSection {σ : Type} (parts : List (Part σ)) (start : σ) : Toml → Option σ
  | .table _ entries => assignEntries parts start entries
  | .array items => assignInOrder start parts items
  | .tables items => assignInOrder start parts (items.reverse.map (.table .header ·))
  | .moment => some start
  | _ => none

/-- A section as a part of the settings. -/
def nested {σ τ : Type} (name : String) (parts : List (Part τ)) (get : σ → τ) (set : σ → τ → σ) :
    Part σ where
  name := name
  assign? value s := (assignSection parts (get s) value).map (set s)

end Part

/-- The parts of the walking settings. -/
def WalkSettings.parts : List (Part WalkSettings) :=
  [Part.single "walk_cost" fun s b => { s with walkCost := b },
   Part.single "grass_cost" fun s b => { s with grassCost := b },
   .ofSetting (.count "max_expansions" (·.maxExpansions) fun s n => { s with maxExpansions := n })]

/-- The sections of the settings. -/
def Settings.parts : List (Part Settings) :=
  [Part.nested "layout" (Layout.settings.map .ofSetting) (·.layout)
      fun s l => { s with layout := l },
   Part.nested "explore" (RunLimits.settings.map .ofSetting) (·.explore)
      fun s l => { s with explore := l },
   Part.nested "pathfinder" WalkSettings.parts (·.walk) fun s l => { s with walk := l },
   Part.nested "metafinder" (RouteSettings.settings.map .ofSetting) (·.route)
      fun s l => { s with route := l }]

/-- The settings that a document describes; nothing if it is not well formed or a setting does not
fit. -/
def Settings.ofToml? (source : String) : Option Settings := do
  let document ← Toml.parse? source
  Part.assignEntries Settings.parts {} document.entries

end Cartridge
