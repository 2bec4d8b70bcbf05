import Cartridge.Numeral

/-!
# Template — print templates with numbered placeholders

A placeholder starts with `%` and ends with the next `x` or `d`.  Placeholders take the values in
order; one without a value prints as `?`, values without a placeholder are dropped.
-/

namespace Cartridge.Template

/-- Splits after the first `x` or `d`; a text without one is all placeholder. -/
def splitDirective : List Char → List Char × List Char
  | [] => ([], [])
  | c :: cs =>
    if c = 'x' ∨ c = 'd' then ([c], cs)
    else
      let (directive, rest) := splitDirective cs
      (c :: directive, rest)

theorem splitDirective_append (cs : List Char) :
    (splitDirective cs).1 ++ (splitDirective cs).2 = cs := by
  induction cs with
  | nil => rfl
  | cons c cs ih =>
    by_cases h : c = 'x' ∨ c = 'd'
    · simp [splitDirective, h]
    · simp [splitDirective, h, ih]

theorem length_splitDirective_le (cs : List Char) :
    (splitDirective cs).2.length ≤ cs.length := by
  have h := congrArg List.length (splitDirective_append cs)
  rw [List.length_append] at h
  omega

/-- A value in the form its placeholder asks for; a form that is not known prints plain digits. -/
def render (directive : List Char) (value : UInt32) : String :=
  if directive = ['#', 'x'] then hex value.toNat
  else if directive = ['d'] then toString value.toNat
  else if directive = ['0', '8', 'x'] then hexPadded 8 value.toNat
  else if directive = ['0', '2', 'x'] then hexPadded 2 value.toNat
  else hexDigits value.toNat

/-- The template with its placeholders replaced. -/
def expandChars : List Char → List UInt32 → List Char
  | [], _ => []
  | c :: cs, values =>
    if c = '%' then
      match values with
      | [] => '?' :: expandChars (splitDirective cs).2 []
      | value :: rest =>
        (render (splitDirective cs).1 value).toList ++ expandChars (splitDirective cs).2 rest
    else c :: expandChars cs values
termination_by cs => cs.length
decreasing_by
  all_goals
    have := length_splitDirective_le cs
    simp only [List.length_cons]
    omega

/-- The text of a template for some values. -/
def expand (template : String) (values : List UInt32) : String :=
  String.ofList (expandChars template.toList values)

end Cartridge.Template
