namespace CalcLength

/-- The direction in which a percentage is measured. -/
inductive Axis
  | horizontal
  | vertical
deriving DecidableEq, Repr

/-- The units whose size depends on the container a length stands in. -/
inductive RelativeUnit
  | em
  | ex
  | ch
  | rem
  | vh
  | vw
  | vmin
  | vmax
deriving DecidableEq, Repr

/-- The units with one size everywhere. -/
inductive PhysicalUnit
  | mm
  | cm
  | inch
  | pt
deriving DecidableEq, Repr

/-- What may stand directly behind a number to make it a length. -/
inductive Suffix
  | relative (unit : RelativeUnit)
  | physical (unit : PhysicalUnit)
  | percent
  | pixel
deriving DecidableEq, Repr

namespace Axis

def all : List Axis :=
  [horizontal, vertical]

def name : Axis → String
  | horizontal => "Horizontal"
  | vertical => "Vertical"

def ofName? (name : String) : Option Axis :=
  all.find? fun axis => axis.name = name

end Axis

namespace RelativeUnit

/-- The order in which units are measured and listed. -/
def all : List RelativeUnit :=
  [em, ex, ch, rem, vh, vw, vmin, vmax]

def letters : RelativeUnit → List Char
  | em => ['e', 'm']
  | ex => ['e', 'x']
  | ch => ['c', 'h']
  | rem => ['r', 'e', 'm']
  | vh => ['v', 'h']
  | vw => ['v', 'w']
  | vmin => ['v', 'm', 'i', 'n']
  | vmax => ['v', 'm', 'a', 'x']

def name (unit : RelativeUnit) : String :=
  String.ofList unit.letters

def ofName? (name : String) : Option RelativeUnit :=
  all.find? fun unit => unit.letters = name.toList

theorem mem_all (unit : RelativeUnit) : unit ∈ all := by
  cases unit <;> decide

theorem ofName?_name (unit : RelativeUnit) : ofName? unit.name = some unit := by
  cases unit <;> rfl

end RelativeUnit

namespace PhysicalUnit

def all : List PhysicalUnit :=
  [mm, cm, inch, pt]

def letters : PhysicalUnit → List Char
  | mm => ['m', 'm']
  | cm => ['c', 'm']
  | inch => ['i', 'n']
  | pt => ['p', 't']

def name (unit : PhysicalUnit) : String :=
  String.ofList unit.letters

def ofName? (name : String) : Option PhysicalUnit :=
  all.find? fun unit => unit.letters = name.toList

/-- An inch is 96 pixels, 25.4 millimetres and 72 points. -/
def pixels : PhysicalUnit → Float
  | mm => 96 / 25.4
  | cm => 96 / 2.54
  | inch => 96
  | pt => 96 / 72

end PhysicalUnit

namespace Suffix

def all : List Suffix :=
  RelativeUnit.all.map relative ++ PhysicalUnit.all.map physical ++ [percent, pixel]

def letters : Suffix → List Char
  | relative unit => unit.letters
  | physical unit => unit.letters
  | percent => ['%']
  | pixel => ['p', 'x']

def name (suffix : Suffix) : String :=
  String.ofList suffix.letters

/-- The suffix of exactly this name. Letter case counts. -/
def ofName? (name : String) : Option Suffix :=
  all.find? fun suffix => suffix.letters = name.toList

/-- The suffix at the head of the text, and the rest of the text. No suffix begins
another, so there is at most one. -/
def scan? (cs : List Char) : Option (Suffix × List Char) :=
  (all.find? fun suffix => suffix.letters.isPrefixOf cs).map fun suffix =>
    (suffix, cs.drop suffix.letters.length)

theorem mem_all (suffix : Suffix) : suffix ∈ all := by
  cases suffix with
  | relative unit => cases unit <;> decide
  | physical unit => cases unit <;> decide
  | percent => decide
  | pixel => decide

theorem letters_ne_nil (suffix : Suffix) : suffix.letters ≠ [] := by
  cases suffix with
  | relative unit => cases unit <;> decide
  | physical unit => cases unit <;> decide
  | percent => decide
  | pixel => decide

/-- No suffix begins another. -/
theorem eq_of_letters_isPrefix {a b : Suffix} (begins : a.letters <+: b.letters) : a = b := by
  have apart : ∀ a ∈ all, ∀ b ∈ all, a.letters.isPrefixOf b.letters = true → a = b := by decide
  exact apart a (mem_all a) b (mem_all b) (List.isPrefixOf_iff_prefix.mpr begins)

theorem scan?_eq_some {cs rest : List Char} {suffix : Suffix}
    (found : scan? cs = some (suffix, rest)) : cs = suffix.letters ++ rest := by
  simp only [scan?, Option.map_eq_some_iff, Prod.mk.injEq] at found
  obtain ⟨_, here, rfl, rfl⟩ := found
  have begins := List.find?_some (p := fun suffix : Suffix => suffix.letters.isPrefixOf cs) here
  exact (List.prefix_iff_eq_append.mp (List.isPrefixOf_iff_prefix.mp begins)).symm

end Suffix

end CalcLength
