import CalcLength.Sixtieths
import CalcLength.Probe

namespace CalcLength

/-- The operations that a layout engine offers. -/
inductive Callback
  | create
  | append
  | insert
  | remove
  | size
deriving DecidableEq, Repr

/-- A computation on the engine's state that one failing callback ends. What was done
before the failure stays done. -/
abbrev Action (σ : Type) := ExceptT Callback (StateM σ)

/-- A layout engine with states `σ` and elements `ν`. -/
structure Engine (σ ν : Type) where
  /-- Creates an element of a name and a shape, outside of any tree. -/
  create : String → ProbeShape → Action σ ν
  /-- Puts the second element behind the children of the first. -/
  append : ν → ν → Action σ Unit
  /-- Puts the second element before the children of the first. -/
  insertFirst : ν → ν → Action σ Unit
  /-- Takes the second element from the children of the first. -/
  remove : ν → ν → Action σ Unit
  /-- The size that an element is laid out with. -/
  size : ν → Action σ Extent

end CalcLength
