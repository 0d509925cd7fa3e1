import CalcLength.Sixtieths
import CalcLength.Document.Basic

namespace CalcLength

/-- What layout depends on beside the document. -/
structure Metrics where
  viewport : PixelSize := ⟨1024, 768⟩
  fontSize : Float := 20
  rootFontSize : Float := 16
  /-- Whether sizes are rounded down to whole pixels. -/
  wholePixels : Bool := true
  /-- Widths that probes of a unit are reported with whatever their layout. -/
  reported : List (RelativeUnit × Sixtieths) := []
deriving DecidableEq

/-- A hundred of a unit in pixels. -/
def Metrics.hundred (metrics : Metrics) : RelativeUnit → Float
  | .em => metrics.fontSize * 100
  | .ex => metrics.fontSize * 50
  | .ch => metrics.fontSize * 50
  | .rem => metrics.rootFontSize * 100
  | .vh => metrics.viewport.height
  | .vw => metrics.viewport.width
  | .vmin => Binary64.smaller metrics.viewport.width metrics.viewport.height
  | .vmax => Binary64.larger metrics.viewport.width metrics.viewport.height

def Metrics.round (metrics : Metrics) (x : Float) : Float :=
  if metrics.wholePixels then Binary64.floor x else x

namespace Document

/-- The size of an element in a tree that is laid out. A probe that covers or fills takes the size
of its parent; so many steps to the parent are taken. -/
def layoutSize (document : Document) (metrics : Metrics) : Nat → Nat → PixelSize
  | 0, _ => ⟨0, 0⟩
  | steps + 1, node =>
    match document.elements[node]? with
    | none => ⟨0, 0⟩
    | some element =>
      match element.shape, element.parent with
      | none, _ => element.size
      | some (.wide amount unit), _ => ⟨amount * metrics.hundred unit / 100, 0⟩
      | some _, some parent => document.layoutSize metrics steps parent
      | some _, none => ⟨0, 0⟩

/-- The width reported for a probe of a unit that has one. -/
def reportedWidth? (document : Document) (metrics : Metrics) (node : Nat) : Option Sixtieths := do
  match (← document.elements[node]?).shape with
  | some (.wide _ unit) => metrics.reported.lookup unit
  | _ => none

/-- The size that is reported for an element. Outside the tree of the root nothing is laid out. -/
def extent (document : Document) (metrics : Metrics) (node : Nat) : Extent :=
  let size :=
    if document.isConnected node then document.layoutSize metrics document.elements.size node
      else ⟨0, 0⟩
  let width := Sixtieths.ofPixels (metrics.round size.width)
  { width := (document.reportedWidth? metrics node).getD width
    height := Sixtieths.ofPixels (metrics.round size.height) }

end Document

end CalcLength
