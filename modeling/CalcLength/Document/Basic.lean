import CalcLength.Probe

namespace CalcLength

/-- A width and a height in pixels. -/
structure PixelSize where
  width : Float
  height : Float
deriving DecidableEq

/-- An element of a document. A probe has a shape, which decides its size; any other
element has a size of its own. -/
structure Element where
  name : String
  shape : Option ProbeShape
  size : PixelSize
  parent : Option Nat
  children : List Nat
deriving DecidableEq

/-- The elements of a document in the order of their creation, which numbers them. Some of them may
stand outside the tree of element 0. -/
structure Document where
  elements : Array Element
deriving DecidableEq

namespace Document

/-- A document of nothing but its root. -/
def ofRoot (size : PixelSize) : Document :=
  ⟨#[⟨"html", none, size, none, []⟩]⟩

def parent? (document : Document) (node : Nat) : Option Nat :=
  document.elements[node]?.bind Element.parent

def children (document : Document) (node : Nat) : List Nat :=
  (document.elements[node]?.map Element.children).getD []

def modify (document : Document) (node : Nat) (change : Element → Element) : Document :=
  ⟨document.elements.modify node change⟩

/-- The number of the next new element. -/
def next (document : Document) : Nat :=
  document.elements.size

/-- A new element outside of any tree. -/
def create (document : Document) (name : String) (shape : Option ProbeShape)
    (size : PixelSize) : Document :=
  ⟨document.elements.push ⟨name, shape, size, none, []⟩⟩

/-- Puts an element behind the children of another. It is not taken from where it stands already. -/
def append (document : Document) (parent child : Nat) : Document :=
  (document.modify parent fun element =>
      { element with children := element.children ++ [child] }).modify child
    fun element => { element with parent := some parent }

/-- Puts an element before the children of another. -/
def insertFirst (document : Document) (parent child : Nat) : Document :=
  (document.modify parent fun element =>
      { element with children := child :: element.children }).modify child
    fun element => { element with parent := some parent }

/-- Takes an element from the children of another, wherever among them it stands. -/
def remove (document : Document) (parent child : Nat) : Document :=
  (document.modify parent fun element =>
      { element with children := element.children.filter (· ≠ child) }).modify child
    fun element => { element with parent := none }

/-- Takes an element from its parent, if it has one. -/
def detach (document : Document) (node : Nat) : Document :=
  match document.parent? node with
  | some parent => document.remove parent node
  | none => document

def resize (document : Document) (node : Nat) (size : PixelSize) : Document :=
  document.modify node fun element => { element with size }

/-- Whether the root is reached from an element by so many steps to the parent. -/
def reachesRoot (document : Document) : Nat → Nat → Bool
  | _, 0 => true
  | 0, _ => false
  | steps + 1, node =>
    match document.parent? node with
    | some parent => document.reachesRoot steps parent
    | none => false

/-- Whether an element stands in the tree of the root. No path to the root has more
steps than there are elements. -/
def isConnected (document : Document) (node : Nat) : Bool :=
  document.reachesRoot document.elements.size node

/-- An element with its children, as deep as given. -/
def textFrom (document : Document) : Nat → Nat → String
  | 0, _ => ""
  | depth + 1, node =>
    match document.elements[node]? with
    | none => ""
    | some element =>
      let below := element.children.map (document.textFrom depth)
      let brackets := if below.isEmpty then "" else "[" ++ ",".intercalate below ++ "]"
      element.name ++ "#" ++ toString node ++ brackets

/-- The tree of the root. -/
def text (document : Document) : String :=
  document.textFrom document.elements.size 0

end Document

end CalcLength
