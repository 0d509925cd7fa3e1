import CalcLength.Document.Layout
import CalcLength.Engine

namespace CalcLength

/-- A callback that fails from some call on: so many of its calls succeed before. -/
structure Failure where
  callback : Callback
  allowed : Nat
deriving DecidableEq, Repr

/-- A call that an engine has begun to carry out. -/
inductive EngineCall
  | create (node : Nat) (name : String) (shape : ProbeShape)
  | append (parent child : Nat)
  | insert (parent child : Nat)
  | remove (parent child : Nat)
  | size (node : Nat) (extent : Extent)
deriving DecidableEq

def EngineCall.text : EngineCall → String
  | create node name shape => "create " ++ toString node ++ " " ++ name ++ " " ++ shape.css
  | append parent child => "append " ++ toString parent ++ " " ++ toString child
  | insert parent child => "insert " ++ toString parent ++ " " ++ toString child
  | remove parent child => "remove " ++ toString parent ++ " " ++ toString child
  | size node extent =>
    "size " ++ toString node ++ " " ++ toString extent.width.count.toInt ++ " " ++
      toString extent.height.count.toInt

/-- A document that lays itself out, keeps a record of what it is asked, and can be told to fail. -/
structure Browser where
  document : Document
  metrics : Metrics
  failure : Option Failure := none
  /-- The calls that did not fail, in order. -/
  calls : List EngineCall := []
  /-- How often a size was asked for, whether or not the call failed. -/
  queries : Nat := 0
deriving DecidableEq

namespace Browser

def ofMetrics (metrics : Metrics) : Browser :=
  { document := .ofRoot metrics.viewport, metrics }

/-- Lets a callback begin, unless it is to fail now. -/
def permit (callback : Callback) : Action Browser Unit := fun browser =>
  match browser.failure with
  | some failure =>
    if failure.callback = callback then
      match failure.allowed with
      | 0 => (.error callback, browser)
      | allowed + 1 => (.ok (), { browser with failure := some { failure with allowed } })
    else (.ok (), browser)
  | none => (.ok (), browser)

/-- Carries a call out: records it and changes the document. -/
def carryOut (call : EngineCall) (change : Document → Document) :
    Action Browser Unit := fun browser =>
  (.ok (), { browser with calls := browser.calls ++ [call], document := change browser.document })

def create (name : String) (shape : ProbeShape) : Action Browser Nat := do
  permit .create
  let node := (← get).document.next
  carryOut (.create node name shape) fun document => document.create name (some shape) ⟨0, 0⟩
  return node

def append (parent child : Nat) : Action Browser Unit := do
  permit .append
  carryOut (.append parent child) fun document => document.append parent child

def insertFirst (parent child : Nat) : Action Browser Unit := do
  permit .insert
  carryOut (.insert parent child) fun document => document.insertFirst parent child

def remove (parent child : Nat) : Action Browser Unit := do
  permit .remove
  carryOut (.remove parent child) fun document => document.remove parent child

def size (node : Nat) : Action Browser Extent := do
  modify fun browser => { browser with queries := browser.queries + 1 }
  permit .size
  let browser ← get
  let extent := browser.document.extent browser.metrics node
  carryOut (.size node extent) id
  return extent

def engine : Engine Browser Nat :=
  { create, append, insertFirst, remove, size }

end Browser

end CalcLength
