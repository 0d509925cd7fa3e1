import CalcLength.Browser
import CalcLength.Measure

namespace CalcLength

/-- New values for some of the metrics. -/
structure MetricsChange where
  viewport : Option PixelSize := none
  fontSize : Option Float := none
  rootFontSize : Option Float := none
  wholePixels : Option Bool := none
  reported : Option (List (RelativeUnit × Sixtieths)) := none

def Metrics.update (metrics : Metrics) (change : MetricsChange) : Metrics where
  viewport := change.viewport.getD metrics.viewport
  fontSize := change.fontSize.getD metrics.fontSize
  rootFontSize := change.rootFontSize.getD metrics.rootFontSize
  wholePixels := change.wholePixels.getD metrics.wholePixels
  reported := change.reported.getD metrics.reported

/-- A new viewport is also the new size of the root; without one the root keeps its size. -/
def Browser.updateMetrics (browser : Browser) (change : MetricsChange) : Browser :=
  { browser with
    metrics := browser.metrics.update change
    document :=
      match change.viewport with
      | some size => browser.document.resize 0 size
      | none => browser.document }

/-- Work on one document, with scales kept by name from one step to later ones. -/
structure Session where
  browser : Browser
  kept : List (String × Scale) := []

/-- Where a step takes its scale from. -/
inductive ScaleChoice
  | kept (name : String)
  | measured (container : Nat) (settings : ProbeSettings)

inductive Step
  | add (parent : Nat) (name : String) (size : PixelSize)
  | addDetached (name : String) (size : PixelSize)
  | detach (node : Nat)
  | attach (parent node : Nat)
  | resize (node : Nat) (size : PixelSize)
  | setMetrics (change : MetricsChange)
  | setFailure (failure : Option Failure)
  | measure (container : Nat) (settings : ProbeSettings) (keepAs : Option String)
  | compare (first second : String)
  | evaluate (choice : ScaleChoice) (axis : Axis) (text : String)
  | pixels (choice : ScaleChoice) (axis : Axis) (text : String)
  | update (choice : ScaleChoice) (update : Update) (given : Declarations)

/-- What a step comes to. -/
inductive StepResult
  | node (number : Nat)
  | done
  | scale (scale : Scale)
  | compared (same : Bool)
  | length (result : Except LengthFault String)
  | pixels (result : Except LengthFault Float)
  | updated (result : Except LengthFault Updated × Declarations)
  | failed (callback : Callback)
  | unknownName (name : String)

/-- A step's result and what could be seen while it ran. -/
structure StepReport where
  result : StepResult
  tree : String
  queries : Nat
  calls : List EngineCall
  warnings : List Warning

namespace Session

def ofMetrics (metrics : Metrics) : Session :=
  { browser := .ofMetrics metrics }

def keep (session : Session) (name : String) (scale : Scale) : Session :=
  { session with kept := (name, scale) :: session.kept }

def kept? (session : Session) (name : String) : Option Scale :=
  session.kept.lookup name

def editDocument (session : Session) (edit : Document → Document) : Session :=
  { session with browser := { session.browser with document := edit session.browser.document } }

/-- Runs a computation on the session's browser. -/
def run {α : Type} (session : Session) (computation : Measuring Browser α)
    (result : α → StepResult) : StepResult × List Warning × Session :=
  match computation { state := session.browser, warnings := [] } with
  | (.ok value, watched) =>
    (result value, watched.warnings, { session with browser := watched.state })
  | (.error callback, watched) =>
    (.failed callback, watched.warnings, { session with browser := watched.state })

def source? (session : Session) : ScaleChoice → Except StepResult (ScaleSource Nat)
  | .kept name =>
    match session.kept? name with
    | some scale => .ok (.known scale)
    | none => .error (.unknownName name)
  | .measured container settings => .ok (.container container settings)

/-- Runs a computation that needs a source of scales. -/
def runWith {α : Type} (session : Session) (choice : ScaleChoice)
    (computation : ScaleSource Nat → Measuring Browser α) (result : α → StepResult) :
    StepResult × List Warning × Session :=
  match session.source? choice with
  | .ok source => session.run (computation source) result
  | .error unknown => (unknown, [], session)

def compare (session : Session) (first second : String) : StepResult :=
  match session.kept? first, session.kept? second with
  | some a, some b => .compared (a == b)
  | none, _ => .unknownName first
  | _, none => .unknownName second

/-- The result of a step, its warnings, and the session after it. -/
def perform (session : Session) : Step → StepResult × List Warning × Session
  | .add parent name size =>
    let node := session.browser.document.next
    (.node node, [], session.editDocument fun document =>
      (document.create name none size).append parent node)
  | .addDetached name size =>
    (.node session.browser.document.next, [],
      session.editDocument fun document => document.create name none size)
  | .detach node => (.done, [], session.editDocument fun document => document.detach node)
  | .attach parent node =>
    (.done, [], session.editDocument fun document => document.append parent node)
  | .resize node size => (.done, [], session.editDocument fun document => document.resize node size)
  | .setMetrics change =>
    (.done, [], { session with browser := session.browser.updateMetrics change })
  | .setFailure failure => (.done, [], { session with browser := { session.browser with failure } })
  | .measure container settings keepAs =>
    match session.run (CalcLength.measure Browser.engine container settings) .scale, keepAs with
    | (.scale scale, warnings, session), some name =>
      (.scale scale, warnings, session.keep name scale)
    | outcome, _ => outcome
  | .compare first second => (session.compare first second, [], session)
  | .evaluate choice axis text =>
    session.runWith choice (fun source => source.evaluate Browser.engine axis text) .length
  | .pixels choice axis text =>
    session.runWith choice (fun source => source.pixels Browser.engine axis text) .pixels
  | .update choice update given =>
    session.runWith choice (fun source => source.update Browser.engine update given) .updated

/-- Performs a step and reports on it alone. -/
def step (session : Session) (step : Step) : StepReport × Session :=
  let (result, warnings, session) :=
    { session with browser := { session.browser with calls := [], queries := 0 } }.perform step
  let browser := session.browser
  ({ result, tree := browser.document.text, queries := browser.queries, calls := browser.calls,
     warnings }, session)

end Session

end CalcLength
