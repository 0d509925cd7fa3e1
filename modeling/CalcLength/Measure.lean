import CalcLength.Declarations.Update
import CalcLength.Engine

namespace CalcLength

/-- What is worth a word though nothing has failed. -/
inductive Warning
  | uselessCalibration (calibration : Float)
  | degenerateContainer (extent : Extent)
  | flatProbe (unit : RelativeUnit)
deriving DecidableEq

def Warning.message : Warning → String
  | .uselessCalibration calibration =>
    "Ignoring non-positive probe calibration " ++ Number.text calibration ++ ", using " ++
      Number.text ordinaryCalibration
  | .degenerateContainer extent =>
    "Container measured as " ++ Number.text extent.width.toPixels ++ "pxx" ++
      Number.text extent.height.toPixels ++ "px, percentages will resolve to zero"
  | .flatProbe unit => "Probe for `" ++ unit.name ++ "` measured zero pixels wide"

/-- An engine's state and the warnings so far. -/
structure Watched (σ : Type) where
  state : σ
  warnings : List Warning

/-- A computation that uses an engine and may warn. -/
abbrev Measuring (σ : Type) := Action (Watched σ)

namespace Measuring

variable {σ α : Type}

/-- Lets the engine act. -/
def act (action : Action σ α) : Measuring σ α := fun watched =>
  let (outcome, state) := action watched.state
  (outcome, { watched with state })

def warn (warning : Warning) : Measuring σ Unit := fun watched =>
  (.ok (), { watched with warnings := watched.warnings ++ [warning] })

/-- Runs `last` after `body`, whether `body` fails or not. The first failure counts. -/
def ensuring (body : Measuring σ α) (last : Measuring σ Unit) : Measuring σ α := fun watched =>
  match body watched with
  | (.ok value, watched) =>
    match last watched with
    | (.ok (), watched) => (.ok value, watched)
    | (.error failed, watched) => (.error failed, watched)
  | (.error failed, watched) => (.error failed, (last watched).2)

end Measuring

/-- The probes in a container: under one root, a probe for each unit and
one that fills the container. -/
structure Probes (ν : Type) where
  root : ν
  units : List (RelativeUnit × ν)
  percent : ν

namespace Probes

variable {σ ν : Type}

/-- A probe that is `calibration` units wide, under the root. -/
def installUnit (engine : Engine σ ν) (root : ν) (calibration : Float) (unit : RelativeUnit) :
    Action σ (RelativeUnit × ν) := do
  let probe ← engine.create "div" (.wide calibration unit)
  engine.append root probe
  return (unit, probe)

/-- Builds the probes and then, as the last step, puts them before the children of the container. -/
def install (engine : Engine σ ν) (container : ν) (tag : String) (calibration : Float) :
    Action σ (Probes ν) := do
  let root ← engine.create tag .cover
  let units ← RelativeUnit.all.mapM (installUnit engine root calibration)
  let percent ← engine.create "div" .fill
  engine.append root percent
  engine.insertFirst container root
  return { root, units, percent }

/-- Takes the size of one unit from its probe. -/
def readUnit (engine : Engine σ ν) (calibration : Float) (scale : Scale)
    (probe : RelativeUnit × ν) : Measuring σ Scale := do
  let width := (← Measuring.act (engine.size probe.2)).width
  if width.isZero then Measuring.warn (.flatProbe probe.1)
  return scale.set probe.1 (width.toPixels / calibration)

/-- The scale that the sizes of the probes make. -/
def read (engine : Engine σ ν) (calibration : Float) (probes : Probes ν) : Measuring σ Scale := do
  let extent ← Measuring.act (engine.size probes.percent)
  if extent.isDegenerate then Measuring.warn (.degenerateContainer extent)
  let percents := Scale.ofPercents (extent.width.toPixels / 100) (extent.height.toPixels / 100)
  probes.units.foldlM (readUnit engine calibration) percents

end Probes

/-- Measures what units and percentages come to in a container. The probes leave the container again
whenever they got into it, also when a size cannot be read. -/
def measure {σ ν : Type} (engine : Engine σ ν) (container : ν) (settings : ProbeSettings) :
    Measuring σ Scale := do
  if !settings.isUsable then Measuring.warn (.uselessCalibration settings.calibration)
  let calibration := settings.usedCalibration
  let probes ← Measuring.act (Probes.install engine container settings.tag calibration)
  Measuring.ensuring (probes.read engine calibration)
    (Measuring.act (engine.remove container probes.root))

/-- What gives a scale when one is needed: one known already, or a container to measure. -/
inductive ScaleSource (ν : Type)
  | known (scale : Scale)
  | container (element : ν) (settings : ProbeSettings)

namespace ScaleSource

variable {σ ν : Type}

def scale (engine : Engine σ ν) : ScaleSource ν → Measuring σ Scale
  | known scale => pure scale
  | container element settings => measure engine element settings

/-- The number of pixels that an expression comes to. The scale is asked for
whatever the expression is. -/
def pixels (engine : Engine σ ν) (source : ScaleSource ν) (axis : Axis) (text : String) :
    Measuring σ (Except LengthFault Float) := do
  return Calc.pixels (← source.scale engine) axis text.toList

/-- The length that an expression comes to. -/
def evaluate (engine : Engine σ ν) (source : ScaleSource ν) (axis : Axis) (text : String) :
    Measuring σ (Except LengthFault String) := do
  return Calc.evaluate (← source.scale engine) axis text

/-- Evaluates the values of declarations. The scale is asked for once, and only if
there is a value to evaluate. -/
def update (engine : Engine σ ν) (source : ScaleSource ν) (update : Update) (given : Declarations) :
    Measuring σ (Except LengthFault Updated × Declarations) := do
  if given.hasCalculation then
    return update.apply (← source.scale engine) given
  else
    let (answer, after) := update.finish given given
    return (.ok answer, after)

end ScaleSource

end CalcLength
