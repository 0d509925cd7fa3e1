import CalcLength.Proofs.Consultation
import CalcLength.Proofs.Declarations.Atomicity

namespace CalcLength

open CalcLength.Action CalcLength.Declarations

/-- Whether the scale has a size for each of the units. -/
def Scale.Knows (scale : Scale) (units : List RelativeUnit) : Prop :=
  ∀ unit ∈ units, ∃ pixels, scale.pixels? unit = some pixels

theorem Scale.Knows.set {scale : Scale} {units : List RelativeUnit} (knows : scale.Knows units)
    (unit : RelativeUnit) (x : Float) : (scale.set unit x).Knows (units ++ [unit]) := by
  intro other member
  by_cases same : other = unit
  · exact ⟨x, same ▸ scale.set_pixels?_self other x⟩
  · rw [set_pixels?_of_ne scale same]
    have earlier :=
      (List.mem_append.mp member).resolve_right fun last => same (List.mem_singleton.mp last)
    exact knows other earlier

variable {σ ν : Type} (engine : Engine σ ν)

namespace Probes

/-- There is a probe for every unit, in their order. -/
theorem install_gives (container : ν) (tag : String) (calibration : Float) :
    Gives (install engine container tag calibration) fun probes =>
      probes.units.map Prod.fst = RelativeUnit.all := by
  have one (root : ν) (unit : RelativeUnit) :
      Gives (installUnit engine root calibration unit) fun probe => probe.1 = unit := by
    refine (Gives.anything _).bind fun probe _ => ?_
    exact (Gives.anything _).bind fun _ _ => .pure rfl
  have units (root : ν) : Gives (RelativeUnit.all.mapM (installUnit engine root calibration))
      fun probes => probes.map Prod.fst = RelativeUnit.all := by
    refine @Gives.mapM _ _ _ _ (fun units probes => probes.map Prod.fst = units) rfl
      (fun units probes unit so_far => ?_) _
    refine (one root unit).mono fun probe same => ?_
    rw [List.map_append, so_far, List.map_singleton, same]
  refine (Gives.anything _).bind fun root _ => (units root).bind fun probes all => ?_
  refine (Gives.anything _).bind fun percent _ => (Gives.anything _).bind fun _ _ => ?_
  exact (Gives.anything _).bind fun _ _ => .pure all

/-- Whatever sizes the probes have, the scale has one for the unit of each. -/
theorem read_gives (calibration : Float) (probes : Probes ν) :
    Gives (probes.read engine calibration) fun scale =>
      scale.Knows (probes.units.map Prod.fst) := by
  refine (Gives.anything _).bind fun extent _ => Measuring.warn_if_gives ?_
  refine @Gives.foldlM _ _ _ _ (fun read (scale : Scale) => scale.Knows (read.map Prod.fst)) _ nofun
    (fun read scale probe knows => ?_) _
  refine (Gives.anything _).bind fun extent _ => Measuring.warn_if_gives (.pure ?_)
  rw [List.map_append, List.map_singleton]
  exact knows.set probe.1 _

end Probes

/-- A measurement that ends has taken the size of every unit. -/
theorem measure_gives (container : ν) (settings : ProbeSettings) :
    Gives (measure engine container settings) fun scale => scale.Knows RelativeUnit.all := by
  unfold measure
  refine Measuring.warn_if_gives ?_
  refine (Measuring.act_gives (Probes.install_gives engine container settings.tag _)).bind
    fun probes all => ?_
  have read := Probes.read_gives engine settings.usedCalibration probes
  rw [all] at read
  exact Measuring.ensuring_gives read _

section Known

variable {scale : Scale} (knows : scale.Knows RelativeUnit.all) (unit : RelativeUnit)
include knows

theorem Calc.pixels_ne_unresolved (axis : Axis) (cs : List Char) :
    pixels scale axis cs ≠ .error (.unresolved unit) := by
  intro missed
  obtain ⟨x, known⟩ := knows unit unit.mem_all
  rw [missing_of_pixels missed] at known
  cases known

theorem Calc.evaluate_ne_unresolved (axis : Axis) (text : String) :
    evaluate scale axis text ≠ .error (.unresolved unit) :=
  fun missed => pixels_ne_unresolved knows unit axis text.toList (eq_error_of_map_eq_error missed)

theorem Update.apply_ne_unresolved (update : Update) (given : Declarations) :
    (update.apply scale given).1 ≠ .error (.unresolved unit) := by
  intro missed
  cases evaluated : given.evaluate scale with
  | ok =>
    rw [update.apply_of_ok evaluated] at missed
    cases missed
  | error fault =>
    rw [update.apply_of_error evaluated] at missed
    cases missed
    obtain ⟨_, entry, _, _, ⟨_, fails⟩, _⟩ := evaluate_eq_error_iff.mp evaluated
    exact Calc.evaluate_ne_unresolved knows unit _ _ fails

end Known

namespace ScaleSource

/-- A container that could be measured has a size for every unit, whatever its engine reports and
however the probes are calibrated. So neither an expression nor a declaration is ever refused in a
container because of a unit. -/
theorem container_knows_units (engine : Engine σ ν) (element : ν) (settings : ProbeSettings)
    (watched : Watched σ) :
    (∀ scale measured, measure engine element settings watched = (.ok scale, measured) →
      ∀ unit, ∃ pixels, scale.pixels? unit = some pixels) ∧
    ∀ unit final,
      (∀ axis text, (container element settings).pixels engine axis text watched ≠
        (.ok (.error (.unresolved unit)), final)) ∧
      (∀ axis text, (container element settings).evaluate engine axis text watched ≠
        (.ok (.error (.unresolved unit)), final)) ∧
      ∀ update given after,
        (container element settings).update engine update given watched ≠
          (.ok (.error (.unresolved unit), after), final) := by
  have measured := measure_gives engine element settings
  refine ⟨fun scale _ ends unit => measured.ok ends unit unit.mem_all,
    fun unit final => ⟨fun axis text => ?_, fun axis text => ?_, fun update given after => ?_⟩⟩
  · have gives : Gives ((container element settings).pixels engine axis text)
        (· ≠ .error (.unresolved unit)) :=
      measured.bind fun scale knows => .pure (Calc.pixels_ne_unresolved knows unit axis text.toList)
    exact fun ends => gives.ok ends rfl
  · have gives : Gives ((container element settings).evaluate engine axis text)
        (· ≠ .error (.unresolved unit)) :=
      measured.bind fun scale knows => .pure (Calc.evaluate_ne_unresolved knows unit axis text)
    exact fun ends => gives.ok ends rfl
  · have gives : Gives ((container element settings).update engine update given)
        (·.1 ≠ .error (.unresolved unit)) := by
      unfold ScaleSource.update
      split
      · exact measured.bind fun scale knows =>
          .pure (Update.apply_ne_unresolved knows unit update given)
      · exact .pure nofun
    exact fun ends => gives.ok ends rfl

theorem container_knows_units_of_root :
    ∃ scale measured, measure Browser.engine 0 { calibration := 0 } ⟨.ofMetrics {}, []⟩ =
      (.ok scale, measured) ∧
      ∀ unit, ∃ pixels, scale.pixels? unit = some pixels := by
  have succeeds : (measure Browser.engine 0 { calibration := 0 } ⟨.ofMetrics {}, []⟩).1.toBool =
    true := by decide +kernel
  match measures : measure Browser.engine 0 { calibration := 0 } ⟨.ofMetrics {}, []⟩ with
  | (.ok scale, measured) =>
    exact ⟨scale, measured, rfl,
      (container_knows_units Browser.engine 0 { calibration := 0 } _).1 scale measured measures⟩
  | (.error callback, measured) =>
    rw [measures] at succeeds
    cases succeeds

end ScaleSource

end CalcLength
