import CalcLength.Proofs.Names
import CalcLength.Proofs.Readings

namespace CalcLength

open CalcLength.Action

section After

variable {σ ν α : Type} {earlier : List Warning}

/-- The same engine with other warnings before those there are. -/
def Watched.after (earlier : List Warning) (watched : Watched σ) : Watched σ :=
  ⟨watched.state, earlier ++ watched.warnings⟩

namespace Measuring

theorem act_after (action : Action σ α) :
    Reflects (Watched.after earlier) (act action) (act action) :=
  fun _ => rfl

theorem warn_if_after {worth : Bool} {warning : Warning} {next : Unit → Measuring σ α}
    (goes_on : Reflects (Watched.after earlier) (next ()) (next ())) :
    Reflects (Watched.after earlier) (if worth then warn warning >>= next else next ())
      (if worth then warn warning >>= next else next ()) := by
  cases worth with
  | true =>
    intro watched
    have later : (watched.after earlier).warnings ++ [warning] =
        earlier ++ (watched.warnings ++ [warning]) := List.append_assoc ..
    have same := goes_on ⟨watched.state, watched.warnings ++ [warning]⟩
    rw [Watched.after, ← later] at same
    exact same
  | false => exact goes_on

end Measuring

/-- A measurement does not look at what was warned of before. -/
theorem measure_after (earlier : List Warning) (engine : Engine σ ν) (container : ν)
    (settings : ProbeSettings) :
    Reflects (Watched.after earlier) (measure engine container settings)
      (measure engine container settings) := by
  have read (probes : Probes ν) :
      Reflects (Watched.after earlier) (probes.read engine settings.usedCalibration)
        (probes.read engine settings.usedCalibration) := by
    refine (Measuring.act_after _).bind fun extent =>
      Measuring.warn_if_after (Reflects.foldlM (fun scale probe => ?_) _ _)
    exact (Measuring.act_after _).bind fun extent => Measuring.warn_if_after (.pure _)
  unfold measure
  refine Measuring.warn_if_after ((Measuring.act_after _).bind fun probes => ?_)
  exact Measuring.ensuring_reflects (read probes) (Measuring.act_after _)

theorem measure_heedless (engine : Engine σ ν) (container : ν) (settings : ProbeSettings)
    (state : σ) (warnings warnings' : List Warning) :
    (measure engine container settings ⟨state, warnings⟩).1 =
      (measure engine container settings ⟨state, warnings'⟩).1 := by
  have same (warnings : List Warning) :
      (measure engine container settings ⟨state, warnings⟩).1 =
        (measure engine container settings ⟨state, []⟩).1 := by
    have after := measure_after warnings engine container settings ⟨state, []⟩
    rw [Watched.after, List.append_nil] at after
    rw [after]
  exact (same warnings).trans (same warnings').symm

/-- A calibration that is of no use might as well be the ordinary one. -/
theorem measure_of_useless (engine : Engine σ ν) (container : ν) {settings : ProbeSettings}
    (useless : ¬ 0 < settings.calibration) (watched : Watched σ) :
    (measure engine container settings watched).1 =
      (measure engine container { settings with calibration := ordinaryCalibration }
        watched).1 := by
  have useless : settings.isUsable = false := decide_eq_false useless
  have ordinary :
      ({ settings with calibration := ordinaryCalibration } : ProbeSettings).isUsable = true :=
    decide_eq_true Binary64.hundred_pos
  have warned : measure engine container settings watched =
      measure engine container { settings with calibration := ordinaryCalibration }
        ⟨watched.state, watched.warnings ++ [.uselessCalibration settings.calibration]⟩ := by
    unfold measure ProbeSettings.usedCalibration
    rw [useless, ordinary]
    rfl
  rw [warned]
  exact measure_heedless ..

end After

/-- In a browser the name of the element that the probes stand in makes no
difference to a measurement. -/
theorem Browser.measure_tag (container : Nat) (settings : ProbeSettings) (tag : String)
    (watched : Watched Browser) :
    (measure engine container settings watched).1 =
      (measure engine container { settings with tag } watched).1 := by
  have named := measure_reflects engine_nameless container settings watched
  have renamed := measure_reflects engine_nameless container { settings with tag } watched
  have same : measure namelessEngine container settings =
      measure namelessEngine container { settings with tag } := rfl
  rw [same, renamed] at named
  exact (Prod.mk.inj named).1.symm

/-- Whatever the calibration is, one is used throughout: the given one if it is positive, otherwise
a hundred. Each unit has a probe that is so many units wide, and its size in the scale is the width
reported for this probe, in pixels, divided by as many. The percentages are hundredths of what is
reported for a probe of their own. So a calibration of no use measures what a hundred measures, and
in a browser the tag does not matter. No number in the scale is a NaN. -/
theorem measure_calibrated {σ ν : Type} (engine : Engine σ ν) (container : ν)
    (settings : ProbeSettings) (watched : Watched σ) :
    let calibration : Float := if 0 < settings.calibration then settings.calibration else 100
    (∀ scale final, measure engine container settings watched = (.ok scale, final) →
      ∃ readings : Readings ν,
        measure engine.answering container settings ⟨⟨watched.state, []⟩, watched.warnings⟩ =
          (.ok scale, ⟨⟨final.state, readings.answers settings.tag calibration⟩, final.warnings⟩) ∧
        scale = readings.scale calibration ∧ (scale == scale) = true) ∧
    (¬ 0 < settings.calibration →
      (measure engine container settings watched).1 =
        (measure engine container { settings with calibration := 100 } watched).1) ∧
    ∀ (container : Nat) (settings : ProbeSettings) (tag : String) (watched : Watched Browser),
      (measure Browser.engine container settings watched).1 =
        (measure Browser.engine container { settings with tag } watched).1 := by
  intro calibration
  refine ⟨fun scale final measured => ?_,
    fun useless => measure_of_useless engine container useless watched, Browser.measure_tag⟩
  obtain ⟨readings, answered, rfl, -⟩ := exists_readings measured
  have used : settings.usedCalibration = calibration := settings.usedCalibration_eq
  have same := readings.scale_same settings.usedCalibration_pos
  rw [used] at answered same ⊢
  exact ⟨readings, answered, rfl, same⟩

theorem measure_calibrated_of_negative :
    let settings : ProbeSettings := { calibration := -3 }
    let watched : Watched Browser := ⟨.ofMetrics {}, []⟩
    ¬ 0 < settings.calibration ∧ ∃ scale final,
      measure Browser.engine 0 settings watched = (.ok scale, final) ∧
      (∃ readings : Readings Nat,
        measure Browser.engine.answering 0 settings ⟨⟨watched.state, []⟩, []⟩ =
          (.ok scale, ⟨⟨final.state, readings.answers settings.tag 100⟩, final.warnings⟩) ∧
        scale = readings.scale 100 ∧ (scale == scale) = true) ∧
      (measure Browser.engine 0 { settings with calibration := 100 } watched).1 = .ok scale := by
  intro settings watched
  have useless : ¬ 0 < settings.calibration := by decide +kernel
  obtain ⟨returns, ordinary, -⟩ := measure_calibrated Browser.engine 0 settings watched
  rw [if_neg useless] at returns
  obtain ⟨scale, final, measured⟩ :=
    @exists_scale _ _ Browser.engine 0 settings watched (by decide +kernel)
  refine ⟨useless, scale, final, measured, returns scale final measured, ?_⟩
  rw [← ordinary useless, measured]

end CalcLength
