import CalcLength.Browser
import CalcLength.Proofs.Binary64.Underflow
import CalcLength.Proofs.Readings

namespace CalcLength

variable {σ ν : Type}

/-- What a scale gives reason to warn of: that percentages vanish, in a container of this
extent, and which units do. -/
def Scale.warnings (scale : Scale) (extent : Extent) : List Warning :=
  (if scale.percentOfWidth == 0 || scale.percentOfHeight == 0 then
    [.degenerateContainer extent] else []) ++
    (RelativeUnit.all.filter fun unit => scale.pixels? unit == some 0).map .flatProbe

namespace Readings

variable (readings : Readings ν) {calibration : Float} (positive : 0 < calibration)

theorem percent_scale_beq_zero :
    ((readings.scale calibration).percentOfWidth == 0 ||
      (readings.scale calibration).percentOfHeight == 0) =
      readings.whole.isDegenerate := by
  have finite : (100 : Float).isInf = false := by decide +kernel
  have percent (size : Sixtieths) : (size.toPixels / 100 == 0) = size.isZero := by
    rw [size.toPixels_div_beq_zero Binary64.hundred_pos, finite, Bool.or_false]
  rw [scale, percent, percent, Extent.isDegenerate]

include positive

theorem pixels?_scale_beq_zero (unit : RelativeUnit) :
    ((readings.scale calibration).pixels? unit == some 0) =
      ((readings.extent unit).width.isZero || calibration.isInf) :=
  Sixtieths.toPixels_div_beq_zero _ positive

/-- By a finite calibration, the sizes that are nothing are those that come to nothing. -/
theorem warnings_scale (finite : calibration.isInf = false) :
    (readings.scale calibration).warnings readings.whole = readings.warnings := by
  simp only [Scale.warnings, warnings, percent_scale_beq_zero,
    pixels?_scale_beq_zero readings positive, finite, Bool.or_false]

end Readings

/-- An infinite calibration is one that is used. -/
theorem ProbeSettings.warnings_of_isInf {settings : ProbeSettings}
    (infinite : settings.usedCalibration.isInf = true) : settings.warnings = [] := by
  rw [usedCalibration_eq] at infinite
  split at infinite
  · rename_i positive
    exact if_pos positive
  · exact absurd infinite (by decide +kernel)

/-- A measurement that returns has warned, in this order, of a calibration that is not positive, of
percentages that are zero, and of each unit whose size is zero, but only if the calibration is not
infinite. By an infinite calibration the sizes of all units are zero, and only those are warned of
whose probes were reported to have no width. -/
theorem measure_warns {engine : Engine σ ν} {container : ν} {settings : ProbeSettings}
    {watched final : Watched σ} {scale : Scale}
    (measured : measure engine container settings watched = (.ok scale, final)) :
    ∃ readings : Readings ν,
      measure engine.answering container settings ⟨⟨watched.state, []⟩, watched.warnings⟩ =
        (.ok scale, ⟨⟨final.state, readings.answers settings.tag settings.usedCalibration⟩,
          final.warnings⟩) ∧
      (settings.usedCalibration.isInf = false →
        final.warnings = watched.warnings ++ settings.warnings ++ scale.warnings readings.whole) ∧
      (settings.usedCalibration.isInf = true →
        (∀ unit, (scale.pixels? unit == some 0) = true) ∧
          final.warnings = watched.warnings ++ readings.warnings) := by
  obtain ⟨readings, answered, rfl, warned⟩ := exists_readings measured
  have positive := settings.usedCalibration_pos
  refine ⟨readings, answered, fun finite => ?_, fun infinite => ⟨fun unit => ?_, ?_⟩⟩
  · rw [warned, readings.warnings_scale positive finite]
  · rw [readings.pixels?_scale_beq_zero positive, infinite, Bool.or_true]
  · rw [warned, ProbeSettings.warnings_of_isInf infinite, List.append_nil]

theorem measure_warns_of_flat :
    let watched : Watched Browser := ⟨.ofMetrics { reported := [(.em, ⟨0⟩)] }, []⟩
    (∃ scale final extent,
      measure Browser.engine 0 { calibration := 0 } watched = (.ok scale, final) ∧
      final.warnings = [.uselessCalibration 0] ++ scale.warnings extent) ∧
    ∃ scale final, measure Browser.engine 0 { calibration := 1 / 0 } watched = (.ok scale, final) ∧
      (∀ unit, (scale.pixels? unit == some 0) = true) ∧
        ∃ readings : Readings Nat, final.warnings = readings.warnings := by
  intro watched
  constructor
  · obtain ⟨scale, final, measured⟩ :=
      @exists_scale _ _ Browser.engine 0 { calibration := 0 } watched (by decide +kernel)
    obtain ⟨readings, -, warned, -⟩ := measure_warns measured
    have useless : ({ calibration := 0 } : ProbeSettings).warnings = [.uselessCalibration 0] := by
      decide +kernel
    rw [useless] at warned
    exact ⟨scale, final, readings.whole, measured, warned (by decide +kernel)⟩
  · obtain ⟨scale, final, measured⟩ :=
      @exists_scale _ _ Browser.engine 0 { calibration := 1 / 0 } watched (by decide +kernel)
    obtain ⟨readings, -, -, warned⟩ := measure_warns measured
    obtain ⟨vanish, warned⟩ := warned (by decide +kernel)
    exact ⟨scale, final, measured, vanish, readings, warned⟩

/-- By an infinite calibration all units vanish without a word, however wide their probes are. -/
theorem infinite_calibration_silent :
    let settings : ProbeSettings := { calibration := 1 / 0 }
    let watched : Watched Browser := ⟨.ofMetrics {}, []⟩
    ∃ scale final, measure Browser.engine 0 settings watched = (.ok scale, final) ∧
      (∀ unit, (scale.pixels? unit == some 0) = true) ∧ final.warnings = [] ∧
      ∀ extent, final.warnings ≠ settings.warnings ++ scale.warnings extent := by
  intro settings watched
  have silent : (match measure Browser.engine 0 settings watched with
    | (.ok scale, final) =>
      decide (∀ unit ∈ RelativeUnit.all, (scale.pixels? unit == some 0) = true) &&
        final.warnings.isEmpty
    | (.error _, _) => false) = true := by decide +kernel
  obtain ⟨scale, final, measured⟩ :=
    @exists_scale _ _ Browser.engine 0 settings watched (by decide +kernel)
  rw [measured, Bool.and_eq_true, decide_eq_true_eq, List.isEmpty_iff] at silent
  obtain ⟨vanish, silent⟩ := silent
  refine ⟨scale, final, measured, fun unit => vanish unit unit.mem_all,
    silent, fun extent same => ?_⟩
  have em : RelativeUnit.em ∈ RelativeUnit.all.filter fun unit => scale.pixels? unit == some 0 :=
    List.mem_filter.mpr ⟨RelativeUnit.mem_all .em, vanish .em (RelativeUnit.mem_all .em)⟩
  have warned : .flatProbe .em ∈ settings.warnings ++ scale.warnings extent :=
    List.mem_append_right _ (List.mem_append_right _ (List.mem_map_of_mem em))
  rw [← same, silent] at warned
  cases warned

end CalcLength
