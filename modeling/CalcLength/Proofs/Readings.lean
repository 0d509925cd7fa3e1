import CalcLength.Proofs.Measurement
import CalcLength.Proofs.Transcript

namespace CalcLength

open CalcLength.Action

variable {σ ν α β : Type}

/-- What an engine answers with when it creates an element and when it takes a size. -/
inductive Answer (ν : Type)
  | created (name : String) (shape : ProbeShape) (node : ν)
  | reported (node : ν) (extent : Extent)

/-- An engine's state and its answers so far. -/
structure Answered (σ ν : Type) where
  state : σ
  answers : List (Answer ν)

/-- Carries an action out and notes the answers that are in its value. -/
def Action.noted (action : Action σ α) (note : α → List (Answer ν)) :
    Action (Answered σ ν) α := fun answered =>
  match action answered.state with
  | (.ok value, state) => (.ok value, ⟨state, answered.answers ++ note value⟩)
  | (.error callback, state) => (.error callback, ⟨state, answered.answers⟩)

/-- The engine with its answers noted. -/
def Engine.answering (engine : Engine σ ν) : Engine (Answered σ ν) ν where
  create name shape :=
    Action.noted (engine.create name shape) fun node => [.created name shape node]
  append parent child := Action.noted (engine.append parent child) fun _ => []
  insertFirst parent child := Action.noted (engine.insertFirst parent child) fun _ => []
  remove parent child := Action.noted (engine.remove parent child) fun _ => []
  size node := Action.noted (engine.size node) fun extent => [.reported node extent]

theorem Action.noted_reflects (action : Action σ α) (note : α → List (Answer ν)) :
    Action.Reflects Answered.state (Action.noted action note) action := by
  intro answered
  unfold Action.noted
  match action answered.state with
  | (.ok value, state) => rfl
  | (.error callback, state) => rfl

/-- To note the answers changes nothing. -/
theorem Engine.answering_reflects (engine : Engine σ ν) :
    engine.answering.Reflects Answered.state engine where
  create _ _ := Action.noted_reflects _ _
  append _ _ := Action.noted_reflects _ _
  insertFirst _ _ := Action.noted_reflects _ _
  remove _ _ := Action.noted_reflects _ _
  size _ := Action.noted_reflects _ _

theorem Action.noted_holds (action : Action σ α) (note : α → List (Answer ν))
    (start : List (Answer ν)) :
    Holds (fun answered => answered.answers = start) (Action.noted action note)
      (fun value answered => answered.answers = start ++ note value) (fun _ _ => True) := by
  rintro ⟨state, answers⟩ rfl
  unfold Action.noted
  match action state with
  | (.ok value, state) => rfl
  | (.error callback, state) => trivial

namespace ProbeSettings

variable (settings : ProbeSettings)

/-- What settings give reason to warn of. -/
def warnings : List Warning :=
  if 0 < settings.calibration then [] else [.uselessCalibration settings.calibration]

theorem warnings_eq :
    (if !settings.isUsable then [.uselessCalibration settings.calibration] else []) =
      settings.warnings := by
  unfold warnings isUsable
  by_cases positive : 0 < settings.calibration
  · rw [if_pos positive, decide_eq_true positive]
    rfl
  · rw [if_neg positive, decide_eq_false positive]
    rfl

theorem usedCalibration_eq :
    settings.usedCalibration = if 0 < settings.calibration then settings.calibration else 100 := by
  unfold usedCalibration isUsable
  by_cases positive : 0 < settings.calibration
  · rw [if_pos positive, decide_eq_true positive, if_pos rfl]
  · rw [if_neg positive, decide_eq_false positive]
    rfl

end ProbeSettings

/-- The probes of a measurement and the sizes that are reported for them. -/
structure Readings (ν : Type) where
  root : ν
  probe : RelativeUnit → ν
  percent : ν
  extent : RelativeUnit → Extent
  whole : Extent

namespace Readings

/-- Each unit has a probe of its own, so many units wide. -/
def creations (readings : Readings ν) (tag : String) (calibration : Float) : List (Answer ν) :=
  .created tag .cover readings.root :: RelativeUnit.all.map
    (fun unit => .created "div" (.wide calibration unit) (readings.probe unit)) ++
    [.created "div" .fill readings.percent]

def reports (readings : Readings ν) : List (Answer ν) :=
  .reported readings.percent readings.whole :: RelativeUnit.all.map fun unit =>
    .reported (readings.probe unit) (readings.extent unit)

/-- All answers that a measurement with these readings is given. -/
def answers (readings : Readings ν) (tag : String) (calibration : Float) : List (Answer ν) :=
  readings.creations tag calibration ++ readings.reports

/-- The scale that the readings make. The sizes of the units are divided by what
their probes were calibrated by. -/
def scale (readings : Readings ν) (calibration : Float) : Scale where
  percentOfWidth := readings.whole.width.toPixels / 100
  percentOfHeight := readings.whole.height.toPixels / 100
  pixels? unit := some ((readings.extent unit).width.toPixels / calibration)

theorem scale_same (readings : Readings ν) {calibration : Float} (positive : 0 < calibration) :
    (readings.scale calibration == readings.scale calibration) = true := by
  have percent (size : Sixtieths) := size.beq_self_toPixels_div Binary64.hundred_pos
  exact Scale.same_self (percent _) (percent _) fun unit =>
    Sixtieths.beq_self_toPixels_div _ positive

/-- What the readings give reason to warn of. -/
def warnings (readings : Readings ν) : List Warning :=
  (if readings.whole.isDegenerate then [.degenerateContainer readings.whole] else []) ++
    (RelativeUnit.all.filter fun unit => (readings.extent unit).width.isZero).map .flatProbe

end Readings

/-- Pairs with known and distinct first components are given by a function. -/
theorem exists_eq_map_of_map_fst [DecidableEq α] [Nonempty β] {pairs : List (α × β)} {keys : List α}
    (known : pairs.map Prod.fst = keys) (distinct : keys.Nodup) :
    ∃ f : α → β, pairs = keys.map fun key => (key, f key) := by
  subst known
  induction pairs with
  | nil => exact ⟨fun _ => Classical.ofNonempty, rfl⟩
  | cons pair pairs ih =>
    obtain ⟨fresh, distinct⟩ := List.nodup_cons.mp distinct
    obtain ⟨f, same⟩ := ih distinct
    refine ⟨Function.update f pair.1 pair.2, ?_⟩
    have others : pairs = (pairs.map Prod.fst).map fun key =>
        (key, Function.update f pair.1 pair.2 key) := by
      refine same.trans (List.map_congr_left fun key member => ?_)
      rw [Function.update_of_ne (ne_of_mem_of_not_mem member fresh)]
    rw [List.map_cons, List.map_cons, ← others, Function.update_self]

/-- So much has been answered and warned of. -/
def Noted (answers : List (Answer ν)) (warnings : List Warning)
    (watched : Watched (Answered σ ν)) : Prop :=
  watched.state.answers = answers ∧ watched.warnings = warnings

namespace Measuring

theorem act_noted_holds {action : Action (Answered σ ν) α} {start : List (Answer ν)}
    {after : α → Answered σ ν → Prop}
    (holds : Holds (fun answered => answered.answers = start) action after (fun _ _ => True))
    (warnings : List Warning) :
    Holds (Noted start warnings) (act action) (fun value watched => after value watched.state ∧
        watched.warnings = warnings)
      (fun _ _ => True) := by
  rintro ⟨state, _⟩ ⟨here, rfl⟩
  have holds := holds state here
  unfold act
  dsimp only
  match ends : action state with
  | (.ok value, state') =>
    rw [ends] at holds
    exact ⟨holds, rfl⟩
  | (.error callback, state') => trivial

theorem warn_if_noted_holds {answers : List (Answer ν)} {warnings : List Warning} {worth : Bool}
    {warning : Warning} {next : Unit → Measuring (Answered σ ν) α}
    {after : α → Watched (Answered σ ν) → Prop} {fails : Callback → Watched (Answered σ ν) → Prop}
    (goes_on : Holds (Noted answers (warnings ++ if worth then [warning] else []))
      (next ()) after fails) :
    Holds (Noted answers warnings) (if worth then warn warning >>= next
        else next ()) after fails := by
  cases worth with
  | true =>
    rintro ⟨state, _⟩ ⟨here, rfl⟩
    exact goes_on ⟨state, _ ++ [warning]⟩ ⟨here, rfl⟩
  | false =>
    exact fun watched here =>
      goes_on watched ⟨here.1, by rw [here.2]; exact (List.append_nil _).symm⟩

end Measuring

namespace Probes

variable (engine : Engine σ ν)

theorem install_answers (container : ν) (tag : String) (calibration : Float) :
    Holds (fun answered => answered.answers = [])
      (install engine.answering container tag calibration)
      (fun probes answered => ∃ probe : RelativeUnit → ν,
        probes.units = RelativeUnit.all.map (fun unit => (unit, probe unit)) ∧
        ∀ extent whole, answered.answers =
          (⟨probes.root, probe, probes.percent, extent, whole⟩ : Readings ν).creations
            tag calibration)
      (fun _ _ => True) := by
  have : Nonempty ν := ⟨container⟩
  have unit (root : ν) (as : List RelativeUnit) (bs : List (RelativeUnit × ν))
      (unit : RelativeUnit) :
      Holds (fun answered => bs.map Prod.fst = as ∧
          answered.answers = .created tag .cover root ::
            bs.map fun probe => .created "div" (.wide calibration probe.1) probe.2)
        (installUnit engine.answering root calibration unit)
        (fun b answered => (bs ++ [b]).map Prod.fst = as ++ [unit] ∧
          answered.answers = .created tag .cover root ::
            (bs ++ [b]).map fun probe => .created "div" (.wide calibration probe.1) probe.2)
        (fun _ _ => True) := by
    refine .of_known fun all => (noted_holds _ _ _).bind fun probe =>
      (noted_holds _ _ _).bind fun _ => .pure fun answered here => ?_
    rw [here, ← all]
    simp
  refine (noted_holds _ _ []).bind fun root => ?_
  refine ((Holds.mapM_gathers (unit root) RelativeUnit.all [] []).mono ?_
    (fun _ _ => id) fun _ _ => id).bind fun units => ?_
  · exact fun answered here => ⟨rfl, here⟩
  refine .of_known fun all => (noted_holds _ _ _).bind fun percent =>
    (noted_holds _ _ _).bind fun _ => ?_
  refine (noted_holds _ _ _).bind fun _ => .pure fun answered here => ?_
  -- The units are all different, so the list of their probes is a function.
  obtain ⟨probe, rfl⟩ := exists_eq_map_of_map_fst all (by decide)
  refine ⟨probe, rfl, fun extent whole => ?_⟩
  rw [here]
  simp [Readings.creations]

theorem readUnit_answers (calibration : Float) (scale : Scale) (probe : RelativeUnit × ν)
    (answers : List (Answer ν)) (warnings : List Warning) :
    Holds (Noted answers warnings) (readUnit engine.answering calibration scale probe)
      (fun result watched => ∃ extent : Extent,
        result = scale.set probe.1 (extent.width.toPixels / calibration) ∧
        Noted (answers ++ [.reported probe.2 extent]) (warnings ++ if extent.width.isZero then
          [.flatProbe probe.1] else []) watched)
      (fun _ _ => True) := by
  refine (Measuring.act_noted_holds (noted_holds _ _ _) warnings).bind fun extent =>
    Measuring.warn_if_noted_holds (.pure ?_)
  exact fun watched here => ⟨extent, rfl, here⟩

section Sized

variable (probe : RelativeUnit → ν) (calibration : Float) (start : Scale)
    (answers : List (Answer ν)) (warnings : List Warning)

/-- Whether these sizes were taken one after the other, each from the unit's own
probe, and have set the scale. -/
def Sized (sizes : List (RelativeUnit × Extent)) (scale : Scale)
    (watched : Watched (Answered σ ν)) : Prop :=
  scale =
      sizes.foldl (fun scale size => scale.set size.1 (size.2.width.toPixels / calibration)) start ∧
    Noted (answers ++ sizes.map fun size => .reported (probe size.1) size.2)
      (warnings ++ (sizes.filter fun size => size.2.width.isZero).map fun size => .flatProbe size.1)
      watched

theorem readUnit_sized (done : List RelativeUnit) (scale : Scale) (unit : RelativeUnit) :
    Holds (fun watched => ∃ sizes, sizes.map Prod.fst = done ∧
        Sized probe calibration start answers warnings sizes scale watched)
      (readUnit engine.answering calibration scale (unit, probe unit))
      (fun result watched => ∃ sizes, sizes.map Prod.fst = done ++ [unit] ∧
        Sized probe calibration start answers warnings sizes result watched)
      (fun _ _ => True) := by
  rintro watched ⟨sizes, rfl, rfl, here⟩
  refine ((readUnit_answers engine calibration _ (unit, probe unit) _ _).mono (fun _ => id)
      ?_ fun _ _ => id) watched here
  rintro _ watched ⟨extent, rfl, answered, warned⟩
  refine ⟨sizes ++ [(unit, extent)], List.map_append, by rw [List.foldl_append]; rfl, ?_, ?_⟩
  · rw [answered, List.map_append, List.append_assoc]
    rfl
  · rw [warned, List.filter_append, List.map_append, List.append_assoc]
    simp only [List.filter_cons, List.filter_nil]
    cases extent.width.isZero <;> rfl

/-- Once all sizes are taken, each unit has the one of its own probe. -/
theorem Sized.eq {extent : RelativeUnit → Extent} {scale : Scale} {watched : Watched (Answered σ ν)}
    (sized : Sized probe calibration start answers warnings
      (RelativeUnit.all.map fun unit => (unit, extent unit)) scale watched) :
    scale = ⟨start.percentOfWidth, start.percentOfHeight,
      fun unit => some ((extent unit).width.toPixels / calibration)⟩ ∧
      Noted (answers ++ RelativeUnit.all.map fun unit => .reported (probe unit) (extent unit))
        (warnings ++ (RelativeUnit.all.filter fun unit => (extent unit).width.isZero).map
          .flatProbe) watched := by
  obtain ⟨rfl, here⟩ := sized
  constructor
  · rw [List.foldl_map, Scale.foldl_set]
    exact congrArg (Scale.mk _ _) (funext fun unit => if_pos unit.mem_all)
  · rw [List.map_map, List.filter_map, List.map_map] at here
    exact here

end Sized

theorem read_answers (calibration : Float) {probes : Probes ν} {probe : RelativeUnit → ν}
    (units : probes.units = RelativeUnit.all.map fun unit => (unit, probe unit))
    (answers : List (Answer ν)) (warnings : List Warning) :
    Holds (Noted answers warnings) (probes.read engine.answering calibration)
      (fun scale watched => ∃ extent whole,
        let readings : Readings ν := ⟨probes.root, probe, probes.percent, extent, whole⟩
        scale = readings.scale calibration ∧
          Noted (answers ++ readings.reports) (warnings ++ readings.warnings) watched)
      (fun _ _ => True) := by
  refine (Measuring.act_noted_holds (noted_holds _ _ answers) warnings).bind fun whole =>
    Measuring.warn_if_noted_holds ?_
  rw [units, List.foldlM_map]
  generalize percents : Scale.ofPercents _ _ = start
  have taken := @Holds.foldlM_gathers _ _ _ _ _ _
    (readUnit_sized engine probe calibration start (answers ++ [.reported probes.percent whole])
      (warnings ++ if whole.isDegenerate then [.degenerateContainer whole] else []))
    RelativeUnit.all [] start
  refine taken.mono (fun watched here => ⟨[], rfl, rfl, ?_⟩) ?_ fun _ _ => id
  · rwa [List.map_nil, List.filter_nil, List.map_nil, List.append_nil, List.append_nil]
  rintro scale watched ⟨sizes, all, sized⟩
  have : Nonempty Extent := ⟨whole⟩
  obtain ⟨extent, rfl⟩ := exists_eq_map_of_map_fst all (by decide)
  obtain ⟨rfl, here⟩ := sized.eq
  refine ⟨extent, whole, by rw [← percents]; rfl, ?_⟩
  rwa [List.append_assoc, List.append_assoc] at here

end Probes

/-- What a measurement is answered with, what it makes of that, and what it warns of. -/
theorem measure_answers (engine : Engine σ ν) (container : ν) (settings : ProbeSettings)
    (warnings : List Warning) :
    Holds (Noted [] warnings) (measure engine.answering container settings)
      (fun scale watched => ∃ readings : Readings ν,
        scale = readings.scale settings.usedCalibration ∧
        Noted (readings.answers settings.tag settings.usedCalibration)
          (warnings ++ settings.warnings ++ readings.warnings) watched)
      (fun _ _ => True) := by
  unfold measure
  refine Measuring.warn_if_noted_holds ?_
  rw [settings.warnings_eq]
  generalize warnings ++ settings.warnings = warnings
  have installed := Probes.install_answers engine container settings.tag settings.usedCalibration
  refine (Measuring.act_noted_holds installed warnings).bind fun probes => ?_
  rintro watched ⟨⟨probe, units, answered⟩, warned⟩
  have read :=
    Probes.read_answers engine settings.usedCalibration units watched.state.answers warnings
  have removed (answers : List (Answer ν)) (warnings : List Warning) :
      Holds (Noted answers warnings) (Measuring.act (engine.answering.remove container probes.root))
        (fun _ => Noted answers warnings)
        (fun _ _ => True) := by
    have noted := Action.noted_holds (engine.remove container probes.root)
      (fun _ => ([] : List (Answer ν))) answers
    refine (Measuring.act_noted_holds noted warnings).mono (fun _ => id)
      (fun _ watched here => ?_) fun _ _ => id
    rwa [List.append_nil] at here
  -- What a removal after a failed reading does is of no interest, since there is no scale then.
  refine Measuring.ensuring_holds read (fun scale => ?_)
    (fun _ => .intro (fun _ _ _ _ _ => trivial) fun _ _ _ _ _ => trivial) watched
    ⟨rfl, warned⟩
  rintro watched' ⟨extent, whole, rfl, here⟩
  rw [answered extent whole] at here
  exact (removed _ _).mono (fun _ => id) (fun _ _ here => ⟨_, rfl, here⟩)
    (fun _ _ => id) watched' here

theorem exists_scale {engine : Engine σ ν} {container : ν} {settings : ProbeSettings}
    {watched : Watched σ} (returns : (measure engine container settings watched).1.isOk = true) :
    ∃ scale final, measure engine container settings watched = (.ok scale, final) := by
  match measured : measure engine container settings watched with
  | (.ok scale, final) => exact ⟨scale, final, rfl⟩
  | (.error callback, final) =>
    rw [measured] at returns
    cases returns

/-- A measurement that gives a scale has taken readings for it. -/
theorem exists_readings {engine : Engine σ ν} {container : ν} {settings : ProbeSettings}
    {watched final : Watched σ} {scale : Scale}
    (measured : measure engine container settings watched = (.ok scale, final)) :
    ∃ readings : Readings ν,
      measure engine.answering container settings ⟨⟨watched.state, []⟩, watched.warnings⟩ =
        (.ok scale, ⟨⟨final.state, readings.answers settings.tag settings.usedCalibration⟩,
          final.warnings⟩) ∧
      scale = readings.scale settings.usedCalibration ∧
      final.warnings = watched.warnings ++ settings.warnings ++ readings.warnings := by
  have same := measure_reflects engine.answering_reflects container settings
    ⟨⟨watched.state, []⟩, watched.warnings⟩
  match answered : measure engine.answering container settings
    ⟨⟨watched.state, []⟩, watched.warnings⟩ with
  | (outcome, ⟨⟨state, answers⟩, warnings⟩) =>
    rw [answered] at same
    obtain ⟨rfl, rfl⟩ := Prod.mk.inj (measured.symm.trans same)
    obtain ⟨readings, given, rfl, rfl⟩ :=
      (measure_answers engine container settings watched.warnings).ok ⟨rfl, rfl⟩ answered
    exact ⟨readings, rfl, given, rfl⟩

end CalcLength
