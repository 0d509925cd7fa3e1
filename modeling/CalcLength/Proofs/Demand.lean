import CalcLength.Proofs.Keeping
import CalcLength.Proofs.Protocol

namespace CalcLength

open CalcLength.Action

variable {σ ν α β : Type}

theorem Action.map_ends {action : Action σ α} {state state' : σ} {outcome : Except Callback α}
    (f : α → β) (ends : action state = (outcome, state')) :
    (do return f (← action) : Action σ β) state = (outcome.map f, state') := by
  refine (Holds.bind_apply action (fun value => Pure.pure (f value)) state).trans ?_
  rw [ends]
  cases outcome with
  | ok value => rfl
  | error callback => rfl

/-- Whether these are the calls that a computation asks an engine for. The engine with a record
notes them, and to keep the record makes no difference to the computation. -/
def Engine.Serves (engine : Engine σ ν) (computation : {τ : Type} → Engine τ ν → Measuring τ α)
    (watched : Watched σ) (attempts : List (Attempt ν)) : Prop :=
  ∃ outcome final, computation engine watched = (outcome, final) ∧
    computation engine.recorded ⟨⟨watched.state, []⟩, watched.warnings⟩ =
      (outcome, ⟨⟨final.state, attempts⟩, final.warnings⟩)

namespace Engine.Serves

variable {engine : Engine σ ν} {computation : {τ : Type} → Engine τ ν → Measuring τ α}
    {watched : Watched σ}
  {attempts : List (Attempt ν)}

/-- Where no engine is needed none is asked for anything. -/
theorem pure (value : α) : engine.Serves (fun _ => Pure.pure value) watched [] :=
  ⟨.ok value, watched, rfl, rfl⟩

/-- What is made of a result takes no calls. -/
theorem map (f : α → β) (serves : engine.Serves computation watched attempts) :
    engine.Serves (fun engine => do return f (← computation engine)) watched attempts := by
  obtain ⟨outcome, final, runs, recorded⟩ := serves
  exact ⟨outcome.map f, final, Action.map_ends f runs, Action.map_ends f recorded⟩

/-- Whatever a computation asks for is noted, if it makes no difference to it that it is. -/
theorem of_reflects (computation : {τ : Type} → Engine τ ν → Measuring τ α)
    (reflects : Action.Reflects (Watched.map Recorded.state)
      (computation engine.recorded) (computation engine))
    (watched : Watched σ) : ∃ attempts, engine.Serves computation watched attempts := by
  have same := reflects ⟨⟨watched.state, []⟩, watched.warnings⟩
  match recorded : computation engine.recorded ⟨⟨watched.state, []⟩, watched.warnings⟩ with
  | (outcome, ⟨⟨state, attempts⟩, warnings⟩) =>
    rw [recorded] at same
    exact ⟨attempts, outcome, ⟨state, warnings⟩, same, recorded⟩

end Engine.Serves

namespace Probes

/-- A measurement takes one size for each unit and one for the percentages. -/
theorem count_query_calls {probes : Probes ν} (all : probes.units.map Prod.fst = RelativeUnit.all)
    (container : ν) (tag : String) (calibration : Float) :
    (((probes.calls container tag calibration).map Attempt.completed).map Attempt.kind).count
      .query = 9 := by
  have outside : (((probes.building tag calibration).map Attempt.completed).map Attempt.kind).count
      .query = 0 := by
    rw [List.count_eq_zero, List.map_map, List.mem_map]
    rintro ⟨call, member, query⟩
    exact absurd ((kind_of_mem_building member).1.symm.trans query) (by decide)
  have inside : ((probes.queries.map Attempt.completed).map Attempt.kind).count .query =
      probes.queries.length := by
    rw [← List.length_map Attempt.completed, ← List.length_map Attempt.kind, List.count_eq_length,
      List.map_map]
    simp only [List.mem_map]
    rintro kind ⟨call, member, rfl⟩
    exact (kind_of_mem_queries member).1.symm
  have nine : probes.queries.length = 9 := by
    rw [queries, List.length_cons, List.length_map, ← List.length_map Prod.fst, all]
    rfl
  have insertion : (Attempt.completed (probes.insertion container)).kind = .insertion := rfl
  have removal : (Attempt.completed (probes.removal container)).kind = .removal := rfl
  simp only [calls, List.map_append, List.map_cons, List.map_nil, List.count_append,
    List.count_cons, List.count_nil, outside, inside, nine, insertion, removal]
  rfl

end Probes

/-- The calls of a measurement on an engine of which no callback fails. -/
theorem Engine.Serves.measured {engine : Engine σ ν} {container : ν} {settings : ProbeSettings}
    {watched : Watched σ} {attempts : List (Attempt ν)}
    (serves : engine.Serves (measure · container settings) watched attempts) {calm : σ → Prop}
    (keeps : engine.Keeps calm False) (here : calm watched.state) :
    ∃ probes : Probes ν, probes.units.map Prod.fst = RelativeUnit.all ∧
      attempts = (probes.calls container settings.tag settings.usedCalibration).map .completed := by
  obtain ⟨outcome, final, runs, recorded⟩ := serves
  cases outcome with
  | ok scale => exact ((measure_recorded_holds engine container settings).ok rfl recorded).2
  | error callback => exact ((measure_keeps keeps container settings).error here runs).1.elim

namespace ScaleSource

/-- A scale that is known takes no calls to use. A container takes the calls of one measurement, for
an expression whatever it is, and for declarations however many of their values are to be evaluated
and whether or not these have faults, but none if there is nothing to evaluate. Where no callback
fails they are those of a measurement that is not broken off, with nine sizes taken. -/
theorem calls_of_source (engine : Engine σ ν) (watched : Watched σ) :
    (∀ scale : Scale,
      (∀ axis text, engine.Serves ((known scale).pixels · axis text) watched []) ∧
      (∀ axis text, engine.Serves ((known scale).evaluate · axis text) watched []) ∧
      ∀ update given, engine.Serves ((known scale).update · update given) watched []) ∧
    ∀ (element : ν) (settings : ProbeSettings), ∃ attempts,
      engine.Serves (measure · element settings) watched attempts ∧
      (∀ axis text,
        engine.Serves ((container element settings).pixels · axis text) watched attempts) ∧
      (∀ axis text,
        engine.Serves ((container element settings).evaluate · axis text) watched attempts) ∧
      (∀ update given, engine.Serves ((container element settings).update · update given) watched
        (if given.hasCalculation then attempts else [])) ∧
      ∀ calm : σ → Prop, engine.Keeps calm False → calm watched.state →
        (attempts.map Attempt.kind).count .query = 9 ∧
          ∃ probes : Probes ν, probes.units.map Prod.fst = RelativeUnit.all ∧
            attempts =
              (probes.calls element settings.tag settings.usedCalibration).map .completed := by
  refine ⟨fun scale => ⟨fun _ _ => .pure _, fun _ _ => .pure _, fun update given => ?_⟩,
    fun element settings => ?_⟩
  · unfold ScaleSource.update
    cases given.hasCalculation with
    | true => exact .pure _
    | false => exact .pure _
  · obtain ⟨attempts, serves⟩ := Engine.Serves.of_reflects (measure · element settings)
      (measure_reflects engine.recorded_reflects element settings) watched
    refine ⟨attempts, serves, fun _ _ => serves.map _, fun _ _ => serves.map _,
      fun update given => ?_, fun calm keeps here => ?_⟩
    · unfold ScaleSource.update
      cases given.hasCalculation with
      | true => exact serves.map _
      | false => exact .pure _
    · obtain ⟨probes, all, rfl⟩ := serves.measured keeps here
      exact ⟨Probes.count_query_calls all element settings.tag settings.usedCalibration,
        probes, all, rfl⟩

/-- Three values are to be evaluated and the second has a fault, and still it is one measurement. -/
theorem calls_of_source_of_three :
    let watched : Watched Browser := ⟨.ofMetrics {}, []⟩
    let given := Declarations.ofList [("top", "calc(10%)"), ("left", "calc(1 +)"),
      ("width", "calc(2em)"), ("color", "red")]
    watched.state.failure = none ∧ given.hasCalculation = true ∧ ∃ attempts : List (Attempt Nat),
      Browser.engine.Serves (measure · 0 {}) watched attempts ∧
      Browser.engine.Serves ((container 0 {}).update · .inPlace given) watched attempts ∧
      (attempts.map Attempt.kind).count .query = 9 := by
  intro watched given
  have calm : watched.state.failure = none := rfl
  have some_calculation : given.hasCalculation = true := by decide +kernel
  obtain ⟨attempts, measured, -, -, updated, planned⟩ :=
    (calls_of_source Browser.engine watched).2 0 {}
  have updated := updated .inPlace given
  rw [if_pos some_calculation] at updated
  exact ⟨calm, some_calculation, attempts, measured, updated,
    (planned _ Browser.engine_keeps_calm calm).1⟩

end ScaleSource

end CalcLength
