import CalcLength.Proofs.Declarations.Atomicity
import CalcLength.Proofs.FixedPoint

namespace CalcLength

open CalcLength.Action

theorem Number.head?_write_ne_letter {x : Float} (finite : x.isFinite = true) :
    (write x).head? ≠ some 'c' := by
  obtain ⟨l, text, _⟩ := exists_literal finite
  obtain ⟨c, more, first, begins⟩ := Token.exists_eq_cons_of_literal l
  rw [write_of_isFinite finite, ← text, first]
  split
  · exact fun letter => absurd (Option.some.inj letter) (by decide)
  · intro letter
    cases letter
    rcases begins with digit | point <;> contradiction

/-- What an expression comes to is not one to evaluate. -/
theorem not_isCalculation_of_evaluate {scale : Scale} {axis : Axis} {text result : String}
    (evaluated : Calc.evaluate scale axis text = .ok result) : isCalculation result = false := by
  obtain ⟨x, computed, rfl⟩ := exists_of_map_eq_ok evaluated
  have other := Number.head?_write_ne_letter (Calc.isFinite_of_pixels computed)
  rw [Bool.eq_false_iff]
  intro calculation
  obtain ⟨rest, begins⟩ := List.isPrefixOf_iff_prefix.mp calculation
  rw [Calc.writePixels, String.toList_ofList] at begins
  cases written : Number.write x with
  | nil =>
    rw [written] at begins
    cases begins
  | cons c more =>
    rw [written] at begins other
    exact other (congrArg some (List.cons.inj begins).1.symm)

namespace Declarations

variable {scale : Scale}

theorem EvaluatesTo.not_isCalculation {entry evaluated : String × String}
    (evaluates : EvaluatesTo scale entry evaluated) : isCalculation evaluated.2 = false := by
  obtain ⟨_, value⟩ := evaluates
  split at value
  · exact not_isCalculation_of_evaluate value
  · rename_i kept
    rw [value, Bool.eq_false_iff]
    exact kept

theorem hasCalculation_eq_false_iff {declarations : Declarations} :
    declarations.hasCalculation = false ↔
      ∀ entry ∈ declarations.entries, isCalculation entry.2 = false := by
  rw [hasCalculation, List.any_eq_false]
  simp only [Bool.not_eq_true]

/-- Once all values are evaluated none is left to evaluate. -/
theorem hasCalculation_of_evaluate {declarations evaluated : Declarations}
    (done : declarations.evaluate scale = .ok evaluated) : evaluated.hasCalculation = false := by
  have none {entries results : List (String × String)}
      (each : List.Forall₂ (EvaluatesTo scale) entries results) :
      ∀ entry ∈ results, isCalculation entry.2 = false := by
    induction each with
    | nil => exact nofun
    | cons first _ ih => exact List.forall_mem_cons.mpr ⟨first.not_isCalculation, ih⟩
  exact hasCalculation_eq_false_iff.mpr (none (forall₂_evaluatesTo done))

end Declarations

theorem Update.declarations_finish (update : Update) (given evaluated : Declarations) :
    (update.finish given evaluated).1.declarations (update.finish given evaluated).2 =
      evaluated := by
  cases update <;> rfl

/-- Whether the declarations that an update answers with have nothing to evaluate. -/
def Updated.Settled (answered : Except LengthFault Updated × Declarations) : Prop :=
  ∀ answer, answered.1 = .ok answer → (answer.declarations answered.2).hasCalculation = false

theorem Update.settled_finish (update : Update) {given evaluated : Declarations}
    (none : evaluated.hasCalculation = false) :
    Updated.Settled (.ok (update.finish given evaluated).1, (update.finish given evaluated).2) := by
  rintro answer ⟨⟩
  rw [declarations_finish]
  exact none

theorem Update.settled_apply (update : Update) (scale : Scale) (given : Declarations) :
    Updated.Settled (update.apply scale given) := by
  cases done : given.evaluate scale with
  | error fault =>
    rw [update.apply_of_error done]
    exact nofun
  | ok evaluated =>
    rw [update.apply_of_ok done]
    exact update.settled_finish (Declarations.hasCalculation_of_evaluate done)

namespace ScaleSource

open Declarations

variable {σ ν : Type}

theorem update_settles (engine : Engine σ ν) (source : ScaleSource ν) (update : Update)
    (given : Declarations) : Gives (source.update engine update given) Updated.Settled := by
  unfold ScaleSource.update
  split
  · exact (Gives.anything _).bind fun scale _ => .pure (update.settled_apply scale given)
  · rename_i none
    exact .pure (update.settled_finish (Bool.not_eq_true _ |>.mp none))

/-- Where there is nothing to evaluate no scale is asked for. -/
theorem update_of_settled (engine : Engine σ ν) (source : ScaleSource ν) (update : Update)
    {settled : Declarations} (none : settled.hasCalculation = false) :
    source.update engine update settled =
      pure (.ok (update.finish settled settled).1, (update.finish settled settled).2) := by
  rw [ScaleSource.update, if_neg (by rw [none]; decide)]

/-- What an update answers with has no value left to evaluate. To update it again, with whatever
engine, source and mode, answers with the same declarations in the same order and asks the engine
for nothing, so that it cannot fail either. -/
theorem update_idempotent {engine : Engine σ ν} {source : ScaleSource ν} {update : Update}
    {given after : Declarations} {answer : Updated} {watched final : Watched σ}
    (updates : source.update engine update given watched = (.ok (.ok answer, after), final)) :
    (∀ entry ∈ (answer.declarations after).entries, isCalculation entry.2 = false) ∧
    ∀ {σ' ν' : Type} (engine' : Engine σ' ν') (source' : ScaleSource ν') (update' : Update),
      ∃ answer',
      source'.update engine' update' (answer.declarations after) =
        pure (.ok answer', answer.declarations after) ∧
        answer'.declarations (answer.declarations after) = answer.declarations after := by
  have settled : (answer.declarations after).hasCalculation = false :=
    (update_settles engine source update given).ok updates answer rfl
  refine ⟨hasCalculation_eq_false_iff.mp settled, fun engine' source' update' => ?_⟩
  have again := update_of_settled engine' source' update' settled
  cases update' with
  | inPlace => exact ⟨.given, again, rfl⟩
  | copy => exact ⟨.copy _, again, rfl⟩

/-- Declarations updated in their container, then again where no size can be taken. -/
theorem update_idempotent_of_failing :
    let given := ofList [("top", "calc(10% + 1px)"), ("color", "red")]
    let failing : Browser := { Browser.ofMetrics {} with failure := some ⟨.create, 0⟩ }
    ∃ answer after final, (container 0 {}).update Browser.engine .copy given ⟨.ofMetrics {}, []⟩ =
      (.ok (.ok answer, after), final) ∧
      ∃ answer', (container 0 {}).update Browser.engine .inPlace
        (answer.declarations after) ⟨failing, []⟩ =
          (.ok (.ok answer', answer.declarations after), ⟨failing, []⟩) ∧
        answer'.declarations (answer.declarations after) = answer.declarations after := by
  intro given failing
  have succeeds :
      (((container 0 {}).update Browser.engine .copy given ⟨.ofMetrics {}, []⟩).1.toOption.bind
        (·.1.toOption)).isSome = true := by
    decide +kernel
  match updates : (container 0 {}).update Browser.engine .copy given ⟨.ofMetrics {}, []⟩ with
  | (.ok (.ok answer, after), final) =>
    obtain ⟨_, again⟩ := update_idempotent updates
    obtain ⟨answer', same, kept⟩ := again Browser.engine (container 0 {}) .inPlace
    exact ⟨answer, after, final, rfl, answer', by rw [same]; rfl, kept⟩
  | (.ok (.error fault, after), final) =>
    rw [updates] at succeeds
    cases succeeds
  | (.error callback, final) =>
    rw [updates] at succeeds
    cases succeeds

end ScaleSource

end CalcLength
