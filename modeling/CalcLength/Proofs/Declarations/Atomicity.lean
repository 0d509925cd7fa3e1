import CalcLength.Browser
import CalcLength.Proofs.Action
import CalcLength.Proofs.Declarations.Merging

namespace CalcLength

namespace Declarations

/-- Whether a declaration is another with its value evaluated, or that declaration itself if its
value is not one to evaluate. -/
def EvaluatesTo (scale : Scale) (entry evaluated : String × String) : Prop :=
  evaluated.1 = entry.1 ∧
    if isCalculation entry.2 then
      Calc.evaluate scale (Axis.ofProperty entry.1) entry.2 = .ok evaluated.2
    else evaluated.2 = entry.2

/-- Whether a fault keeps a declaration's value from being evaluated. -/
def Fails (scale : Scale) (entry : String × String) (fault : LengthFault) : Prop :=
  isCalculation entry.2 ∧ Calc.evaluate scale (Axis.ofProperty entry.1) entry.2 = .error fault

/-- Whether a fault is that of the first declaration that has one. -/
def FailsFirst (scale : Scale) (entries : List (String × String)) (fault : LengthFault) : Prop :=
  ∃ before entry after, entries = before ++ entry :: after ∧ Fails scale entry fault ∧
    ∀ earlier ∈ before, ∀ other, ¬Fails scale earlier other

variable {scale : Scale} {entry evaluated : String × String} {fault : LengthFault}

theorem evaluateOrKeep_eq_ok_iff :
    evaluateOrKeep scale entry = .ok evaluated ↔ EvaluatesTo scale entry evaluated := by
  obtain ⟨name, value⟩ := entry
  obtain ⟨name', value'⟩ := evaluated
  unfold evaluateOrKeep evaluateEntry EvaluatesTo
  split
  · cases Calc.evaluate scale (Axis.ofProperty name) value with
    | error fault => exact ⟨nofun, fun ⟨_, done⟩ => nomatch done⟩
    | ok result =>
      constructor
      · rintro ⟨⟩
        exact ⟨rfl, rfl⟩
      · rintro ⟨rfl, ⟨⟩⟩
        rfl
  · constructor
    · rintro ⟨⟩
      exact ⟨rfl, rfl⟩
    · rintro ⟨rfl, rfl⟩
      rfl

theorem evaluateOrKeep_eq_error_iff :
    evaluateOrKeep scale entry = .error fault ↔ Fails scale entry fault := by
  unfold evaluateOrKeep evaluateEntry Fails
  split
  · rename_i calculation
    rw [calculation, eq_self, true_and]
    cases Calc.evaluate scale (Axis.ofProperty entry.1) entry.2 with
    | error fault => simp only [Except.map, Except.error.injEq]
    | ok value => exact ⟨nofun, nofun⟩
  · rename_i kept
    exact ⟨nofun, fun fails => absurd fails.1 kept⟩

theorem mapM_evaluateOrKeep_eq_error_iff {entries : List (String × String)} :
    entries.mapM (evaluateOrKeep scale) = .error fault ↔ FailsFirst scale entries fault := by
  rw [mapM_eq_error_iff]
  simp only [evaluateOrKeep_eq_error_iff, ne_eq]
  rfl

theorem evaluate_eq_error_iff {declarations : Declarations} :
    declarations.evaluate scale = .error fault ↔ FailsFirst scale declarations.entries fault := by
  rw [← mapM_evaluateOrKeep_eq_error_iff, ← entries_evaluate]
  cases declarations.evaluate scale with
  | error _ => simp only [Except.map, Except.error.injEq]
  | ok _ => exact ⟨nofun, nofun⟩

theorem forall₂_evaluatesTo {declarations after : Declarations}
    (done : declarations.evaluate scale = .ok after) :
    List.Forall₂ (EvaluatesTo scale) declarations.entries after.entries := by
  have evaluated := @entries_evaluate scale declarations
  rw [done] at evaluated
  have each := mapM_eq_ok_iff.mp evaluated.symm
  exact each.imp fun _ _ => evaluateOrKeep_eq_ok_iff.mp

theorem names_evaluate {declarations after : Declarations}
    (done : declarations.evaluate scale = .ok after) : after.names = declarations.names := by
  have same {entries results : List (String × String)}
      (each : List.Forall₂ (EvaluatesTo scale) entries results) :
      results.map Prod.fst = entries.map Prod.fst := by
    induction each with
    | nil => rfl
    | cons first _ ih => rw [List.map_cons, List.map_cons, ih, first.1]
  exact same (forall₂_evaluatesTo done)

/-- A fault is met if and only if some declaration has one. -/
theorem exists_failsFirst_iff {entries : List (String × String)} :
    (∃ fault, FailsFirst scale entries fault) ↔
      ∃ entry ∈ entries, ∃ fault, Fails scale entry fault := by
  constructor
  · rintro ⟨fault, before, entry, after, rfl, fails, _⟩
    exact ⟨entry, List.mem_append_right _ (List.mem_cons_self ..), fault, fails⟩
  · rintro ⟨entry, member, fault, fails⟩
    cases outcome : entries.mapM (evaluateOrKeep scale) with
    | error first => exact ⟨first, mapM_evaluateOrKeep_eq_error_iff.mp outcome⟩
    | ok results =>
      obtain ⟨_, done⟩ := exists_ok_of_mem outcome member
      cases done.symm.trans (evaluateOrKeep_eq_error_iff.mpr fails)

theorem evaluate_of_no_calculation {declarations : Declarations}
    (none : declarations.hasCalculation = false) :
    declarations.evaluate scale = .ok declarations := by
  have nothing : declarations.calculations = [] := by
    rw [calculations, List.filter_eq_nil_iff]
    exact List.any_eq_false.mp none
  rw [evaluate, nothing]
  rfl

end Declarations

theorem Update.apply_of_ok {scale : Scale} {given evaluated : Declarations} (update : Update)
    (done : given.evaluate scale = .ok evaluated) :
    update.apply scale given =
      (.ok (update.finish given evaluated).1, (update.finish given evaluated).2) := by
  rw [Update.apply, done]

theorem Update.apply_of_error {scale : Scale} {given : Declarations} {fault : LengthFault}
    (update : Update) (fails : given.evaluate scale = .error fault) :
    update.apply scale given = (.error fault, given) := by
  rw [Update.apply, fails]

/-- The declarations that an update answers with are those with each
value evaluated in its place. -/
theorem Update.entries_apply (update : Update) (scale : Scale) (given : Declarations) :
    ((update.apply scale given).1.map fun answer =>
      (answer.declarations (update.apply scale given).2).entries) =
      given.entries.mapM (Declarations.evaluateOrKeep scale) := by
  rw [← Declarations.entries_evaluate]
  cases done : given.evaluate scale with
  | error fault =>
    rw [update.apply_of_error done]
    rfl
  | ok evaluated =>
    rw [update.apply_of_ok done]
    cases update <;> rfl

namespace ScaleSource

open Declarations

variable {σ ν : Type} {engine : Engine σ ν} {scale : Scale} {source : ScaleSource ν}
    {watched measured : Watched σ}

/-- Once its scale is known, an update depends on nothing else, whether
or not it asks for the scale. -/
theorem update_eq (measures : source.scale engine watched = (.ok scale, measured)) (update : Update)
    (given : Declarations) :
    source.update engine update given watched =
      (.ok (update.apply scale given), if given.hasCalculation then measured else watched) := by
  unfold ScaleSource.update
  split
  · rw [Action.Holds.bind_apply, measures]
    rfl
  · rename_i none
    rw [update.apply_of_ok (evaluate_of_no_calculation (Bool.not_eq_true _ |>.mp none))]
    rfl

/-- Where every value that is one to evaluate can be evaluated, both ways to update give the same
declarations: each property in its place, with the value its own comes to or else its own. They
differ in where these declarations are written. -/
theorem update_of_evaluable (engine : Engine σ ν) {given : Declarations}
    (evaluable : ∀ entry ∈ given.entries, isCalculation entry.2 →
      ∃ value, Calc.evaluate scale (Axis.ofProperty entry.1) entry.2 = .ok value) :
    ∃ evaluated : Declarations, evaluated.names = given.names ∧
      List.Forall₂ (EvaluatesTo scale) given.entries evaluated.entries ∧
      ∀ watched,
        (known scale).update engine .inPlace given watched =
          (.ok (.ok .given, evaluated), watched) ∧
        (known scale).update engine .copy given watched =
          (.ok (.ok (.copy evaluated), given), watched) := by
  have known_scale (watched : Watched σ) :
      (known scale : ScaleSource ν).scale engine watched = (.ok scale, watched) := rfl
  cases done : given.evaluate scale with
  | error fault =>
    obtain ⟨before, entry, after, same, ⟨calculation, fails⟩, _⟩ := evaluate_eq_error_iff.mp done
    have member : entry ∈ given.entries := by
      rw [same]
      exact List.mem_append_right _ (List.mem_cons_self ..)
    obtain ⟨value, good⟩ := evaluable entry member calculation
    cases good.symm.trans fails
  | ok evaluated =>
    refine ⟨evaluated, names_evaluate done, forall₂_evaluatesTo done, fun watched => ?_⟩
    rw [update_eq (known_scale watched), update_eq (known_scale watched), Update.apply_of_ok _ done,
      Update.apply_of_ok _ done, ite_self]
    exact ⟨rfl, rfl⟩

theorem update_of_evaluable_height :
    (∀ entry ∈ (ofList [("top", "calc(10%)"), ("color", "red")]).entries, isCalculation entry.2 →
      ∃ value, Calc.evaluate (.ofPercents 2 3) (Axis.ofProperty entry.1) entry.2 = .ok value) ∧
    ∃ evaluated : Declarations, evaluated.entries = [("top", "30px"), ("color", "red")] ∧
      ∀ watched : Watched Browser,
        (known (.ofPercents 2 3)).update Browser.engine .inPlace
          (ofList [("top", "calc(10%)"), ("color", "red")]) watched =
          (.ok (.ok .given, evaluated), watched) ∧
        (known (.ofPercents 2 3)).update Browser.engine .copy
          (ofList [("top", "calc(10%)"), ("color", "red")]) watched =
          (.ok (.ok (.copy evaluated), ofList [("top", "calc(10%)"), ("color", "red")]),
            watched) := by
  have entries : (ofList [("top", "calc(10%)"), ("color", "red")]).entries =
      [("top", "calc(10%)"), ("color", "red")] := by
    decide
  have top : Calc.evaluate (.ofPercents 2 3) (Axis.ofProperty "top") "calc(10%)" = .ok "30px" := by
    decide +kernel
  have evaluable :
      ∀ entry ∈ (ofList [("top", "calc(10%)"), ("color", "red")]).entries, isCalculation entry.2 →
        ∃ value, Calc.evaluate (.ofPercents 2 3) (Axis.ofProperty entry.1) entry.2 = .ok value := by
    rw [entries]
    intro entry member calculation
    rcases List.mem_pair.mp member with rfl | rfl
    · exact ⟨_, top⟩
    · exact absurd calculation (by decide)
  obtain ⟨evaluated, _, each, updates⟩ := update_of_evaluable Browser.engine evaluable
  refine ⟨evaluable, evaluated, ?_, updates⟩
  rw [entries] at each
  obtain ⟨⟨name, value⟩, _, ⟨rfl, first⟩, rest, same⟩ := List.forall₂_cons_left_iff.mp each
  obtain ⟨⟨name', value'⟩, _, ⟨rfl, second⟩, last, rfl⟩ := List.forall₂_cons_left_iff.mp rest
  cases List.forall₂_nil_left_iff.mp last
  cases top.symm.trans first
  cases second
  exact same

/-- An update fails if and only if a value cannot be evaluated. It fails with the fault of the first
such value, and then the declarations are what they were. -/
theorem update_all_or_nothing (measures : source.scale engine watched = (.ok scale, measured))
    (update : Update) (given : Declarations) :
    ∃ outcome final, source.update engine update given watched = (.ok outcome, final) ∧
      ((∃ fault, outcome.1 = .error fault) ↔
        ∃ entry ∈ given.entries, ∃ fault, Fails scale entry fault) ∧
      ∀ fault, outcome.1 = .error fault → FailsFirst scale given.entries fault ∧
        outcome.2 = given := by
  refine ⟨_, _, update_eq measures update given, ?_⟩
  rw [← exists_failsFirst_iff]
  simp only [← evaluate_eq_error_iff]
  cases done : given.evaluate scale with
  | error fault =>
    rw [update.apply_of_error done]
    refine ⟨iff_of_true ⟨fault, rfl⟩ ⟨fault, rfl⟩, ?_⟩
    rintro _ ⟨⟩
    exact ⟨rfl, rfl⟩
  | ok evaluated =>
    rw [update.apply_of_ok done]
    exact ⟨iff_of_false (fun ⟨_, fails⟩ => nomatch fails) (fun ⟨_, fails⟩ => nomatch fails), nofun⟩

theorem update_all_or_nothing_of_root :
    ∃ scale measured,
      (container 0 {}).scale Browser.engine ⟨.ofMetrics {}, []⟩ = (.ok scale, measured) ∧
      ∃ outcome final,
        (container 0 {}).update Browser.engine .inPlace
          (ofList [("top", "calc(10%)"), ("left", "calc(1 +)")])
          ⟨.ofMetrics {}, []⟩ = (.ok outcome, final) ∧
        ((∃ fault, outcome.1 = .error fault) ↔
          ∃ entry ∈ (ofList [("top", "calc(10%)"), ("left", "calc(1 +)")]).entries,
            ∃ fault, Fails scale entry fault) ∧
        ∀ fault, outcome.1 = .error fault →
          FailsFirst scale (ofList [("top", "calc(10%)"), ("left", "calc(1 +)")]).entries fault ∧
            outcome.2 = ofList [("top", "calc(10%)"), ("left", "calc(1 +)")] := by
  have succeeds : ((container 0 {}).scale Browser.engine ⟨.ofMetrics {}, []⟩).1.toBool = true := by
    decide +kernel
  match measures : (container 0 {}).scale Browser.engine ⟨.ofMetrics {}, []⟩ with
  | (.ok scale, measured) => exact ⟨scale, measured, rfl, update_all_or_nothing measures ..⟩
  | (.error callback, measured) =>
    rw [measures] at succeeds
    cases succeeds

end ScaleSource

end CalcLength
