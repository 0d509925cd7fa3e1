import CalcLength.Proofs.Declarations.Atomicity
import CalcLength.Proofs.Repetition

namespace CalcLength

open CalcLength.Action CalcLength.Declarations

namespace ScaleSource

variable {σ ν : Type} {engine : Engine σ ν} {source : ScaleSource ν} {scale : Scale}
    {kept : Watched σ → Prop}

/-- Evaluates the values of declarations one after the other, and asks for the scale anew for
each that is one to evaluate. -/
def evaluateEach (engine : Engine σ ν) (source : ScaleSource ν) :
    List (String × String) → Measuring σ (Except LengthFault (List (String × String)))
  | [] => return .ok []
  | entry :: entries => do
    if isCalculation entry.2 then
      match ← source.evaluate engine (Axis.ofProperty entry.1) entry.2 with
      | .error fault => return .error fault
      | .ok value => return (← evaluateEach engine source entries).map ((entry.1, value) :: ·)
    else return (← evaluateEach engine source entries).map (entry :: ·)

section Returns

variable (gives : Returns kept (source.scale engine) scale)
include gives

theorem pixels_returns (axis : Axis) (text : String) :
    Returns kept (source.pixels engine axis text) (Calc.pixels scale axis text.toList) :=
  gives.bind (.pure _)

theorem evaluate_returns (axis : Axis) (text : String) :
    Returns kept (source.evaluate engine axis text) (Calc.evaluate scale axis text) :=
  gives.bind (.pure _)

theorem update_returns (update : Update) (given : Declarations) :
    Returns kept (source.update engine update given) (update.apply scale given) := by
  unfold ScaleSource.update
  split
  · exact gives.bind (.pure _)
  · rename_i none
    rw [update.apply_of_ok (evaluate_of_no_calculation (Bool.not_eq_true _ |>.mp none))]
    exact .pure _

theorem evaluateEach_returns (entries : List (String × String)) :
    Returns kept (source.evaluateEach engine entries) (entries.mapM (evaluateOrKeep scale)) := by
  induction entries with
  | nil => exact .pure _
  | cons entry entries ih =>
    have rest (first : String × String) :
        Returns kept (do return (← source.evaluateEach engine entries).map (first :: ·))
          (do return first :: (← entries.mapM (evaluateOrKeep scale))) := by
      have same (results : Except LengthFault (List (String × String))) :
          (do return first :: (← results)) = results.map (first :: ·) := by
        cases results with
        | error fault => rfl
        | ok results => rfl
      rw [same]
      exact ih.bind (.pure _)
    unfold evaluateEach
    rw [List.mapM_cons, evaluateOrKeep]
    split
    · refine (evaluate_returns gives _ _).bind ?_
      rw [evaluateEntry]
      cases Calc.evaluate scale (Axis.ofProperty entry.1) entry.2 with
      | error fault => exact .pure _
      | ok value => exact rest (entry.1, value)
    · exact rest entry

/-- Where a source gives the same scale whenever it is asked, asking once comes to the
same as asking for each value. -/
theorem update_evaluateEach (update : Update) (given : Declarations) {watched : Watched σ}
    (here : kept watched) :
    ∃ outcome final final', source.update engine update given watched = (.ok outcome, final) ∧
      source.evaluateEach engine given.entries watched =
        (.ok (outcome.1.map fun answer => (answer.declarations outcome.2).entries), final') ∧
          kept final ∧ kept final' := by
  obtain ⟨final, updated, there⟩ := (update_returns gives update given).exists_eq here
  obtain ⟨final', evaluated, there'⟩ := (evaluateEach_returns gives given.entries).exists_eq here
  rw [← update.entries_apply] at evaluated
  exact ⟨_, final, final', updated, evaluated, there, there'⟩

end Returns

end ScaleSource

/-- Whether a browser lays out a document, but for elements apart from it, by these
metrics and without failures. -/
structure Browser.Continues (base : Document) (metrics : Metrics) (browser : Browser) : Prop where
  extends_ : base.Extends browser.document
  metrics : browser.metrics = metrics
  calm : browser.failure = none

/-- In a forest and without failures, a container gives the same scale whenever it is measured. -/
theorem ScaleSource.scale_returns {base : Document} {container : Nat} (metrics : Metrics)
    (closed : base.Closed) (forest : base.IsForest) (inside : container < base.next)
    (settings : ProbeSettings) :
    Returns (fun watched => watched.state.Continues base metrics)
      ((ScaleSource.container container settings).scale Browser.engine)
      (base.scaleIn metrics container settings.usedCalibration) := by
  intro watched here
  have reports := measure_reports metrics closed forest inside here.extends_.keepsLayout
    here.extends_.closed settings
  have cleans :=
    measure_holds here.extends_.closed (Nat.lt_of_lt_of_le inside here.extends_.le) settings
  have same := measure_keeps (Browser.engine_keeps_metrics metrics) container settings
  have calm := measure_keeps Browser.engine_keeps_calm container settings
  refine ((reports.and cleans).and (same.and calm)).mono (fun _ => id) ?_
    (fun _ _ failed => failed.2.2.1) watched
    ⟨⟨⟨rfl, here.metrics⟩, rfl⟩, here.metrics, here.calm⟩
  rintro scale measured ⟨⟨given, extends_⟩, metrics, calm⟩
  exact ⟨given, here.extends_.trans extends_, metrics, calm⟩

namespace Session

variable {session : Session} {container : Nat} {settings : ProbeSettings}

/-- In a forest where no callback fails, updating declarations with one measurement comes to the
same, fault or declarations, as evaluating their values one after the other with a measurement for
each, and both leave the same tree. And an expression has the value that it has by a scale measured
at any time since which there were quiet steps only. -/
theorem update_eq_evaluateEach (reachable : session.Reachable)
    (forest : session.browser.document.IsForest) (calm : session.browser.failure = none)
    (inside : container < session.browser.document.next) :
    (∀ (update : Update) (given : Declarations) (warnings : List Warning), ∃ outcome final final',
      (ScaleSource.container container settings).update Browser.engine update given
          ⟨session.browser, warnings⟩ = (.ok outcome, final) ∧
        (ScaleSource.container container settings).evaluateEach Browser.engine given.entries
            ⟨session.browser, warnings⟩ =
          (.ok (outcome.1.map fun answer => (answer.declarations outcome.2).entries), final') ∧
        session.browser.document.Restores final.state.document ∧
        session.browser.document.Restores final'.state.document ∧
        final.state.document.text = final'.state.document.text) ∧
    ∀ (first : Session) (keepAs : Option String) (scale : Scale), first.Reachable →
      container < first.browser.document.next →
      (first.step (.measure container settings keepAs)).1.result = .scale scale →
      QuietRun (first.step (.measure container settings keepAs)).2 session →
      ∀ (axis : Axis) (text : String) (warnings : List Warning),
        ((ScaleSource.container container settings).pixels Browser.engine axis text
            ⟨session.browser, warnings⟩).1 =
          ((ScaleSource.known scale).pixels Browser.engine axis text
            ⟨session.browser, warnings⟩).1 := by
  have closed := reachable.closed
  have gives := ScaleSource.scale_returns session.browser.metrics closed forest inside settings
  have start (warnings : List Warning) :
      (⟨session.browser, warnings⟩ : Watched Browser).state.Continues
        session.browser.document session.browser.metrics := ⟨.refl closed, rfl, calm⟩
  constructor
  · intro update given warnings
    obtain ⟨outcome, final, final', updated, evaluated, there, there'⟩ :=
      ScaleSource.update_evaluateEach gives update given (start warnings)
    refine ⟨outcome, final, final', updated, evaluated, there.extends_.restores closed,
      there'.extends_.restores closed, ?_⟩
    have some_element := Nat.zero_lt_of_lt inside
    exact (there.extends_.text closed forest some_element).trans
      (there'.extends_.text closed forest some_element).symm
  · intro first keepAs scale reachable' inside' answered run axis text warnings
    have run := run.of_measure inside' answered
    have extends_ := run.extends_ reachable'.closed
    have forest' := extends_.isForest reachable'.closed forest
    have same :=
      step_measure_eq reachable'.closed forest' inside' (.refl reachable'.closed) answered
    have gives :=
      ScaleSource.scale_returns first.browser.metrics reachable'.closed forest' inside' settings
    have here : (⟨session.browser, warnings⟩ : Watched Browser).state.Continues
        first.browser.document first.browser.metrics :=
      ⟨extends_, run.metrics, calm⟩
    obtain ⟨final, evaluated, _⟩ := (ScaleSource.pixels_returns gives axis text).exists_eq here
    rw [evaluated, ← same]
    rfl

theorem update_eq_evaluateEach_of_page :
    let measured := (page.step (.measure 1 {} none)).2
    let given := ofList [("top", "calc(10%)"), ("left", "calc(1 +)")]
    ∃ scale, (page.step (.measure 1 {} none)).1.result = .scale scale ∧
      (∃ outcome final final',
        (ScaleSource.container 1 {}).update Browser.engine .copy given ⟨measured.browser, []⟩ =
          (.ok outcome, final) ∧
        (ScaleSource.container 1 {}).evaluateEach Browser.engine given.entries
            ⟨measured.browser, []⟩ =
          (.ok (outcome.1.map fun answer => (answer.declarations outcome.2).entries), final') ∧
        measured.browser.document.Restores final.state.document ∧
        measured.browser.document.Restores final'.state.document ∧
        final.state.document.text = final'.state.document.text) ∧
      ((ScaleSource.container 1 {}).pixels Browser.engine .horizontal "calc(2em + 10%)"
          ⟨measured.browser, []⟩).1 =
        ((ScaleSource.known scale).pixels Browser.engine .horizontal "calc(2em + 10%)"
          ⟨measured.browser, []⟩).1 := by
  intro measured given
  have answers : (page.step (.measure 1 {} none)).1.result.scale?.isSome := by decide +kernel
  obtain ⟨scale, answered⟩ := Option.isSome_iff_exists.mp answers
  have answered := StepResult.scale?_eq_some answered
  have reachable : measured.Reachable := .step page_reachable _ fun node member => by
    rw [List.mem_singleton.mp member]
    decide
  have forest : measured.browser.document.IsForest :=
    reachable.closed.isForest (by decide +kernel) (by decide +kernel) (by decide +kernel)
  have calm : measured.browser.failure = none := by decide +kernel
  have inside : 1 < measured.browser.document.next := by decide +kernel
  obtain ⟨updates, values⟩ := update_eq_evaluateEach reachable forest calm inside
  refine ⟨scale, answered, updates .copy given [], ?_⟩
  exact values page none scale page_reachable (by decide) answered (.refl _) .horizontal _ []

end Session

end CalcLength
