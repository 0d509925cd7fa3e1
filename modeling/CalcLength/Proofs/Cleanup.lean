import CalcLength.Session
import CalcLength.Proofs.Probing

namespace CalcLength

open CalcLength.Action

/-- The container that a step measures, with the settings for it, if it takes a scale from one. -/
def Step.measured? : Step → Option (Nat × ProbeSettings)
  | .measure container settings _ => some (container, settings)
  | .evaluate (.measured container settings) _ _ => some (container, settings)
  | .pixels (.measured container settings) _ _ => some (container, settings)
  | .update (.measured container settings) _ _ => some (container, settings)
  | _ => none

/-- What a step that measures leaves behind: no difference, unless the
removal of the probes has failed. -/
def Cleans (before : Document) (container : Nat) (tag : String) (result : StepResult)
    (document : Document) : Prop :=
  (result ≠ .failed .remove → before.Extends document) ∧
    (result = .failed .remove → before.Carries container tag document)

variable {before : Document} {container : Nat} {tag : String}

theorem Cleans.closed {result : StepResult} {document : Document}
    (cleans : Cleans before container tag result document) : document.Closed := by
  by_cases failed : result = .failed .remove
  · exact (cleans.2 failed).closed
  · exact (cleans.1 failed).closed

/-- What a computation with a measured scale does to the document. -/
def CleansUp {α : Type} (before : Document) (container : Nat) (tag : String)
    (computation : Measuring Browser α) : Prop :=
  Holds (fun watched => watched.state.document = before) computation
    (fun _ watched => before.Extends watched.state.document)
    (fun callback watched => Leaves before container tag callback watched.state.document)

namespace ScaleSource

theorem pixels_cleansUp (closed : before.Closed) (inside : container < before.next)
    (settings : ProbeSettings) (axis : Axis) (text : String) :
    CleansUp before container settings.tag
      ((ScaleSource.container container settings).pixels Browser.engine axis text) :=
  (measure_holds closed inside settings).bind fun _ => .pure fun _ => id

theorem evaluate_cleansUp (closed : before.Closed) (inside : container < before.next)
    (settings : ProbeSettings) (axis : Axis) (text : String) :
    CleansUp before container settings.tag
      ((ScaleSource.container container settings).evaluate Browser.engine axis text) :=
  (measure_holds closed inside settings).bind fun _ => .pure fun _ => id

theorem update_cleansUp (closed : before.Closed) (inside : container < before.next)
    (settings : ProbeSettings) (update : Update) (given : Declarations) :
    CleansUp before container settings.tag
      ((ScaleSource.container container settings).update Browser.engine update given) := by
  unfold ScaleSource.update
  split
  · exact (measure_holds closed inside settings).bind fun _ => .pure fun _ => id
  · refine .pure fun watched here => ?_
    rw [here]
    exact .refl closed

end ScaleSource

namespace Session

theorem run_cleans {α : Type} {computation : Measuring Browser α} {result : α → StepResult}
    (session : Session) (cleansUp : CleansUp session.browser.document container tag computation)
    (value : ∀ a, result a ≠ .failed .remove) :
    Cleans session.browser.document container tag (session.run computation result).1
      (session.run computation result).2.2.browser.document := by
  unfold run
  match ends : computation { state := session.browser, warnings := [] } with
  | (.ok a, watched) => exact ⟨fun _ => cleansUp.ok rfl ends, fun same => absurd same (value a)⟩
  | (.error callback, watched) =>
    have leaves := cleansUp.error rfl ends
    unfold Leaves at leaves
    split at leaves
    · rename_i same
      exact ⟨fun other => absurd (congrArg _ same) other, fun _ => leaves⟩
    · rename_i other
      refine ⟨fun _ => leaves, fun same => ?_⟩
      cases same
      exact absurd rfl other

/-- Keeping a scale touches neither the answer nor the browser. -/
theorem perform_measure (session : Session) (container : Nat) (settings : ProbeSettings)
    (keepAs : Option String) :
    (session.perform (.measure container settings keepAs)).1 =
        (session.run (CalcLength.measure Browser.engine container settings) .scale).1 ∧
      (session.perform (.measure container settings keepAs)).2.2.browser =
        (session.run
          (CalcLength.measure Browser.engine container settings) .scale).2.2.browser := by
  unfold perform
  simp only []
  split
  · rename_i ends
    rw [ends]
    exact ⟨rfl, rfl⟩
  · exact ⟨rfl, rfl⟩

theorem measure_cleans (session : Session) {settings : ProbeSettings} (keepAs : Option String)
    (closed : session.browser.document.Closed)
    (inside : container < session.browser.document.next) :
    Cleans session.browser.document container settings.tag
      (session.perform (.measure container settings keepAs)).1
      (session.perform (.measure container settings keepAs)).2.2.browser.document := by
  have same := session.perform_measure container settings keepAs
  rw [same.1, same.2]
  exact session.run_cleans (measure_holds closed inside settings) nofun

theorem perform_cleans (session : Session) {step : Step} {settings : ProbeSettings}
    (closed : session.browser.document.Closed) (inside : container < session.browser.document.next)
    (measured : step.measured? = some (container, settings)) :
    Cleans session.browser.document container settings.tag (session.perform step).1
      (session.perform step).2.2.browser.document := by
  cases step with
  | measure _ _ keepAs =>
    cases measured
    exact session.measure_cleans keepAs closed inside
  | evaluate choice axis text =>
    cases choice with
    | kept => cases measured
    | measured =>
      cases measured
      exact session.run_cleans (ScaleSource.evaluate_cleansUp closed inside settings axis text)
        nofun
  | pixels choice axis text =>
    cases choice with
    | kept => cases measured
    | measured =>
      cases measured
      exact session.run_cleans (ScaleSource.pixels_cleansUp closed inside settings axis text) nofun
  | update choice update given =>
    cases choice with
    | kept => cases measured
    | measured =>
      cases measured
      exact session.run_cleans (ScaleSource.update_cleansUp closed inside settings update given)
        nofun
  | add => cases measured
  | addDetached => cases measured
  | detach => cases measured
  | attach => cases measured
  | resize => cases measured
  | setMetrics => cases measured
  | setFailure => cases measured
  | compare => cases measured

theorem step_cleans (session : Session) {step : Step} {settings : ProbeSettings}
    (closed : session.browser.document.Closed) (inside : container < session.browser.document.next)
    (measured : step.measured? = some (container, settings)) :
    Cleans session.browser.document container settings.tag (session.step step).1.result
      (session.step step).2.browser.document :=
  perform_cleans { session with browser := { session.browser with calls := [], queries := 0 } }
    closed inside measured

end Session

end CalcLength
