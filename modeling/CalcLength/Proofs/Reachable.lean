import CalcLength.Proofs.Cleanup

namespace CalcLength

/-- The elements that a step names. -/
def Step.nodes : Step → List Nat
  | .add parent _ _ => [parent]
  | .detach node => [node]
  | .attach parent node => [parent, node]
  | .resize node _ => [node]
  | step => step.measured?.toList.map Prod.fst

/-- Whether a step changes no element and no metric by itself: it measures, evaluates,
compares, or tells what is to fail. -/
def Step.isQuiet : Step → Bool
  | .setFailure _ | .measure .. | .compare .. | .evaluate .. | .pixels .. | .update .. => true
  | .add .. | .addDetached .. | .detach _ | .attach .. | .resize .. | .setMetrics _ => false

theorem Step.mem_nodes_of_measured {step : Step} {container : Nat} {settings : ProbeSettings}
    (measured : step.measured? = some (container, settings)) : container ∈ step.nodes := by
  have nodes : step.nodes = step.measured?.toList.map Prod.fst := by
    cases step with
    | add | detach | attach | resize => cases measured
    | addDetached | setMetrics | setFailure | measure | compare | evaluate | pixels | update => rfl
  rw [nodes, measured]
  exact List.mem_singleton_self _

namespace Session

/-- The sessions that steps lead to, from a document of nothing but its root, where each
step names elements that exist. -/
inductive Reachable : Session → Prop
  | start (metrics : Metrics) : Reachable (.ofMetrics metrics)
  | step {session : Session} (reachable : Reachable session) (step : Step)
      (named : ∀ node ∈ step.nodes, node < session.browser.document.next) :
        Reachable (session.step step).2

/-- A computation with a scale that is kept already does not ask the browser. -/
theorem runWith_kept (session : Session) {α : Type} (name : String)
    (computation : ScaleSource Nat → Measuring Browser α) (result : α → StepResult)
    (at_once : ∀ scale, ∃ a, computation (.known scale) = pure a) :
    (session.runWith (.kept name) computation result).2.2.browser = session.browser := by
  unfold runWith source?
  simp only []
  cases session.kept? name with
  | none => rfl
  | some scale =>
    obtain ⟨a, same⟩ := at_once scale
    simp only [run, same]
    rfl

/-- Without a container to measure, a quiet step does not ask the browser for anything. -/
theorem perform_unmeasured (session : Session) {step : Step} (quiet : step.isQuiet)
    (unmeasured : step.measured? = none) :
    (session.perform step).2.2.browser.document = session.browser.document := by
  have kept {α : Type} (name : String) (computation : ScaleSource Nat → Measuring Browser α)
      (result : α → StepResult) (at_once : ∀ scale, ∃ a, computation (.known scale) = pure a) :
      (session.runWith (.kept name) computation result).2.2.browser.document =
        session.browser.document := by
    rw [session.runWith_kept name computation result at_once]
  cases step with
  | setFailure | compare => rfl
  | evaluate choice axis text =>
    cases choice with
    | kept name => exact kept name _ _ fun scale => ⟨_, rfl⟩
    | measured => cases unmeasured
  | pixels choice axis text =>
    cases choice with
    | kept name => exact kept name _ _ fun scale => ⟨_, rfl⟩
    | measured => cases unmeasured
  | update choice update given =>
    cases choice with
    | kept name =>
      refine kept name _ _ fun scale => ?_
      unfold ScaleSource.update
      split
      · exact ⟨_, rfl⟩
      · exact ⟨_, rfl⟩
    | measured => cases unmeasured
  | measure => cases unmeasured
  | add | addDetached | detach | attach | resize | setMetrics => cases quiet

variable {session : Session}

/-- Where the elements named exist, a step names none that do not. -/
theorem perform_closed (closed : session.browser.document.Closed) {step : Step}
    (named : ∀ node ∈ step.nodes, node < session.browser.document.next) :
    (session.perform step).2.2.browser.document.Closed := by
  by_cases quiet : step.isQuiet
  · cases measured : step.measured? with
    | none =>
      rw [session.perform_unmeasured quiet measured]
      exact closed
    | some container =>
      exact (session.perform_cleans closed (named container.1 (Step.mem_nodes_of_measured measured))
        measured).closed
  · cases step with
    | add parent name size =>
      have old := named parent (List.mem_cons_self ..)
      refine (closed.create name none size).append ?_ ?_
      · rw [Document.next_create]
        exact Nat.lt_succ_of_lt old
      · rw [Document.next_create]
        exact Nat.lt_succ_self _
    | addDetached name size => exact closed.create name none size
    | detach node => exact closed.detach node
    | attach parent node =>
      exact closed.append (named parent (by simp [Step.nodes])) (named node (by simp [Step.nodes]))
    | resize node size => exact closed.resize node size
    | setMetrics change =>
      show (session.browser.updateMetrics change).document.Closed
      unfold Browser.updateMetrics
      simp only []
      split
      · exact closed.resize 0 _
      · exact closed
    | setFailure | measure | compare | evaluate | pixels | update => exact absurd rfl quiet

/-- In every session that is reached, all elements that an element names exist. -/
theorem Reachable.closed (reachable : session.Reachable) : session.browser.document.Closed := by
  induction reachable with
  | start metrics => exact .ofRoot metrics.viewport
  | @step session _ step named ih =>
    exact @perform_closed
      { session with browser := { session.browser with calls := [], queries := 0 } } ih step named

/-- However a step that measures a container ends, and whichever callback fails at whichever call:
unless the removal of the probes has failed, the elements that there were are as they were and
lead to no new one; and if it has failed, the one difference is that the root of the probes is the
first child of the container. -/
theorem step_restores_document (reachable : session.Reachable) {step : Step} {container : Nat}
    {settings : ProbeSettings} (inside : container < session.browser.document.next)
    (measured : step.measured? = some (container, settings)) :
    ((session.step step).1.result ≠ .failed .remove →
      session.browser.document.Restores (session.step step).2.browser.document) ∧
    ((session.step step).1.result = .failed .remove →
      session.browser.document.Carries container settings.tag
        (session.step step).2.browser.document) := by
  have closed := reachable.closed
  have cleans := session.step_cleans closed inside measured
  exact ⟨fun other => (cleans.1 other).restores closed, cleans.2⟩

theorem step_restores_document_of_start :
    (((ofMetrics {}).step (.measure 0 {} none)).1.result ≠ .failed .remove →
      (ofMetrics {}).browser.document.Restores
        ((ofMetrics {}).step (.measure 0 {} none)).2.browser.document) ∧
    (((ofMetrics {}).step (.measure 0 {} none)).1.result = .failed .remove →
      (ofMetrics {}).browser.document.Carries 0 ordinaryTag
        ((ofMetrics {}).step (.measure 0 {} none)).2.browser.document) :=
  have measured : (Step.measure 0 {} none).measured? = some (0, {}) := rfl
  step_restores_document (.start {}) Nat.zero_lt_one measured

end Session

end CalcLength
