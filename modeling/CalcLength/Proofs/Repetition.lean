import CalcLength.Proofs.Measurement
import CalcLength.Proofs.Reachable

namespace CalcLength

open CalcLength.Action

/-- The scale that a step has answered with. -/
def StepResult.scale? : StepResult → Option Scale
  | .scale answer => some answer
  | _ => none

theorem StepResult.scale?_eq_some {result : StepResult} {scale : Scale}
    (answered : result.scale? = some scale) : result = .scale scale := by
  cases result with
  | scale => exact congrArg _ (Option.some.inj answered)
  | node | done | compared | length | pixels | updated | failed | unknownName => cases answered

/-- The callback that has failed in a step. -/
def StepResult.failed? : StepResult → Option Callback
  | .failed callback => some callback
  | _ => none

namespace Session

/-- Whether quiet steps lead from a session to a later one, and none of them ended where the
probes could not be removed. -/
inductive QuietRun : Session → Session → Prop
  | refl (session : Session) : QuietRun session session
  | step {first session : Session} (run : QuietRun first session)
      (step : Step) (quiet : step.isQuiet)
      (named : ∀ node ∈ step.nodes, node < session.browser.document.next)
      (removed : (session.step step).1.result ≠ .failed .remove) :
        QuietRun first (session.step step).2

/-- Whether a computation keeps the metrics, however it ends. -/
def KeepsMetrics {α : Type} (computation : Measuring Browser α) : Prop :=
  ∀ metrics, Holds (fun watched => watched.state.metrics = metrics) computation
    (fun _ watched => watched.state.metrics = metrics)
    fun _ watched => watched.state.metrics = metrics

theorem scale_keepsMetrics (source : ScaleSource Nat) :
    KeepsMetrics (source.scale Browser.engine) :=
  fun metrics => (source.scale_keeps (Browser.engine_keeps_metrics metrics)).mono (fun _ => id)
    (fun _ _ => id) fun _ _ => And.right

theorem run_metrics {α : Type} {computation : Measuring Browser α} (session : Session)
    (result : α → StepResult) (keeps : KeepsMetrics computation) :
    (session.run computation result).2.2.browser.metrics = session.browser.metrics := by
  unfold run
  match ends : computation { state := session.browser, warnings := [] } with
  | (.ok a, watched) => exact (keeps _).ok rfl ends
  | (.error callback, watched) => exact (keeps _).error rfl ends

theorem runWith_metrics {α : Type} (session : Session) (choice : ScaleChoice)
    (computation : ScaleSource Nat → Measuring Browser α) (result : α → StepResult)
    (keeps : ∀ source, KeepsMetrics (computation source)) :
    (session.runWith choice computation result).2.2.browser.metrics = session.browser.metrics := by
  unfold runWith
  split
  · exact session.run_metrics result (keeps _)
  · rfl

theorem perform_metrics (session : Session) {step : Step} (quiet : step.isQuiet) :
    (session.perform step).2.2.browser.metrics = session.browser.metrics := by
  -- Whatever is done with a scale, the browser is asked for nothing but the scale.
  have asked {α : Type} (value : Scale → α) (source : ScaleSource Nat) :
      KeepsMetrics (do return value (← source.scale Browser.engine)) :=
    fun metrics => (scale_keepsMetrics source metrics).bind fun _ => .pure fun _ => id
  cases step with
  | setFailure | compare => rfl
  | measure container settings keepAs =>
    rw [(session.perform_measure container settings keepAs).2]
    exact session.run_metrics .scale (scale_keepsMetrics (.container container settings))
  | evaluate choice axis text => exact session.runWith_metrics choice _ _ (asked _)
  | pixels choice axis text => exact session.runWith_metrics choice _ _ (asked _)
  | update choice update given =>
    refine session.runWith_metrics choice _ _ fun source => ?_
    unfold ScaleSource.update
    split
    · exact asked _ source
    · exact fun metrics => .pure fun _ => id
  | add | addDetached | detach | attach | resize | setMetrics => cases quiet

/-- A quiet step may add elements that nothing leads to, and nothing else. -/
theorem perform_extends (session : Session) {step : Step} (closed : session.browser.document.Closed)
    (quiet : step.isQuiet) (named : ∀ node ∈ step.nodes, node < session.browser.document.next)
    (removed : (session.perform step).1 ≠ .failed .remove) :
    session.browser.document.Extends (session.perform step).2.2.browser.document := by
  cases measured : step.measured? with
  | none =>
    rw [session.perform_unmeasured quiet measured]
    exact .refl closed
  | some container =>
    exact (session.perform_cleans closed (named container.1 (Step.mem_nodes_of_measured measured))
      measured).1 removed

namespace QuietRun

variable {first later : Session}

/-- Each step has left the elements as they were before it. -/
theorem extends_ (run : QuietRun first later) (closed : first.browser.document.Closed) :
    first.browser.document.Extends later.browser.document := by
  induction run with
  | refl => exact .refl closed
  | @step session run step quiet named removed ih =>
    exact ih.trans (perform_extends
      { session with browser := { session.browser with calls := [], queries := 0 } }
      ih.closed quiet named removed)

theorem trans {middle : Session} (run : QuietRun first middle) (run' : QuietRun middle later) :
    QuietRun first later := by
  induction run' with
  | refl => exact run
  | step _ step quiet named removed ih => exact ih.step step quiet named removed

theorem metrics (run : QuietRun first later) : later.browser.metrics = first.browser.metrics := by
  induction run with
  | refl => rfl
  | @step session run step quiet named removed ih =>
    exact (perform_metrics
      { session with browser := { session.browser with calls := [], queries := 0 } } quiet).trans ih

end QuietRun

variable {session later : Session} {container : Nat} {settings : ProbeSettings}

/-- A step answers with the scale that it measures. -/
theorem measure_of_perform {keepAs : Option String} {scale : Scale}
    (answered : (session.perform (.measure container settings keepAs)).1 = .scale scale) :
    ∃ watched, measure Browser.engine container settings ⟨session.browser, []⟩ =
      (.ok scale, watched) := by
  rw [(session.perform_measure container settings keepAs).1] at answered
  unfold run at answered
  match ends : measure Browser.engine container settings ⟨session.browser, []⟩ with
  | (.ok scale, watched) =>
    rw [ends] at answered
    cases answered
    exact ⟨watched, rfl⟩
  | (.error callback, watched) =>
    rw [ends] at answered
    cases answered

/-- Whatever has been added to a forest since, a step answers with the scale
that the container has in it. -/
theorem step_measure_eq {before : Document} {keepAs : Option String} {scale : Scale}
    (closed : before.Closed) (forest : before.IsForest) (inside : container < before.next)
    (extends_ : before.Extends session.browser.document)
    (answered : (session.step (.measure container settings keepAs)).1.result = .scale scale) :
    scale = before.scaleIn session.browser.metrics container settings.usedCalibration := by
  obtain ⟨watched, measured⟩ := measure_of_perform answered
  exact (measure_reports _ closed forest inside extends_.keepsLayout extends_.closed settings).ok
    ⟨rfl, rfl⟩ measured

/-- A step that has answered with a scale is itself quiet. -/
theorem QuietRun.of_measure (inside : container < session.browser.document.next)
    {keepAs : Option String} {scale : Scale}
    (answered : (session.step (.measure container settings keepAs)).1.result = .scale scale)
    (run : QuietRun (session.step (.measure container settings keepAs)).2 later) :
    QuietRun session later := by
  refine QuietRun.trans (.step (.refl session) _ rfl (fun node member => ?_) ?_) run
  · rwa [List.mem_singleton.mp member]
  · rw [answered]
    exact nofun

/-- A scale that is measured again is the scale that was measured before, if only quiet steps came
between, whatever they answered and whichever of them failed. -/
theorem measure_repeats (reachable : session.Reachable) (forest : session.browser.document.IsForest)
    (inside : container < session.browser.document.next) {keepAs keepAs' : Option String}
    {scale scale' : Scale}
    (first : (session.step (.measure container settings keepAs)).1.result = .scale scale)
    (run : QuietRun (session.step (.measure container settings keepAs)).2 later)
    (again : (later.step (.measure container settings keepAs')).1.result = .scale scale') :
    scale' = scale ∧ (scale == scale') = true := by
  have closed := reachable.closed
  have run := run.of_measure inside first
  have before := step_measure_eq closed forest inside (.refl closed) first
  have after := step_measure_eq closed forest inside (run.extends_ closed) again
  rw [run.metrics, ← before] at after
  refine ⟨after, ?_⟩
  rw [after, before]
  exact Document.scaleIn_same _ _ _ settings.usedCalibration_pos

/-- A document with one element in its root. -/
def page : Session :=
  ((ofMetrics {}).step (.add 0 "div" ⟨200, 100⟩)).2

theorem page_reachable : page.Reachable :=
  .step (.start {}) _ fun node member => by
    rw [List.mem_singleton.mp member]
    exact Nat.zero_lt_one

theorem page_isForest : page.browser.document.IsForest :=
  page_reachable.closed.isForest (by decide +kernel) (by decide +kernel) (by decide +kernel)

/-- The element has been measured, and then it could not be measured for an expression. -/
def disturbed : Session :=
  let session := (page.step (.measure 1 {} none)).2
  let session := (session.step (.setFailure (some ⟨.size, 3⟩))).2
  let session := (session.step (.evaluate (.measured 1 ⟨7, "p"⟩) .vertical "calc(2em + 3%)")).2
  (session.step (.setFailure none)).2

theorem measure_repeats_of_disturbed : ∃ scale scale',
    (page.step (.measure 1 {} none)).1.result = .scale scale ∧
      (disturbed.step (.measure 1 {} none)).1.result = .scale scale' ∧
      scale' = scale ∧ (scale == scale') = true := by
  let measured := (page.step (.measure 1 {} none)).2
  let failing := (measured.step (.setFailure (some ⟨.size, 3⟩))).2
  have answers : (page.step (.measure 1 {} none)).1.result.scale?.isSome := by decide +kernel
  have answers' : (disturbed.step (.measure 1 {} none)).1.result.scale?.isSome := by decide +kernel
  have fails : (failing.step (.evaluate (.measured 1 ⟨7, "p"⟩) .vertical
      "calc(2em + 3%)")).1.result.failed? = some .size := by
    decide +kernel
  have inside : 1 < failing.browser.document.next := by decide +kernel
  obtain ⟨scale, first⟩ := Option.isSome_iff_exists.mp answers
  obtain ⟨scale', again⟩ := Option.isSome_iff_exists.mp answers'
  have first := StepResult.scale?_eq_some first
  have again := StepResult.scale?_eq_some again
  have run : QuietRun measured failing := .step (.refl measured) _ rfl (fun _ => nofun) nofun
  have run := run.step (.evaluate (.measured 1 ⟨7, "p"⟩) .vertical "calc(2em + 3%)") rfl
    (fun node member => by rwa [List.mem_singleton.mp member])
    (fun same => by rw [same] at fails; cases fails)
  have run : QuietRun measured disturbed := run.step (.setFailure none) rfl (fun _ => nofun) nofun
  exact ⟨scale, scale', first, again,
    measure_repeats page_reachable page_isForest (by decide) first run again⟩

end Session

end CalcLength
