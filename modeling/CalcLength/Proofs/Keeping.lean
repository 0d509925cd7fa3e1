import CalcLength.Browser
import CalcLength.Proofs.Action

namespace CalcLength

open CalcLength.Action

/-- Whether all callbacks of an engine keep a property of its state,
and none fails unless it may. -/
structure Engine.Keeps {σ ν : Type} (engine : Engine σ ν) (kept : σ → Prop)
    (mayFail : Prop) : Prop where
  create : ∀ name shape, Holds kept (engine.create name shape) (fun _ => kept)
    (fun _ state => mayFail ∧ kept state)
  append : ∀ parent child, Holds kept (engine.append parent child) (fun _ => kept)
    (fun _ state => mayFail ∧ kept state)
  insertFirst : ∀ parent child,
    Holds kept (engine.insertFirst parent child) (fun _ => kept)
      (fun _ state => mayFail ∧ kept state)
  remove : ∀ parent child, Holds kept (engine.remove parent child) (fun _ => kept)
    (fun _ state => mayFail ∧ kept state)
  size : ∀ node, Holds kept (engine.size node) (fun _ => kept) (fun _ state => mayFail ∧ kept state)

section Keeps

variable {σ ν : Type} {engine : Engine σ ν} {kept : σ → Prop} {mayFail : Prop}

theorem Probes.install_keeps (keeps : engine.Keeps kept mayFail) (container : ν) (tag : String)
    (calibration : Float) :
    Holds kept (Probes.install engine container tag calibration) (fun _ => kept)
      (fun _ state => mayFail ∧ kept state) := by
  have unit (root : ν) (unit : RelativeUnit) :
      Holds kept (Probes.installUnit engine root calibration unit) (fun _ => kept)
        (fun _ state => mayFail ∧ kept state) :=
    (keeps.create _ _).bind fun _ => (keeps.append _ _).bind fun _ => .pure fun _ => id
  refine (keeps.create _ _).bind fun root => (Holds.mapM (unit root) _).bind fun units => ?_
  refine (keeps.create _ _).bind fun percent => (keeps.append _ _).bind fun _ => ?_
  exact (keeps.insertFirst _ _).bind fun _ => .pure fun _ => id

theorem Probes.read_keeps (keeps : engine.Keeps kept mayFail) (calibration : Float)
    (probes : Probes ν) :
    Holds (fun watched => kept watched.state) (probes.read engine calibration)
      (fun _ watched => kept watched.state)
      (fun _ watched => mayFail ∧ kept watched.state) := by
  refine (Measuring.act_holds (keeps.size probes.percent)).bind fun extent =>
    Measuring.warn_if_holds kept ?_
  refine Holds.foldlM (fun scale probe => ?_) _ _
  exact (Measuring.act_holds (keeps.size probe.2)).bind fun extent =>
    Measuring.warn_if_holds kept (.pure fun _ => id)

/-- What every callback keeps, a measurement keeps, and it does not fail if none of them does. -/
theorem measure_keeps (keeps : engine.Keeps kept mayFail) (container : ν)
    (settings : ProbeSettings) :
    Holds (fun watched => kept watched.state) (measure engine container settings)
      (fun _ watched => kept watched.state)
      (fun _ watched => mayFail ∧ kept watched.state) := by
  unfold measure
  refine Measuring.warn_if_holds kept ?_
  refine (Measuring.act_holds (Probes.install_keeps keeps _ _ _)).bind fun probes => ?_
  have removed := Measuring.act_holds (keeps.remove container probes.root)
  refine Measuring.ensuring_holds (Probes.read_keeps keeps _ probes) (fun _ => removed) fun _ => ?_
  rintro watched ⟨failed, here⟩
  exact (removed.mono (fun _ => id) (fun _ _ here => ⟨failed, here⟩) fun _ _ here =>
      ⟨failed, here.2⟩) watched here

/-- What a source of scales keeps, all that takes a scale from it keeps. -/
theorem ScaleSource.scale_keeps (keeps : engine.Keeps kept mayFail) (source : ScaleSource ν) :
    Holds (fun watched => kept watched.state) (source.scale engine)
      (fun _ watched => kept watched.state)
      (fun _ watched => mayFail ∧ kept watched.state) := by
  cases source with
  | known scale => exact .pure fun _ => id
  | container element settings => exact measure_keeps keeps element settings

end Keeps

namespace Browser

/-- Whether it is this callback that fails. -/
def FailsIn (browser : Browser) (callback : Callback) : Prop :=
  ∃ failure, browser.failure = some failure ∧ failure.callback = callback

/-- Beginning a call changes at most what is to fail, and nothing where the call fails. -/
theorem permit_cases (callback : Callback) (browser : Browser) :
    (∃ failure, permit callback browser = (.ok (), { browser with failure })) ∨
      permit callback browser = (.error callback, browser) ∧ browser.FailsIn callback := by
  obtain ⟨document, metrics, failure, calls, queries⟩ := browser
  unfold permit
  cases failure with
  | none => exact .inl ⟨none, rfl⟩
  | some failure =>
    simp only []
    by_cases same : failure.callback = callback
    · rw [if_pos same]
      cases failure.allowed with
      | zero => exact .inr ⟨rfl, failure, rfl, same⟩
      | succ allowed => exact .inl ⟨_, rfl⟩
    · rw [if_neg same]
      exact .inl ⟨some failure, rfl⟩

/-- A call for a size is counted, and once it is permitted it is answered with what is laid out. -/
theorem size_of_permit {before : Browser → Prop} {after : Extent → Browser → Prop}
    {fails : Callback → Browser → Prop} {node : Nat}
    (counted : ∀ browser queries, before browser → before { browser with queries })
    (permitted : Holds before (permit .size) (fun _ => before) fails)
    (answered : ∀ browser calls, before browser →
      after (browser.document.extent browser.metrics node) { browser with calls }) :
    Holds before (size node) after fails := by
  have count : Holds before
      (modify fun browser => { browser with queries := browser.queries + 1 } : Action Browser Unit)
      (fun _ => before) fails :=
    fun _ here => counted _ _ here
  exact count.bind fun _ => permitted.bind fun _ browser here => answered browser _ here

variable {kept : Browser → Prop} {mayFail : Prop}

/-- A property is kept if it is where a callback may begin, and if it does not
speak of what a call changes. -/
theorem engine_keeps
    (permits : ∀ callback,
      Holds kept (permit callback) (fun _ => kept) (fun _ browser => mayFail ∧ kept browser))
    (changes : ∀ browser document calls queries, kept browser →
      kept { browser with document, calls, queries }) : engine.Keeps kept mayFail where
  create _ _ := (permits .create).bind fun _ _ here => changes _ _ _ _ here
  append _ _ := (permits .append).bind fun _ _ here => changes _ _ _ _ here
  insertFirst _ _ := (permits .insert).bind fun _ _ here => changes _ _ _ _ here
  remove _ _ := (permits .remove).bind fun _ _ here => changes _ _ _ _ here
  size _ := size_of_permit (fun _ _ here => changes _ _ _ _ here) (permits .size) fun _ _ here =>
    changes _ _ _ _ here

theorem permit_keeps (callback : Callback)
    (changes : ∀ browser failure, kept browser → kept { browser with failure }) :
    Holds kept (permit callback) (fun _ => kept) (fun _ => kept) := by
  intro browser here
  rcases permit_cases callback browser with ⟨failure, permitted⟩ | ⟨failed, _⟩
  · rw [permitted]
    exact changes _ _ here
  · rw [failed]
    exact here

theorem engine_keeps_metrics (metrics : Metrics) :
    engine.Keeps (fun browser => browser.metrics = metrics) True := by
  refine engine_keeps (fun callback => ?_) fun _ _ _ _ here => here
  have permitted : Holds (fun browser => browser.metrics = metrics) (permit callback) _ _ :=
    permit_keeps callback fun _ _ here => here
  exact permitted.mono (fun _ => id) (fun _ _ => id) fun _ _ here => ⟨trivial, here⟩

/-- Where no callback is to fail, none does. -/
theorem engine_keeps_calm : engine.Keeps (fun browser => browser.failure = none) False := by
  refine engine_keeps (fun callback browser here => ?_) fun _ _ _ _ here => here
  have permitted : permit callback browser = (.ok (), browser) := by rw [permit, here]
  rw [permitted]
  exact here

end Browser

end CalcLength
