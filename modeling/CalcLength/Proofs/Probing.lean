import CalcLength.Proofs.Extension
import CalcLength.Proofs.Keeping

namespace CalcLength

open CalcLength.Action

namespace Browser

variable {before : Browser → Prop} {fails : Callback → Browser → Prop} {callback : Callback}

/-- A callback that fails leaves the browser as it is. -/
theorem permit_holds (after : Document → Prop)
    (document : ∀ browser, before browser → after browser.document)
    (failed : ∀ browser, before browser → browser.FailsIn callback → fails callback browser) :
    Holds before (permit callback) (fun _ browser => after browser.document) fails := by
  intro browser here
  rcases permit_cases callback browser with ⟨failure, permitted⟩ | ⟨refused, failing⟩
  · rw [permitted]
    exact document browser here
  · rw [refused]
    exact failed browser here failing

/-- A call that is carried out changes the document, one that fails does not. -/
theorem change_holds (after : Document → Prop) {call : EngineCall} {change : Document → Document}
    (changed : ∀ browser, before browser → after (change browser.document))
    (failed : ∀ browser, before browser → browser.FailsIn callback → fails callback browser) :
    Holds before (do permit callback; carryOut call change)
      (fun _ browser => after browser.document) fails := by
  have permitted := permit_holds (fun document => after (change document)) changed failed
  exact permitted.bind fun _ _ here => here

theorem create_holds (after : Nat → Document → Prop) {name : String} {shape : ProbeShape}
    (changed : ∀ browser, before browser →
      after browser.document.next (browser.document.create name (some shape) ⟨0, 0⟩))
    (failed : ∀ browser, before browser → browser.FailsIn .create → fails .create browser) :
    Holds before (create name shape) (fun node browser => after node browser.document) fails := by
  have permitted := permit_holds
    (fun document => after document.next (document.create name (some shape) ⟨0, 0⟩)) changed failed
  exact permitted.bind fun _ _ here => here

/-- A size that is read changes nothing. -/
theorem size_holds (kept : Document → Prop) {node : Nat}
    (failed : ∀ browser, kept browser.document → browser.FailsIn .size → fails .size browser) :
    Holds (fun browser => kept browser.document) (size node)
      (fun _ browser => kept browser.document) fails :=
  size_of_permit (fun _ _ => id) (permit_holds kept (fun _ => id) failed) fun _ _ => id

end Browser

variable {before : Document} {tag : String} {container : Nat}

namespace Probes

/-- What is left where a callback fails before the probes are in the container: all elements
that there were are unchanged. -/
def Unchanged (before : Document) (callback : Callback) (browser : Browser) : Prop :=
  callback ≠ .remove ∧ before.Extends browser.document

theorem create_holds {name : String} {shape : ProbeShape} :
    Holds (fun browser => before.Builds tag browser.document) (Browser.create name shape)
      (fun node browser => before.next ≤ node ∧ node < browser.document.next ∧
        before.Builds tag browser.document)
      (Unchanged before) :=
  Browser.create_holds (fun node document => before.next ≤ node ∧ node < document.next ∧
      before.Builds tag document)
    (fun _ builds => ⟨builds.le, by rw [Document.next_create]; exact Nat.lt_succ_self _,
      builds.create ..⟩)
    fun _ builds _ => ⟨nofun, builds.toExtends⟩

theorem append_holds {child : Nat} :
    Holds (fun browser => before.next ≤ child ∧ child < browser.document.next ∧
        before.Builds tag browser.document)
      (Browser.append before.next child) (fun _ browser => before.Builds tag browser.document)
      (Unchanged before) :=
  Browser.change_holds (before.Builds tag) (fun _ here => here.2.2.append here.1 here.2.1)
    fun _ here _ => ⟨nofun, here.2.2.toExtends⟩

theorem installUnit_holds (calibration : Float) (unit : RelativeUnit) :
    Holds (fun browser => before.Builds tag browser.document)
      (installUnit Browser.engine before.next calibration unit)
      (fun _ browser => before.Builds tag browser.document) (Unchanged before) := by
  refine create_holds.bind fun probe => ?_
  exact append_holds.bind fun _ => .pure fun _ => id

/-- The probes are put into the container as a whole or not at all. -/
theorem install_holds (closed : before.Closed) (inside : container < before.next) (tag : String)
    (calibration : Float) :
    Holds (fun browser => browser.document = before)
      (install Browser.engine container tag calibration)
      (fun probes browser => probes.root = before.next ∧
        before.Carries container tag browser.document) (Unchanged before) := by
  have started : Holds (fun browser => browser.document = before) (Browser.create tag .cover)
      (fun root browser => root = before.next ∧ before.Builds tag browser.document)
      (Unchanged before) := by
    refine Browser.create_holds (fun root document => root = before.next ∧
        before.Builds tag document) ?_ ?_
    · rintro browser rfl
      exact ⟨rfl, .start closed ..⟩
    · rintro browser rfl _
      exact ⟨nofun, .refl closed⟩
  refine started.bind fun root => ?_
  rintro browser ⟨rfl, builds⟩
  have units : Holds (fun browser => before.Builds tag browser.document)
      (RelativeUnit.all.mapM (installUnit Browser.engine before.next calibration))
      (fun _ browser => before.Builds tag browser.document) (Unchanged before) :=
        .mapM (installUnit_holds calibration) _
  refine (units.bind fun units => create_holds.bind fun percent => append_holds.bind fun _ => ?_)
    browser builds
  have inserted : Holds (fun browser => before.Builds tag browser.document)
      (Browser.insertFirst container before.next)
      (fun _ browser => before.Carries container tag browser.document) (Unchanged before) :=
    Browser.change_holds (before.Carries container tag) (fun _ builds => builds.insertFirst inside)
      fun _ builds _ => ⟨nofun, builds.toExtends⟩
  exact inserted.bind fun _ => .pure fun _ carries => ⟨rfl, carries⟩

theorem size_holds (kept : Document → Prop) (node : Nat) :
    Holds (fun watched => kept watched.state.document) (Measuring.act (Browser.engine.size node))
      (fun _ watched => kept watched.state.document)
      (fun callback watched => callback = .size ∧ watched.state.FailsIn .size ∧
        kept watched.state.document) := by
  have read : Holds (fun browser => kept browser.document) (Browser.size node)
      (fun _ browser => kept browser.document) (fun callback browser => callback = .size ∧
      browser.FailsIn .size ∧ kept browser.document) :=
    Browser.size_holds kept fun _ here failing => ⟨rfl, failing, here⟩
  exact Measuring.act_holds read

/-- Reading the sizes of the probes changes nothing. -/
theorem read_holds (kept : Document → Prop) (calibration : Float) (probes : Probes Nat) :
    Holds (fun watched => kept watched.state.document) (probes.read Browser.engine calibration)
      (fun _ watched => kept watched.state.document)
      (fun callback watched => callback = .size ∧ watched.state.FailsIn .size ∧
        kept watched.state.document) := by
  refine (size_holds kept probes.percent).bind fun extent => ?_
  refine Measuring.warn_if_holds (fun browser : Browser => kept browser.document) ?_
  refine Holds.foldlM (fun scale probe => ?_) _ _
  refine (size_holds kept probe.2).bind fun extent => ?_
  exact Measuring.warn_if_holds (fun browser : Browser => kept browser.document) (.pure fun _ => id)

end Probes

/-- What a measurement that fails leaves behind: the probes if they could not be
removed, and else no difference. -/
def Leaves (before : Document) (container : Nat) (tag : String) (callback : Callback)
    (document : Document) : Prop :=
  if callback = .remove then before.Carries container tag document else before.Extends document

theorem remove_holds (closed : before.Closed) (earlier : Browser → Prop)
    (fails : Callback → Browser → Prop)
    (carries : ∀ browser, earlier browser → before.Carries container tag browser.document)
    (failed : ∀ browser, earlier browser → browser.FailsIn .remove → fails .remove browser) :
    Holds (fun watched => earlier watched.state)
      (Measuring.act (Browser.engine.remove container before.next))
      (fun _ watched => before.Extends watched.state.document)
      (fun callback watched => fails callback watched.state) := by
  have removed : Holds earlier (Browser.remove container before.next)
      (fun _ browser => before.Extends browser.document) fails :=
    Browser.change_holds before.Extends
      (fun browser here => (carries browser here).remove closed) failed
  exact Measuring.act_holds removed

theorem Browser.FailsIn.unique {browser : Browser} {first second : Callback}
    (fails : browser.FailsIn first) (fails' : browser.FailsIn second) : first = second := by
  obtain ⟨failure, here, rfl⟩ := fails
  obtain ⟨failure', here', rfl⟩ := fails'
  rw [here] at here'
  cases here'
  rfl

/-- However a measurement ends, the probes are taken out again unless that is what fails. -/
theorem measure_holds (closed : before.Closed) (inside : container < before.next)
    (settings : ProbeSettings) :
    Holds (fun watched => watched.state.document = before)
      (measure Browser.engine container settings)
      (fun _ watched => before.Extends watched.state.document)
      (fun callback watched =>
        Leaves before container settings.tag callback watched.state.document) := by
  unfold measure
  refine Measuring.warn_if_holds (fun browser : Browser => browser.document = before) ?_
  have installed :=
    Measuring.act_holds (Probes.install_holds closed inside settings.tag settings.usedCalibration)
  refine (installed.mono (fun _ => id) (fun _ _ => id) fun callback watched fails => ?_).bind
    fun probes => ?_
  · rw [Leaves, if_neg fails.1]
    exact fails.2
  · rintro watched ⟨root, carries⟩
    rw [root]
    have read :=
      Probes.read_holds (before.Carries container settings.tag) settings.usedCalibration probes
    have removed := remove_holds closed
      (fun browser => before.Carries container settings.tag browser.document)
      (fun callback browser => Leaves before container settings.tag callback browser.document)
      (fun _ => id)
      fun browser carries _ => by rwa [Leaves, if_pos rfl]
    refine Measuring.ensuring_holds read (fun _ => removed) (fun callback => ?_) watched carries
    -- Where reading a size has failed, it is not the removal that fails.
    rintro watched ⟨rfl, failing, carries⟩
    have removed := remove_holds closed
      (fun browser => browser.FailsIn .size ∧
        before.Carries container settings.tag browser.document) (fun _ _ => False)
      (fun _ here => here.2) fun browser here failing => nomatch here.1.unique failing
    refine removed.mono (fun _ => id) (fun _ watched extends_ => ?_)
      (fun _ _ => False.elim) watched ⟨failing, carries⟩
    rwa [Leaves, if_neg nofun]

end CalcLength
