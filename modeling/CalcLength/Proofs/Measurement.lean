import CalcLength.Proofs.Binary64.Quotient
import CalcLength.Proofs.Forest
import CalcLength.Proofs.Keeping
import CalcLength.Proofs.Placement

namespace CalcLength

open CalcLength.Action

namespace Document

variable {before base document : Document} {metrics : Metrics} {container root node : Nat}
    {tag : String}

/-- The size that an element is laid out with, none outside the tree of the root. -/
def laidOut (document : Document) (metrics : Metrics) (node : Nat) : PixelSize :=
  if document.isConnected node then document.layoutSize metrics document.next node else ⟨0, 0⟩

/-- The width that a probe so many units wide is reported with in a container. -/
def probeWidth (document : Document) (metrics : Metrics) (container : Nat) (calibration : Float)
    (unit : RelativeUnit) : Sixtieths :=
  let width :=
    if document.isConnected container then calibration * metrics.hundred unit / 100 else 0
  (metrics.reported.lookup unit).getD (Sixtieths.ofPixels (metrics.round width))

/-- The scale that a container comes to. -/
def scaleIn (document : Document) (metrics : Metrics) (container : Nat)
    (calibration : Float) : Scale where
  percentOfWidth :=
    (Sixtieths.ofPixels (metrics.round (document.laidOut metrics container).width)).toPixels / 100
  percentOfHeight :=
    (Sixtieths.ofPixels (metrics.round (document.laidOut metrics container).height)).toPixels / 100
  pixels? unit :=
    some ((document.probeWidth metrics container calibration unit).toPixels / calibration)

theorem extent_eq (document : Document) (metrics : Metrics) (node : Nat) :
    document.extent metrics node =
      { width := (document.reportedWidth? metrics node).getD
          (Sixtieths.ofPixels (metrics.round (document.laidOut metrics node).width))
        height := Sixtieths.ofPixels (metrics.round (document.laidOut metrics node).height) } := rfl

theorem reportedWidth?_eq {element : Element} (here : document.elements[node]? = some element) :
    document.reportedWidth? metrics node = match element.shape with
      | some (.wide _ unit) => metrics.reported.lookup unit
      | _ => none := by
  rw [reportedWidth?, here]
  rfl

theorem Carries.keepsLayout (carries : Carries before container tag document) :
    KeepsLayout before document where
  le := by
    obtain ⟨_, here, _⟩ := carries.root
    exact Nat.le_of_lt (lt_next_of_getElem? here)
  same node old := by
    by_cases other : node = container
    · rw [other, carries.first, Option.map_map]
      rfl
    · rw [carries.same node old other]

/-- Whether a document has the elements of another, laid out as they were, and the root
of the probes in one of them. -/
structure Hosts (base : Document) (container root : Nat) (document : Document) : Prop where
  keeps : KeepsLayout base document
  later : base.next ≤ root
  root : ∃ element, document.elements[root]? = some element ∧ element.shape = some .cover ∧
    element.parent = some container

theorem Carries.hosts (carries : Carries before container tag document)
    (keeps : KeepsLayout base before) : Hosts base container before.next document where
  keeps := keeps.trans carries.keepsLayout
  later := keeps.le
  root := by
    obtain ⟨element, here, _, shaped, below⟩ := carries.root
    exact ⟨element, here, shaped, below⟩

namespace Hosts

variable {shape : ProbeShape} {amount : Float} {unit : RelativeUnit}
variable (hosts : Hosts base container root document) (closed : base.Closed)
    (forest : base.IsForest)
  (inside : container < base.next)
include hosts

/-- There are the root and the probe beside the elements that there were. -/
theorem exists_next (stands : document.Stands root shape node) :
    ∃ steps, document.next = steps + 2 ∧ base.next ≤ steps := by
  obtain ⟨later, _, here, _⟩ := stands
  have bound := lt_next_of_getElem? here
  have after := hosts.later
  exact ⟨document.next - 2, by omega, by omega⟩

include closed forest inside

/-- A probe is laid out where its container is. -/
theorem isConnected (stands : document.Stands root shape node) :
    document.isConnected node = base.isConnected container := by
  obtain ⟨steps, next, enough⟩ := hosts.exists_next stands
  have after := hosts.later
  have sized : document.elements.size = steps + 2 := next
  obtain ⟨later, probe, found, _, above⟩ := stands
  obtain ⟨element, here, _, below⟩ := hosts.root
  have parent : document.parent? node = some root := by
    rw [parent?, found]
    exact above
  have grandparent : document.parent? root = some container := by
    rw [parent?, here]
    exact below
  rw [Document.isConnected, sized, reachesRoot_of_parent parent (by omega),
    reachesRoot_of_parent grandparent (by omega)]
  exact hosts.keeps.reachesRoot_of_le closed forest inside enough

/-- The probe that fills the container takes its size. -/
theorem laidOut_fill (stands : document.Stands root .fill node) :
    document.laidOut metrics node = base.laidOut metrics container := by
  obtain ⟨steps, next, enough⟩ := hosts.exists_next stands
  have size : document.layoutSize metrics (steps + 2) node =
      document.layoutSize metrics steps container := by
    obtain ⟨_, probe, found, shaped, above⟩ := stands
    obtain ⟨element, here, cover, below⟩ := hosts.root
    simp only [layoutSize, found, shaped, above, here, cover, below]
  rw [laidOut, laidOut, hosts.isConnected closed forest inside stands, next, size,
    hosts.keeps.layoutSize_of_le closed forest inside enough]

/-- The probe of a unit has its width wherever it is laid out. -/
theorem width_laidOut_wide (stands : document.Stands root (.wide amount unit) node) :
    (document.laidOut metrics node).width = if base.isConnected container then
      amount * metrics.hundred unit / 100 else 0 := by
  obtain ⟨steps, next, _⟩ := hosts.exists_next stands
  have size : document.layoutSize metrics (steps + 2) node =
      ⟨amount * metrics.hundred unit / 100, 0⟩ := by
    obtain ⟨_, probe, found, shaped, _⟩ := stands
    simp only [layoutSize, found, shaped]
  rw [laidOut, hosts.isConnected closed forest inside stands, next, size]
  split <;> rfl

theorem extent_fill (stands : document.Stands root .fill node) :
    document.extent metrics node =
      { width := Sixtieths.ofPixels (metrics.round (base.laidOut metrics container).width)
        height := Sixtieths.ofPixels (metrics.round (base.laidOut metrics container).height) } := by
  have plain : document.reportedWidth? metrics node = none := by
    obtain ⟨_, probe, found, shaped, _⟩ := stands
    rw [reportedWidth?_eq found, shaped]
  rw [extent_eq, plain, hosts.laidOut_fill closed forest inside stands]
  rfl

theorem width_extent_wide (stands : document.Stands root (.wide amount unit) node) :
    (document.extent metrics node).width = base.probeWidth metrics container amount unit := by
  have reported : document.reportedWidth? metrics node = metrics.reported.lookup unit := by
    obtain ⟨_, probe, found, shaped, _⟩ := stands
    rw [reportedWidth?_eq found, shaped]
  rw [extent_eq, reported, hosts.width_laidOut_wide closed forest inside stands]
  rfl

end Hosts

end Document

/-- Whether it is this document that a browser lays out, and by these metrics. -/
structure Browser.Shows (browser : Browser) (document : Document) (metrics : Metrics) : Prop where
  document : browser.document = document
  metrics : browser.metrics = metrics

theorem Browser.size_reports {document : Document} {metrics : Metrics} (node : Nat) :
    Holds (fun browser => browser.Shows document metrics) (Browser.size node)
      (fun extent browser => extent = document.extent metrics node ∧ browser.Shows document metrics)
      (fun _ _ => True) := by
  have permitted :
      Holds (fun browser => browser.Shows document metrics) (Browser.permit .size) _ _ :=
    Browser.permit_keeps .size fun _ _ here => ⟨here.document, here.metrics⟩
  refine Browser.size_of_permit (fun _ _ here => ⟨here.document, here.metrics⟩)
    (permitted.mono (fun _ => id) (fun _ _ => id) fun _ _ _ => trivial) ?_
  rintro browser calls ⟨rfl, rfl⟩
  exact ⟨rfl, rfl, rfl⟩

/-- Giving units their sizes one after the other gives them all. -/
theorem Scale.foldl_set (pixels : RelativeUnit → Float) (units : List RelativeUnit)
    (scale : Scale) :
    units.foldl (fun scale unit => scale.set unit (pixels unit)) scale =
      ⟨scale.percentOfWidth, scale.percentOfHeight,
        fun unit => if unit ∈ units then some (pixels unit) else scale.pixels? unit⟩ := by
  induction units generalizing scale with
  | nil => simp
  | cons first units ih =>
    rw [List.foldl_cons, ih]
    refine congrArg (Scale.mk _ _) (funext fun unit => ?_)
    by_cases later : unit ∈ units
    · simp [later]
    · by_cases same : unit = first
      · simp [same]
      · simp [later, same]

namespace Probes

/-- The scale with a unit given the size that its probe is reported with. -/
def reportedUnit (document : Document) (metrics : Metrics) (calibration : Float) (scale : Scale)
    (probe : RelativeUnit × Nat) : Scale :=
  scale.set probe.1 ((document.extent metrics probe.2).width.toPixels / calibration)

/-- The scale that the sizes make that the probes are reported with. -/
def reported (probes : Probes Nat) (document : Document) (metrics : Metrics)
    (calibration : Float) : Scale :=
  let extent := document.extent metrics probes.percent
  probes.units.foldl (reportedUnit document metrics calibration)
    (.ofPercents (extent.width.toPixels / 100) (extent.height.toPixels / 100))

variable {base document : Document} {metrics : Metrics} {container : Nat} {calibration : Float}
    {probes : Probes Nat}

theorem readUnit_reports (scale : Scale) (probe : RelativeUnit × Nat) :
    Holds (fun watched => watched.state.Shows document metrics)
      (readUnit Browser.engine calibration scale probe)
      (fun read watched => read = reportedUnit document metrics calibration scale probe ∧
        watched.state.Shows document metrics)
      (fun _ _ => True) := by
  refine (Measuring.act_holds (Browser.size_reports probe.2)).bind fun extent =>
    .of_known fun same => ?_
  subst same
  exact Measuring.warn_if_holds (fun browser : Browser => browser.Shows document metrics)
    (.pure fun _ here => ⟨rfl, here⟩)

/-- What is read is what is reported. -/
theorem read_reports (probes : Probes Nat) :
    Holds (fun watched => watched.state.Shows document metrics)
      (probes.read Browser.engine calibration)
      (fun scale _ => scale = probes.reported document metrics calibration) (fun _ _ => True) := by
  refine (Measuring.act_holds (Browser.size_reports probes.percent)).bind fun extent =>
    .of_known fun same => ?_
  subst same
  refine Measuring.warn_if_holds (fun browser : Browser => browser.Shows document metrics) ?_
  let percents := Scale.ofPercents ((document.extent metrics probes.percent).width.toPixels / 100)
    ((document.extent metrics probes.percent).height.toPixels / 100)
  have all := @Holds.foldlM_gathers (Watched Browser) _ _ (fun _ _ => True)
    (readUnit Browser.engine calibration)
    (fun units scale watched =>
      scale = units.foldl (reportedUnit document metrics calibration) percents ∧
        watched.state.Shows document metrics)
    (fun units scale probe => .of_known fun same => by
      rw [same, List.foldl_append]
      exact readUnit_reports _ probe) probes.units [] percents
  exact all.mono (fun _ here => ⟨rfl, here⟩) (fun _ _ here => here.1) fun _ _ => id

variable (hosts : base.Hosts container probes.root document) (closed : base.Closed)
    (forest : base.IsForest)
  (inside : container < base.next)
include hosts closed forest inside

/-- The probes are reported with sizes that the container has in a document without them. -/
theorem Placed.reported_eq (placed : probes.Placed calibration document) :
    probes.reported document metrics calibration = base.scaleIn metrics container calibration := by
  let pixels :=
    fun unit => (base.probeWidth metrics container calibration unit).toPixels / calibration
  have same {probe : RelativeUnit × Nat} (member : probe ∈ probes.units) (scale : Scale) :
      reportedUnit document metrics calibration scale probe =
        scale.set probe.1 (pixels probe.1) := by
    rw [reportedUnit, hosts.width_extent_wide closed forest inside (placed.wide probe member)]
  rw [reported, hosts.extent_fill closed forest inside placed.percent]
  generalize percents : Scale.ofPercents _ _ = start
  calc probes.units.foldl (reportedUnit document metrics calibration) start
      = probes.units.foldl (fun scale probe => scale.set probe.1 (pixels probe.1)) start :=
        List.foldl_ext _ _ _ fun scale probe member => same member scale
    _ = (probes.units.map Prod.fst).foldl (fun scale unit => scale.set unit (pixels unit))
      start := by rw [List.foldl_map]
    _ = ⟨start.percentOfWidth, start.percentOfHeight, fun unit => some (pixels unit)⟩ := by
      rw [placed.units, Scale.foldl_set]
      exact congrArg (Scale.mk _ _) (funext fun unit => if_pos unit.mem_all)
    _ = base.scaleIn metrics container calibration := by
      rw [← percents]
      rfl

end Probes

variable {base before : Document} {container : Nat} (metrics : Metrics)

/-- Once the probes are installed, their root is in the container, and
all of them stand under it. -/
theorem Probes.install_hosts (keeps : base.KeepsLayout before) (closed : before.Closed)
    (inside : container < before.next) (tag : String) (calibration : Float) :
    Holds (fun browser => browser.Shows before metrics)
      (Probes.install Browser.engine container tag calibration)
      (fun probes browser => ∃ document, base.Hosts container probes.root document ∧
        probes.Placed calibration document ∧
        browser.Shows document metrics) (fun _ _ => True) := by
  have carried := Probes.install_holds closed inside tag calibration
  have placed := Probes.install_places container tag calibration
  have measured :=
    Probes.install_keeps (Browser.engine_keeps_metrics metrics) container tag calibration
  refine (carried.and (placed.and measured)).mono
    (fun _ here => ⟨here.document, trivial, here.metrics⟩) ?_ fun _ _ _ => trivial
  rintro probes browser ⟨⟨root, carries⟩, placed, same⟩
  have hosts := carries.hosts keeps
  rw [← root] at hosts
  exact ⟨browser.document, hosts, placed, rfl, same⟩

/-- What a container is measured as depends on the forest that it is in, not on what else has
been added to the document. -/
theorem measure_reports (closed : base.Closed) (forest : base.IsForest)
    (inside : container < base.next) (keeps : base.KeepsLayout before) (closed' : before.Closed)
    (settings : ProbeSettings) :
    Holds (fun watched => watched.state.Shows before metrics)
      (measure Browser.engine container settings)
      (fun scale _ => scale = base.scaleIn metrics container settings.usedCalibration)
      (fun _ _ => True) := by
  unfold measure
  refine Measuring.warn_if_holds (fun browser : Browser => browser.Shows before metrics) ?_
  have installed := Probes.install_hosts metrics keeps closed' (Nat.lt_of_lt_of_le inside keeps.le)
    settings.tag settings.usedCalibration
  refine (Measuring.act_holds installed).bind fun probes => ?_
  rintro watched ⟨document, hosts, placed, shown⟩
  have read := @Probes.read_reports document metrics settings.usedCalibration probes
  rw [placed.reported_eq hosts closed forest inside] at read
  -- The probes are read before they are removed, so how the removal goes does not matter for the
  -- scale.
  exact Measuring.ensuring_holds read
    (fun scale => .intro (fun _ _ _ here _ => here) fun _ _ _ _ _ => trivial)
    (fun _ => .intro (fun _ _ _ _ _ => trivial) fun _ _ _ _ _ => trivial) watched shown

theorem ProbeSettings.usedCalibration_pos (settings : ProbeSettings) :
    0 < settings.usedCalibration := by
  unfold usedCalibration isUsable
  split
  · rename_i usable
    exact of_decide_eq_true usable
  · decide +kernel

theorem Scale.same_self {scale : Scale}
    (width : (scale.percentOfWidth == scale.percentOfWidth) = true)
    (height : (scale.percentOfHeight == scale.percentOfHeight) = true)
    (units : ∀ unit, (scale.pixels? unit == scale.pixels? unit) = true) :
    (scale == scale) = true := by
  show same scale scale = true
  rw [same, width, height, Bool.true_and, Bool.true_and, List.all_eq_true]
  exact fun unit _ => units unit

theorem Binary64.hundred_pos : (0 : Float) < 100 := by
  decide +kernel

theorem Sixtieths.beq_self_toPixels_div (size : Sixtieths) {y : Float} (positive : 0 < y) :
    (size.toPixels / y == size.toPixels / y) = true :=
  Binary64.beq_self (Binary64.isNaN_div size.isFinite_toPixels positive)

/-- A measured scale is without NaN, so it is the same as itself. -/
theorem Document.scaleIn_same (document : Document) (metrics : Metrics) (container : Nat)
    {calibration : Float} (positive : 0 < calibration) :
    (document.scaleIn metrics container calibration ==
      document.scaleIn metrics container calibration) = true := by
  have percent (size : Sixtieths) := size.beq_self_toPixels_div Binary64.hundred_pos
  exact Scale.same_self (percent _) (percent _) fun unit =>
    Sixtieths.beq_self_toPixels_div _ positive

end CalcLength
