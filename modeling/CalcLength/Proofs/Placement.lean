import CalcLength.Proofs.Probing

namespace CalcLength

open CalcLength.Action

/-- Whether an element is a probe of a shape under the root of the probes, which is older. -/
def Document.Stands (document : Document) (root : Nat) (shape : ProbeShape) (node : Nat) : Prop :=
  root < node ∧ ∃ element, document.elements[node]? = some element ∧ element.shape = some shape ∧
    element.parent = some root

/-- Whether there is a probe for each unit, so many of it wide, and one that fills the container. -/
structure Probes.Placed (probes : Probes Nat) (calibration : Float)
    (document : Document) : Prop where
  units : probes.units.map Prod.fst = RelativeUnit.all
  wide : ∀ probe ∈ probes.units, document.Stands probes.root (.wide calibration probe.1) probe.2
  percent : document.Stands probes.root .fill probes.percent

namespace Document

variable {document : Document} {root node : Nat} {shape : ProbeShape}

theorem Stands.create (stands : document.Stands root shape node) (name : String)
    (shape' : Option ProbeShape) (size : PixelSize) :
    (document.create name shape' size).Stands root shape node := by
  obtain ⟨later, element, here, formed⟩ := stands
  exact ⟨later, element, by rw [getElem?_create (lt_next_of_getElem? here), here], formed⟩

/-- Whatever else is put under the root, the probes that stand there stay. -/
theorem Stands.append (stands : document.Stands root shape node) (child : Nat) :
    (document.append root child).Stands root shape node := by
  obtain ⟨later, element, here, shaped, below⟩ := stands
  refine ⟨later, ?_⟩
  rw [Document.append, getElem?_modify, getElem?_modify_of_ne (Nat.ne_of_lt later), here]
  split
  · exact ⟨_, rfl, shaped, rfl⟩
  · exact ⟨element, rfl, shaped, below⟩

theorem stands_append (later : root < node) {element : Element}
    (here : document.elements[node]? = some element) (shaped : element.shape = some shape) :
    (document.append root node).Stands root shape node := by
  refine ⟨later, ?_⟩
  rw [Document.append, getElem?_modify, if_pos rfl, getElem?_modify_of_ne (Nat.ne_of_lt later),
    here]
  exact ⟨_, rfl, shaped, rfl⟩

theorem Stands.insertFirst (stands : document.Stands root shape node) (container : Nat) :
    (document.insertFirst container root).Stands root shape node := by
  obtain ⟨later, element, here, formed⟩ := stands
  refine ⟨later, ?_⟩
  rw [Document.insertFirst, getElem?_modify_of_ne (Nat.ne_of_lt later), getElem?_modify, here]
  split
  · exact ⟨_, rfl, formed⟩
  · exact ⟨element, rfl, formed⟩

end Document

namespace Probes

/-- Whether there are probes under the root for these units. -/
structure PlacedFor (root : Nat) (calibration : Float) (units : List RelativeUnit)
    (made : List (RelativeUnit × Nat)) (document : Document) : Prop where
  old : root < document.next
  units : made.map Prod.fst = units
  wide : ∀ probe ∈ made, document.Stands root (.wide calibration probe.1) probe.2

variable {calibration : Float} {root : Nat} {units : List RelativeUnit}
    {made : List (RelativeUnit × Nat)} {document : Document}
  {shape : ProbeShape}

theorem PlacedFor.create (placed : PlacedFor root calibration units made document) (name : String)
    (shape : Option ProbeShape) (size : PixelSize) :
    PlacedFor root calibration units made (document.create name shape size) where
  old := by
    rw [Document.next_create]
    exact Nat.lt_succ_of_lt placed.old
  units := placed.units
  wide probe member := (placed.wide probe member).create ..

theorem PlacedFor.append (placed : PlacedFor root calibration units made document) (child : Nat) :
    PlacedFor root calibration units made (document.append root child) where
  old := by
    rw [Document.append, Document.next_modify, Document.next_modify]
    exact placed.old
  units := placed.units
  wide probe member := (placed.wide probe member).append child

/-- A new element beside the probes that there are. -/
theorem create_places (name : String) (shape : ProbeShape) :
    Holds (fun browser => PlacedFor root calibration units made browser.document)
      (Browser.create name shape)
      (fun probe browser => PlacedFor root calibration units made browser.document ∧ root < probe ∧
        ∃ element, browser.document.elements[probe]? = some element ∧ element.shape = some shape)
      (fun _ _ => True) :=
  Browser.create_holds (fun probe document =>
      PlacedFor root calibration units made document ∧ root < probe ∧
        ∃ element, document.elements[probe]? = some element ∧ element.shape = some shape)
    (fun _ placed => ⟨placed.create .., placed.old, _, Document.getElem?_create_next .., rfl⟩)
    fun _ _ _ => trivial

/-- The new element becomes one of the probes. -/
theorem append_places (probe : Nat) :
    Holds (fun browser => PlacedFor root calibration units made browser.document ∧ root < probe ∧
        ∃ element, browser.document.elements[probe]? = some element ∧ element.shape = some shape)
      (Browser.append root probe)
      (fun _ browser => PlacedFor root calibration units made browser.document ∧
        browser.document.Stands root shape probe)
      (fun _ _ => True) := by
  refine Browser.change_holds
    (fun document => PlacedFor root calibration units made document ∧
      document.Stands root shape probe) ?_ fun _ _ _ => trivial
  rintro browser ⟨placed, later, element, here, shaped⟩
  exact ⟨placed.append probe, Document.stands_append later here shaped⟩

theorem installUnit_places (unit : RelativeUnit) :
    Holds (fun browser => PlacedFor root calibration units made browser.document)
      (installUnit Browser.engine root calibration unit)
      (fun probe browser => PlacedFor root calibration (units ++ [unit])
        (made ++ [probe]) browser.document)
      (fun _ _ => True) := by
  refine (create_places "div" (.wide calibration unit)).bind fun probe =>
    (append_places probe).bind fun _ => .pure ?_
  rintro browser ⟨placed, stands⟩
  refine ⟨placed.old, by rw [List.map_append, placed.units]; rfl, fun other member => ?_⟩
  rcases List.mem_append.mp member with earlier | last
  · exact placed.wide other earlier
  · rw [List.mem_singleton.mp last]
    exact stands

/-- Once the probes are installed, all of them stand under their root. -/
theorem install_places (container : Nat) (tag : String) (calibration : Float) :
    Holds (fun _ => True) (install Browser.engine container tag calibration)
      (fun probes browser => probes.Placed calibration browser.document) (fun _ _ => True) := by
  have started : Holds (fun _ => True) (Browser.create tag .cover)
      (fun root browser => PlacedFor root calibration [] [] browser.document)
      (fun _ _ => True) := by
    refine Browser.create_holds (fun root document => PlacedFor root calibration [] [] document)
      ?_ fun _ _ _ => trivial
    refine fun browser _ => ⟨?_, rfl, nofun⟩
    rw [Document.next_create]
    exact Nat.lt_succ_self _
  refine started.bind fun root => ?_
  have gathered : Holds (fun browser => PlacedFor root calibration [] [] browser.document)
      (RelativeUnit.all.mapM (installUnit Browser.engine root calibration))
      (fun made browser => PlacedFor root calibration RelativeUnit.all made browser.document)
      (fun _ _ => True) :=
    @Holds.mapM_gathers Browser _ _ _ _
      (fun units made browser => PlacedFor root calibration units made browser.document)
      (fun _ _ => installUnit_places) RelativeUnit.all [] []
  refine gathered.bind fun made => (create_places "div" .fill).bind fun percent =>
    (append_places percent).bind fun _ => ?_
  have inserted :
      Holds (fun browser => PlacedFor root calibration RelativeUnit.all made browser.document ∧
          browser.document.Stands root .fill percent) (Browser.insertFirst container root)
        (fun _ browser => Placed ⟨root, made, percent⟩ calibration browser.document)
        (fun _ _ => True) := by
    refine Browser.change_holds (Placed ⟨root, made, percent⟩ calibration) ?_ fun _ _ _ => trivial
    rintro browser ⟨placed, stands⟩
    exact ⟨placed.units, fun probe member => (placed.wide probe member).insertFirst container,
      stands.insertFirst container⟩
  exact inserted.bind fun _ => .pure fun _ => id

end Probes

end CalcLength
