import CalcLength.Browser
import CalcLength.Proofs.Forest
import CalcLength.Proofs.Transcript

namespace CalcLength

open CalcLength.Action

/-- The element with its name left out. -/
def Element.nameless (element : Element) : Element :=
  { element with name := "" }

namespace Document

variable (document : Document)

/-- The document with all names left out. -/
def nameless : Document :=
  ⟨document.elements.map Element.nameless⟩

theorem getElem?_nameless (node : Nat) :
    document.nameless.elements[node]? = document.elements[node]?.map Element.nameless :=
  Array.getElem?_map ..

theorem size_nameless : document.nameless.elements.size = document.elements.size :=
  Array.size_map ..

theorem create_nameless (name : String) (shape : Option ProbeShape) (size : PixelSize) :
    (document.create name shape size).nameless = document.nameless.create "" shape size :=
  congrArg Document.mk Array.map_push

theorem modify_nameless {change : Element → Element}
    (blind : ∀ element, (change element).nameless = change element.nameless) (node : Nat) :
    (document.modify node change).nameless = document.nameless.modify node change := by
  refine congrArg Document.mk (Array.ext_getElem? fun other => ?_)
  rw [Array.getElem?_map, modify, Array.getElem?_modify, Array.getElem?_modify, getElem?_nameless]
  split
  · rw [Option.map_map, Option.map_map]
    exact congrArg (Option.map · _) (funext blind)
  · rfl

theorem append_nameless (parent child : Nat) :
    (document.append parent child).nameless = document.nameless.append parent child := by
  rw [append, modify_nameless, modify_nameless, append]
  · exact fun _ => rfl
  · exact fun _ => rfl

theorem insertFirst_nameless (parent child : Nat) :
    (document.insertFirst parent child).nameless = document.nameless.insertFirst parent child := by
  rw [insertFirst, modify_nameless, modify_nameless, insertFirst]
  · exact fun _ => rfl
  · exact fun _ => rfl

theorem remove_nameless (parent child : Nat) :
    (document.remove parent child).nameless = document.nameless.remove parent child := by
  rw [remove, modify_nameless, modify_nameless, remove]
  · exact fun _ => rfl
  · exact fun _ => rfl

theorem parent?_nameless (node : Nat) : document.nameless.parent? node = document.parent? node := by
  unfold parent?
  rw [getElem?_nameless]
  cases document.elements[node]? with
  | none => rfl
  | some element => rfl

theorem reachesRoot_nameless (steps node : Nat) :
    document.nameless.reachesRoot steps node = document.reachesRoot steps node := by
  induction steps generalizing node with
  | zero => cases node <;> rfl
  | succ steps ih =>
    by_cases root : node = 0
    · rw [root, reachesRoot_zero, reachesRoot_zero]
    · have same := document.parent?_nameless node
      cases below : document.parent? node with
      | none => rw [reachesRoot_of_orphan below root, reachesRoot_of_orphan (same.trans below) root]
      | some parent =>
        rw [reachesRoot_of_parent below root, reachesRoot_of_parent (same.trans below) root, ih]

theorem isConnected_nameless (node : Nat) :
    document.nameless.isConnected node = document.isConnected node := by
  rw [isConnected, size_nameless, reachesRoot_nameless, isConnected]

theorem layoutSize_nameless (metrics : Metrics) (steps node : Nat) :
    document.nameless.layoutSize metrics steps node = document.layoutSize metrics steps node := by
  induction steps generalizing node with
  | zero => rfl
  | succ steps ih =>
    unfold layoutSize
    rw [getElem?_nameless]
    cases document.elements[node]? with
    | none => rfl
    | some element =>
      obtain ⟨name, shape, size, parent, children⟩ := element
      cases shape with
      | none => rfl
      | some shape =>
        cases shape with
        | wide amount unit => rfl
        | cover | fill =>
          cases parent with
          | none => rfl
          | some parent => exact ih parent

theorem reportedWidth?_nameless (metrics : Metrics) (node : Nat) :
    document.nameless.reportedWidth? metrics node = document.reportedWidth? metrics node := by
  unfold reportedWidth?
  rw [getElem?_nameless]
  cases document.elements[node]? with
  | none => rfl
  | some element => rfl

/-- Layout does not look at names. -/
theorem extent_nameless (metrics : Metrics) (node : Nat) :
    document.nameless.extent metrics node = document.extent metrics node := by
  unfold extent
  rw [isConnected_nameless, size_nameless, layoutSize_nameless, reportedWidth?_nameless]

end Document

/-- The call with any name left out. -/
def EngineCall.nameless : EngineCall → EngineCall
  | .create node _ shape => .create node "" shape
  | call => call

namespace Browser

/-- The browser with the names of elements left out, also from its record. -/
def nameless (browser : Browser) : Browser :=
  { browser with
    document := browser.document.nameless, calls := browser.calls.map EngineCall.nameless }

/-- The engine that gives no element a name. -/
def namelessEngine : Engine Browser Nat :=
  { engine with create := fun _ shape => create "" shape }

theorem permit_nameless (callback : Callback) :
    Reflects nameless (permit callback) (permit callback) := by
  intro browser
  have same : browser.nameless.failure = browser.failure := rfl
  unfold permit
  rw [same]
  cases browser.failure with
  | none => rfl
  | some failure =>
    obtain ⟨failing, allowed⟩ := failure
    dsimp only
    split
    · cases allowed with
      | zero => rfl
      | succ allowed => rfl
    · rfl

theorem carryOut_nameless {call call' : EngineCall} {change change' : Document → Document}
    (named : call.nameless = call')
    (changes : ∀ document, (change document).nameless = change' document.nameless) :
    Reflects nameless (carryOut call change) (carryOut call' change') := by
  intro browser
  simp only [carryOut, nameless, changes, List.map_append, List.map_cons, List.map_nil, named]

/-- An engine without names does what the engine does, but for the names. -/
theorem engine_nameless : engine.Reflects nameless namelessEngine where
  create name shape := by
    refine (permit_nameless _).bind fun _ browser => ?_
    have next : browser.nameless.document.next = browser.document.next :=
      browser.document.size_nameless
    have created : Reflects nameless
        (carryOut (.create browser.document.next name shape) (·.create name (some shape) ⟨0, 0⟩))
        (carryOut (.create browser.document.next "" shape) (·.create "" (some shape) ⟨0, 0⟩)) :=
      carryOut_nameless rfl fun document => document.create_nameless name (some shape) ⟨0, 0⟩
    show (Except.ok browser.nameless.document.next,
      (carryOut (.create browser.nameless.document.next "" shape)
        (·.create "" (some shape) ⟨0, 0⟩) browser.nameless).2) = _
    rw [next, created]
    rfl
  append parent child := (permit_nameless _).bind fun _ => carryOut_nameless rfl fun document =>
    document.append_nameless parent child
  insertFirst parent child :=
    (permit_nameless _).bind fun _ => carryOut_nameless rfl fun document =>
      document.insertFirst_nameless parent child
  remove parent child := (permit_nameless _).bind fun _ => carryOut_nameless rfl fun document =>
    document.remove_nameless parent child
  size node := by
    have counted : Reflects nameless (modify fun browser =>
          { browser with queries := browser.queries + 1 } : Action Browser Unit)
        (modify fun browser => { browser with queries := browser.queries + 1 }) := fun _ => rfl
    refine counted.bind fun _ => (permit_nameless _).bind fun _ browser => ?_
    have same : browser.nameless.document.extent browser.nameless.metrics node =
        browser.document.extent browser.metrics node :=
      browser.document.extent_nameless browser.metrics node
    have answered :
        Reflects nameless (carryOut (.size node (browser.document.extent browser.metrics node)) id)
          (carryOut (.size node (browser.document.extent browser.metrics node)) id) :=
      carryOut_nameless rfl fun _ => rfl
    show (Except.ok (browser.nameless.document.extent browser.nameless.metrics node),
      (carryOut (.size node (browser.nameless.document.extent browser.nameless.metrics node))
        id browser.nameless).2) = _
    rw [same, answered]
    rfl

end Browser

end CalcLength
