import Mathlib.Data.Finset.Card
import CalcLength.Document.Layout
import CalcLength.Proofs.Extension

namespace CalcLength

/-- What the layout of an element depends on. -/
def Element.layout (element : Element) : Option ProbeShape × PixelSize × Option Nat :=
  (element.shape, element.size, element.parent)

/-- A relation without cycles among so many elements has no longer paths than there are elements. -/
theorem exists_height {n : Nat} {above : Nat → Nat → Prop} (bounded : ∀ a b, above a b → b < n)
    (acyclic : ∀ a, ¬Relation.TransGen above a a) :
    ∃ height : Nat → Nat, (∀ a b, above a b → height b < height a) ∧ ∀ a < n, height a < n := by
  classical
  refine ⟨fun a => ((Finset.range n).filter (Relation.TransGen above a)).card, fun a b step => ?_,
    fun a inside => ?_⟩
  · refine Finset.card_lt_card (Finset.ssubset_iff_of_subset ?_ |>.mpr ⟨b, ?_, ?_⟩)
    · intro c member
      rw [Finset.mem_filter] at member ⊢
      exact ⟨member.1, .head step member.2⟩
    · exact Finset.mem_filter.mpr ⟨Finset.mem_range.mpr (bounded a b step), .single step⟩
    · exact fun member => acyclic b (Finset.mem_filter.mp member).2
  · refine Nat.lt_of_lt_of_eq (Finset.card_lt_card ?_) (Finset.card_range n)
    refine Finset.ssubset_iff_of_subset (Finset.filter_subset _ _) |>.mpr
      ⟨a, Finset.mem_range.mpr inside, ?_⟩
    exact fun member => acyclic a (Finset.mem_filter.mp member).2

namespace Document

variable {before document : Document} {metrics : Metrics} {height : Nat → Nat} {node : Nat}

/-- Whether parents and children agree with each other, no element is among the children of another
twice, and none is above itself. -/
structure IsForest (document : Document) : Prop where
  agree : ∀ a b, b ∈ document.children a ↔ document.parent? b = some a
  nodup : ∀ a, (document.children a).Nodup
  acyclic : ∀ a, ¬Relation.TransGen (fun a b => document.parent? a = some b) a a

/-- Whether all elements of a document are in another, where nothing differs
that their layout depends on. -/
structure KeepsLayout (before document : Document) : Prop where
  le : before.next ≤ document.next
  same : ∀ node < before.next, document.elements[node]?.map Element.layout =
    before.elements[node]?.map Element.layout

theorem Extends.keepsLayout (extends_ : Extends before document) : KeepsLayout before document :=
  ⟨extends_.le, fun node old => congrArg _ (extends_.same node old)⟩

theorem KeepsLayout.trans {later : Document} (keeps : KeepsLayout before document)
    (keeps' : KeepsLayout document later) : KeepsLayout before later :=
  ⟨Nat.le_trans keeps.le keeps'.le, fun node old =>
    (keeps'.same node (Nat.lt_of_lt_of_le old keeps.le)).trans (keeps.same node old)⟩

theorem parent?_eq (document : Document) (node : Nat) :
    document.parent? node = (document.elements[node]?.map Element.layout).bind fun layout =>
      layout.2.2 := by
  rw [parent?, Option.bind_map]
  rfl

theorem KeepsLayout.parent? (keeps : KeepsLayout before document) (old : node < before.next) :
    document.parent? node = before.parent? node := by
  rw [parent?_eq, parent?_eq, keeps.same node old]

theorem reachesRoot_zero (document : Document) (steps : Nat) :
    document.reachesRoot steps 0 = true := by
  cases steps <;> rfl

theorem reachesRoot_of_orphan (orphan : document.parent? node = none) (some_node : node ≠ 0)
    (steps : Nat) : document.reachesRoot steps node = false := by
  obtain ⟨node, rfl⟩ := Nat.exists_eq_succ_of_ne_zero some_node
  cases steps with
  | zero => rfl
  | succ steps =>
    rw [reachesRoot, orphan]
    exact some_node

theorem reachesRoot_of_parent {parent : Nat} (below : document.parent? node = some parent)
    (some_node : node ≠ 0) (steps : Nat) :
    document.reachesRoot (steps + 1) node = document.reachesRoot steps parent := by
  obtain ⟨node, rfl⟩ := Nat.exists_eq_succ_of_ne_zero some_node
  rw [reachesRoot, below]
  exact some_node

/-- Enough steps to the parent lead from an element to the root or to none, however many they are
and whatever has been added to the document. -/
theorem KeepsLayout.reachesRoot (keeps : KeepsLayout before document) (closed : before.Closed)
    (falls : ∀ a b, before.parent? a = some b → height b < height a) {steps steps' : Nat}
    (old : node < before.next) (enough : height node ≤ steps) (enough' : height node ≤ steps') :
    document.reachesRoot steps' node = before.reachesRoot steps node := by
  by_cases root : node = 0
  · rw [root, reachesRoot_zero, reachesRoot_zero]
  · induction steps generalizing steps' node with
    | zero =>
      have orphan : before.parent? node = none := by
        cases below : before.parent? node with
        | none => rfl
        | some parent => exact absurd (falls node parent below) (by omega)
      rw [reachesRoot_of_orphan orphan root,
        reachesRoot_of_orphan ((keeps.parent? old).trans orphan) root]
    | succ steps ih =>
      cases below : before.parent? node with
      | none =>
        rw [reachesRoot_of_orphan below root,
          reachesRoot_of_orphan ((keeps.parent? old).trans below) root]
      | some parent =>
        have lower := falls node parent below
        obtain ⟨steps', rfl⟩ : ∃ n, steps' = n + 1 := ⟨steps' - 1, by omega⟩
        rw [reachesRoot_of_parent below root,
          reachesRoot_of_parent ((keeps.parent? old).trans below) root]
        by_cases top : parent = 0
        · rw [top, reachesRoot_zero, reachesRoot_zero]
        · exact ih (closed.lt_of_links (.inl below)) (by omega) (by omega) top

/-- Enough steps to the parent settle what size is laid out. -/
theorem KeepsLayout.layoutSize (keeps : KeepsLayout before document) (closed : before.Closed)
    (falls : ∀ a b, before.parent? a = some b → height b < height a) {steps steps' : Nat}
    (old : node < before.next) (enough : height node < steps) (enough' : height node < steps') :
    document.layoutSize metrics steps' node = before.layoutSize metrics steps node := by
  induction steps generalizing steps' node with
  | zero => exact absurd enough (Nat.not_lt_zero _)
  | succ steps ih =>
    obtain ⟨steps', rfl⟩ : ∃ n, steps' = n + 1 := ⟨steps' - 1, by omega⟩
    have same := keeps.same node old
    unfold Document.layoutSize
    cases here : before.elements[node]? with
    | none =>
      rw [here] at same
      rw [Option.map_eq_none_iff.mp same]
    | some element =>
      rw [here] at same
      obtain ⟨element', here', layout⟩ := Option.map_eq_some_iff.mp same
      obtain ⟨shape, size, parent⟩ : element'.shape = element.shape ∧ element'.size = element.size ∧
        element'.parent = element.parent := by simpa [Element.layout] using layout
      rw [here']
      simp only [shape, size, parent]
      have higher {parent : Nat} (above : element.parent = some parent) :
          before.parent? node = some parent := by
        rw [Document.parent?, here]
        exact above
      split
      · rfl
      · rfl
      · rename_i above
        have lower := falls node _ (higher above)
        exact ih (closed.lt_of_links (.inl (higher above))) (by omega) (by omega)
      · rfl

section Forest

variable (keeps : KeepsLayout before document) (closed : before.Closed) (forest : before.IsForest)
    (old : node < before.next)
include keeps closed forest old

/-- What is added to a forest connects nothing in it, and disconnects nothing. -/
theorem KeepsLayout.reachesRoot_of_le {steps : Nat} (enough : before.next ≤ steps) :
    document.reachesRoot steps node = before.isConnected node := by
  obtain ⟨height, falls, low⟩ :=
    exists_height (fun a b below => closed.lt_of_links (.inl below)) forest.acyclic
  have fits := low node old
  exact keeps.reachesRoot closed falls old (Nat.le_of_lt fits) (by omega)

/-- What is added to a forest changes no size in it. -/
theorem KeepsLayout.layoutSize_of_le {steps : Nat} (enough : before.next ≤ steps) :
    document.layoutSize metrics steps node = before.layoutSize metrics before.next node := by
  obtain ⟨height, falls, low⟩ :=
    exists_height (fun a b below => closed.lt_of_links (.inl below)) forest.acyclic
  have fits := low node old
  exact keeps.layoutSize closed falls old fits (by omega)

end Forest

theorem Extends.trans {later : Document} (extends_ : Extends before document)
    (extends' : Extends document later) : Extends before later where
  le := Nat.le_trans extends_.le extends'.le
  same node old :=
    (extends'.same node (Nat.lt_of_lt_of_le old extends_.le)).trans (extends_.same node old)
  closed := extends'.closed

theorem Extends.parent? (extends_ : Extends before document) (old : node < before.next) :
    document.parent? node = before.parent? node := by
  rw [Document.parent?, Document.parent?, extends_.same node old]

theorem Extends.children (extends_ : Extends before document) (old : node < before.next) :
    document.children node = before.children node := by
  rw [Document.children, Document.children, extends_.same node old]

/-- Enough levels of children are all there are. -/
theorem Extends.textFrom (extends_ : Extends before document) (closed : before.Closed)
    (falls : ∀ a b, b ∈ before.children a → height b < height a) {depth depth' : Nat}
    (old : node < before.next) (enough : height node < depth) (enough' : height node < depth') :
    document.textFrom depth' node = before.textFrom depth node := by
  induction depth generalizing depth' node with
  | zero => exact absurd enough (Nat.not_lt_zero _)
  | succ depth ih =>
    obtain ⟨depth', rfl⟩ : ∃ n, depth' = n + 1 := ⟨depth' - 1, by omega⟩
    unfold Document.textFrom
    rw [extends_.same node old]
    cases here : before.elements[node]? with
    | none => rfl
    | some element =>
      have below : element.children.map (document.textFrom depth') =
          element.children.map (before.textFrom depth) := by
        refine List.map_congr_left fun child member => ?_
        have member : child ∈ before.children node := by
          rw [Document.children, here]
          exact member
        have lower := falls node child member
        exact ih (closed.lt_of_links (.inr member)) (by omega) (by omega)
      dsimp only
      rw [below]

theorem transGen_child {a b : Nat} (forest : document.IsForest)
    (path : Relation.TransGen (fun a b => b ∈ document.children a) a b) :
    Relation.TransGen (fun a b => document.parent? a = some b) b a := by
  induction path with
  | single child => exact .single ((forest.agree _ _).mp child)
  | tail _ child ih => exact .head ((forest.agree _ _).mp child) ih

/-- What is added to a forest does not show in its text. -/
theorem Extends.text (extends_ : Extends before document) (closed : before.Closed)
    (forest : before.IsForest) (some_element : 0 < before.next) : document.text = before.text := by
  have bounded (a b : Nat) (child : b ∈ before.children a) : b < before.next :=
    closed.lt_of_links (.inr child)
  obtain ⟨height, falls, low⟩ :=
    exists_height bounded fun a cycle => forest.acyclic a (transGen_child forest cycle)
  have fits := low 0 some_element
  exact extends_.textFrom closed falls some_element fits (Nat.lt_of_lt_of_le fits extends_.le)

theorem lt_next_of_parent? {parent : Nat} (below : document.parent? node = some parent) :
    node < document.next := by
  obtain ⟨element, here, _⟩ := Option.bind_eq_some_iff.mp below
  exact lt_next_of_getElem? here

theorem children_of_le (outside : document.next ≤ node) : document.children node = [] := by
  have none : document.elements[node]? = none := Array.getElem?_eq_none outside
  rw [children, none]
  rfl

theorem lt_next_of_mem_children {child : Nat} (member : child ∈ document.children node) :
    node < document.next := by
  by_contra outside
  rw [children_of_le (Nat.le_of_not_lt outside)] at member
  cases member

/-- The elements that there are can be looked at one by one. Where each is younger than its
parent, none is above itself. -/
theorem Closed.isForest (closed : document.Closed)
    (agree : ∀ a < document.next, ∀ b < document.next, b ∈ document.children a ↔
      document.parent? b = some a)
    (nodup : ∀ a < document.next, (document.children a).Nodup)
    (younger : ∀ a < document.next, ∀ b < document.next, document.parent? a = some b → b < a) :
    document.IsForest where
  agree a b := by
    by_cases inside : a < document.next ∧ b < document.next
    · exact agree a inside.1 b inside.2
    · exact iff_of_false
        (fun child => inside ⟨lt_next_of_mem_children child, closed.lt_of_links (.inr child)⟩)
        fun below => inside ⟨closed.lt_of_links (.inl below), lt_next_of_parent? below⟩
  nodup a := by
    by_cases inside : a < document.next
    · exact nodup a inside
    · rw [children_of_le (Nat.le_of_not_lt inside)]
      exact List.nodup_nil
  acyclic a cycle := by
    have descends {a b : Nat}
        (path : Relation.TransGen (fun a b => document.parent? a = some b) a b) : b < a := by
      induction path with
      | single below =>
        exact younger _ (lt_next_of_parent? below) _ (closed.lt_of_links (.inl below)) below
      | tail _ below ih =>
        exact Nat.lt_trans
          (younger _ (lt_next_of_parent? below) _ (closed.lt_of_links (.inl below)) below) ih
    exact Nat.lt_irrefl a (descends cycle)

/-- Without what was added to it, a forest is one. -/
theorem Extends.isForest (extends_ : Extends before document) (closed : before.Closed)
    (forest : document.IsForest) : before.IsForest where
  agree a b := by
    constructor
    · intro child
      have agreed :=
        (forest.agree a b).mp (by rwa [extends_.children (lt_next_of_mem_children child)])
      rwa [extends_.parent? (closed.lt_of_links (.inr child))] at agreed
    · intro below
      have old := lt_next_of_parent? below
      have agreed := (forest.agree a b).mpr (by rwa [extends_.parent? old])
      rwa [extends_.children (closed.lt_of_links (.inl below))] at agreed
  nodup a := by
    by_cases old : a < before.next
    · rw [← extends_.children old]
      exact forest.nodup a
    · rw [children_of_le (Nat.le_of_not_lt old)]
      exact List.nodup_nil
  acyclic a cycle := by
    refine forest.acyclic a (cycle.lift id fun a b (below : before.parent? a = some b) => ?_)
    show document.parent? a = some b
    rwa [extends_.parent? (lt_next_of_parent? below)]

end Document

end CalcLength
