import Mathlib.Logic.Relation
import CalcLength.Document.Basic

namespace CalcLength

/-- Whether the elements that an element names are all among the first so many. -/
def Element.Within (element : Element) (bound : Nat) : Prop :=
  (∀ parent, element.parent = some parent → parent < bound) ∧
    ∀ child ∈ element.children, child < bound

namespace Document

variable {before document : Document} {tag : String} {container node : Nat}

/-- Whether all elements that an element names exist. -/
def Closed (document : Document) : Prop :=
  ∀ (node : Nat) (element : Element), document.elements[node]? = some element →
    element.Within document.next

/-- Whether an element names another, as its parent or among its children. -/
def Links (document : Document) (a b : Nat) : Prop :=
  document.parent? a = some b ∨ b ∈ document.children a

/-- Whether links lead from an element to another, in however many steps. -/
def Reaches (document : Document) (a b : Nat) : Prop :=
  Relation.ReflTransGen document.Links a b

/-- Whether a document has all elements of another as they were, and perhaps more. -/
structure Extends (before document : Document) : Prop where
  le : before.next ≤ document.next
  same : ∀ node < before.next, document.elements[node]? = before.elements[node]?
  closed : document.Closed

/-- Whether a document is another again, with its elements as they were: parents, children and all
else. Elements may have been added, but none is reached from one that was there. -/
structure Restores (before document : Document) : Prop where
  same : ∀ node < before.next, document.elements[node]? = before.elements[node]?
  apart : ∀ node < before.next, ∀ reached, document.Reaches node reached → reached < before.next

/-- Whether one new element, the root of the probes, is the first child of the container, and
nothing else differs between the elements of one document and the same elements of another. -/
structure Carries (before : Document) (container : Nat) (tag : String)
    (document : Document) : Prop where
  same : ∀ node < before.next, node ≠ container → document.elements[node]? = before.elements[node]?
  first : document.elements[container]? =
    before.elements[container]?.map fun element =>
      { element with children := before.next :: element.children }
  root : ∃ element, document.elements[before.next]? = some element ∧ element.name = tag ∧
    element.shape = some .cover ∧
    element.parent = some container
  closed : document.Closed

/-- Whether the probes are being built beside the elements of a document. -/
structure Builds (before : Document) (tag : String) (document : Document) :
    Prop extends Extends before document where
  root : ∃ element, document.elements[before.next]? = some element ∧ element.name = tag ∧
    element.shape = some .cover

theorem getElem?_modify (document : Document) (node : Nat) (change : Element → Element)
    (other : Nat) :
    (document.modify node change).elements[other]? =
      if node = other then document.elements[other]?.map change else document.elements[other]? :=
  Array.getElem?_modify

theorem getElem?_modify_of_ne {other : Nat} (different : node ≠ other)
    (change : Element → Element) :
    (document.modify node change).elements[other]? = document.elements[other]? := by
  rw [getElem?_modify, if_neg different]

@[simp] theorem next_modify (document : Document) (node : Nat) (change : Element → Element) :
    (document.modify node change).next = document.next :=
  Array.size_modify

theorem getElem?_create {name : String} {shape : Option ProbeShape} {size : PixelSize} {other : Nat}
    (old : other < document.next) :
    (document.create name shape size).elements[other]? = document.elements[other]? := by
  have different : other ≠ document.elements.size := Nat.ne_of_lt old
  rw [create, Array.getElem?_push, if_neg different]

theorem getElem?_create_next (document : Document) (name : String) (shape : Option ProbeShape)
    (size : PixelSize) :
    (document.create name shape size).elements[document.next]? =
      some ⟨name, shape, size, none, []⟩ := by
  rw [create, next, Array.getElem?_push, if_pos rfl]

@[simp] theorem next_create (document : Document) (name : String) (shape : Option ProbeShape)
    (size : PixelSize) : (document.create name shape size).next = document.next + 1 :=
  Array.size_push ..

theorem lt_next_of_getElem? {element : Element} (here : document.elements[node]? = some element) :
    node < document.next :=
  (Array.getElem?_eq_some_iff.mp here).1

namespace Closed

theorem ofRoot (size : PixelSize) : Closed (.ofRoot size) := by
  intro node element here
  obtain rfl : node = 0 := Nat.lt_one_iff.mp (lt_next_of_getElem? here)
  cases here
  exact ⟨nofun, nofun⟩

theorem modify (closed : Closed document) (node : Nat) (change : Element → Element)
    (keeps : ∀ element : Element, element.Within document.next →
      (change element).Within document.next) : Closed (document.modify node change) := by
  intro other element here
  rw [next_modify]
  rw [getElem?_modify] at here
  split at here
  · obtain ⟨former, found, rfl⟩ := Option.map_eq_some_iff.mp here
    exact keeps former (closed other former found)
  · exact closed other element here

theorem create (closed : Closed document) (name : String) (shape : Option ProbeShape)
    (size : PixelSize) : Closed (document.create name shape size) := by
  intro other element here
  rw [next_create]
  have bound := lt_next_of_getElem? here
  rw [next_create] at bound
  rcases Nat.lt_succ_iff_lt_or_eq.mp bound with old | rfl
  · rw [getElem?_create old] at here
    have within := closed other element here
    exact ⟨fun parent same => Nat.lt_succ_of_lt (within.1 parent same),
      fun child member => Nat.lt_succ_of_lt (within.2 child member)⟩
  · rw [getElem?_create_next] at here
    cases here
    exact ⟨nofun, nofun⟩

/-- An element becomes the parent of another by one change of each. -/
theorem place (closed : Closed document) {parent child : Nat} (parent_old : parent < document.next)
    (children : List Nat → List Nat)
    (adds : ∀ list, ∀ other ∈ children list, other ∈ list ∨ other < document.next) :
    Closed ((document.modify parent fun element =>
        { element with children := children element.children }).modify child
      fun element => { element with parent := some parent }) := by
  have parent_changed : Closed (document.modify parent fun element =>
      { element with children := children element.children }) :=
    closed.modify parent _ fun element within =>
      ⟨within.1, fun other member => (adds _ other member).elim (within.2 other) id⟩
  refine parent_changed.modify child _ fun element within => ⟨?_, within.2⟩
  rintro _ ⟨⟩
  rwa [next_modify]

theorem append (closed : Closed document) {parent child : Nat} (parent_old : parent < document.next)
    (child_old : child < document.next) : Closed (document.append parent child) := by
  refine closed.place parent_old (· ++ [child]) fun list other member => ?_
  rcases List.mem_append.mp member with old | last
  · exact .inl old
  · rw [List.mem_singleton.mp last]
    exact .inr child_old

theorem insertFirst (closed : Closed document) {parent child : Nat}
    (parent_old : parent < document.next) (child_old : child < document.next) :
    Closed (document.insertFirst parent child) := by
  refine closed.place parent_old (child :: ·) fun list other member => ?_
  rcases List.mem_cons.mp member with rfl | old
  · exact .inr child_old
  · exact .inl old

theorem remove (closed : Closed document) (parent child : Nat) :
    Closed (document.remove parent child) := by
  have parent_changed := closed.modify parent
    (fun element => { element with children := element.children.filter (· ≠ child) })
    fun element within =>
      ⟨within.1, fun other member => within.2 other (List.mem_filter.mp member).1⟩
  exact parent_changed.modify child _ fun element within => ⟨nofun, within.2⟩

theorem detach (closed : Closed document) (node : Nat) : Closed (document.detach node) := by
  unfold Document.detach
  split
  · exact closed.remove _ _
  · exact closed

theorem resize (closed : Closed document) (node : Nat) (size : PixelSize) :
    Closed (document.resize node size) :=
  closed.modify node _ fun _ within => within

theorem lt_of_links (closed : Closed document) {a b : Nat} (links : document.Links a b) :
    b < document.next := by
  rw [Links, parent?, children] at links
  cases found : document.elements[a]? with
  | none =>
    rw [found] at links
    rcases links with parent | child
    · cases parent
    · cases child
  | some element =>
    rw [found] at links
    rcases links with parent | child
    · exact (closed a element found).1 b parent
    · exact (closed a element found).2 b child

end Closed

theorem Extends.refl (closed : document.Closed) : Extends document document :=
  ⟨Nat.le_refl _, fun _ _ => rfl, closed⟩

theorem Extends.create (extends_ : Extends before document) (name : String)
    (shape : Option ProbeShape) (size : PixelSize) :
    Extends before (document.create name shape size) where
  le := by
    rw [next_create]
    exact Nat.le_succ_of_le extends_.le
  same node old := by
    rw [getElem?_create (Nat.lt_of_lt_of_le old extends_.le), extends_.same node old]
  closed := extends_.closed.create name shape size

theorem Builds.start (closed : before.Closed) (tag : String) (size : PixelSize) :
    Builds before tag (before.create tag (some .cover) size) where
  toExtends := (Extends.refl closed).create ..
  root := ⟨_, getElem?_create_next .., rfl, rfl⟩

theorem Builds.root_lt (builds : Builds before tag document) : before.next < document.next := by
  obtain ⟨element, here, _⟩ := builds.root
  exact lt_next_of_getElem? here

theorem Builds.create (builds : Builds before tag document) (name : String)
    (shape : Option ProbeShape) (size : PixelSize) :
    Builds before tag (document.create name shape size) where
  toExtends := builds.toExtends.create ..
  root := by
    obtain ⟨element, here, named⟩ := builds.root
    exact ⟨element, by rw [getElem?_create builds.root_lt, here], named⟩

/-- A probe is put under the root, and neither is an element that there was. -/
theorem Builds.append (builds : Builds before tag document) {child : Nat}
    (fresh : before.next ≤ child) (old : child < document.next) :
    Builds before tag (document.append before.next child) where
  le := by
    rw [Document.append, next_modify, next_modify]
    exact builds.le
  same other older := by
    rw [Document.append, getElem?_modify_of_ne (Nat.ne_of_gt (Nat.lt_of_lt_of_le older fresh)),
      getElem?_modify_of_ne (Nat.ne_of_gt older), builds.same other older]
  closed := builds.closed.append builds.root_lt old
  root := by
    obtain ⟨element, here, named⟩ := builds.root
    rw [Document.append, getElem?_modify, getElem?_modify, if_pos rfl, here]
    split
    · exact ⟨_, rfl, named⟩
    · exact ⟨_, rfl, named⟩

/-- Putting the probes into the container changes the container's children alone. -/
theorem Builds.insertFirst (builds : Builds before tag document)
    (inside : container < before.next) :
    Carries before container tag (document.insertFirst container before.next) where
  same node old other := by
    rw [Document.insertFirst, getElem?_modify_of_ne (Nat.ne_of_gt old),
      getElem?_modify_of_ne (Ne.symm other), builds.same node old]
  first := by
    rw [Document.insertFirst, getElem?_modify_of_ne (Nat.ne_of_gt inside), getElem?_modify,
      if_pos rfl, builds.same container inside]
  root := by
    obtain ⟨element, here, named, shaped⟩ := builds.root
    rw [Document.insertFirst, getElem?_modify, if_pos rfl,
      getElem?_modify_of_ne (Nat.ne_of_lt inside), here]
    exact ⟨_, rfl, named, shaped, rfl⟩
  closed := builds.closed.insertFirst (Nat.lt_of_lt_of_le inside builds.le) builds.root_lt

/-- Taking the probes from the container makes it what it was. -/
theorem Carries.remove (carries : Carries before container tag document) (closed : Closed before) :
    Extends before (document.remove container before.next) where
  le := by
    obtain ⟨element, here, _⟩ := carries.root
    rw [Document.remove, next_modify, next_modify]
    exact Nat.le_of_lt (lt_next_of_getElem? here)
  same node old := by
    rw [Document.remove, getElem?_modify_of_ne (Nat.ne_of_gt old), getElem?_modify]
    split
    · rename_i here
      subst here
      rw [carries.first, Option.map_map]
      cases found : before.elements[container]? with
      | none => rfl
      | some element =>
        have children :
            (before.next :: element.children).filter (· ≠ before.next) = element.children := by
          rw [List.filter_cons_of_neg (by simp), List.filter_eq_self]
          intro child member
          have old := (closed container element found).2 child member
          simpa using Nat.ne_of_lt old
        simp only [Option.map_some, Function.comp_apply, children]
    · rename_i other
      exact carries.same node old (Ne.symm other)
  closed := carries.closed.remove _ _

theorem Extends.links {a b : Nat} (extends_ : Extends before document) (old : a < before.next) :
    document.Links a b ↔ before.Links a b := by
  rw [Links, Links, parent?, parent?, children, children, extends_.same a old]

/-- From an element that was there nothing new is reached. -/
theorem Extends.restores (extends_ : Extends before document) (closed : Closed before) :
    Restores before document where
  same := extends_.same
  apart node old reached reaches := by
    induction reaches with
    | refl => exact old
    | tail _ links ih => exact closed.lt_of_links ((extends_.links ih).mp links)

end Document

end CalcLength
