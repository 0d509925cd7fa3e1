import CalcLength.Measure

namespace CalcLength

namespace Action

variable {σ α β : Type}

/-- From a state of the first kind the action ends with a value in a state of the second kind, or a
callback fails and leaves a state of the third kind. -/
def Holds (before : σ → Prop) (action : Action σ α) (after : α → σ → Prop)
    (fails : Callback → σ → Prop) : Prop :=
  ∀ state, before state →
    match action state with
    | (.ok value, state) => after value state
    | (.error callback, state) => fails callback state

namespace Holds

variable {before : σ → Prop} {action : Action σ α} {after : α → σ → Prop}
    {fails : Callback → σ → Prop}

theorem ok {state state' : σ} {value : α} (holds : Holds before action after fails)
    (here : before state) (ends : action state = (.ok value, state')) : after value state' := by
  have holds := holds state here
  rwa [ends] at holds

theorem error {state state' : σ} {callback : Callback} (holds : Holds before action after fails)
    (here : before state) (ends : action state = (.error callback, state')) :
    fails callback state' := by
  have holds := holds state here
  rwa [ends] at holds

theorem intro
    (ok : ∀ state value state', before state →
      action state = (.ok value, state') → after value state')
    (error : ∀ state callback state', before state →
      action state = (.error callback, state') → fails callback state') :
    Holds before action after fails := by
  intro state here
  match ends : action state with
  | (.ok value, state') => exact ok state value state' here ends
  | (.error callback, state') => exact error state callback state' here ends

theorem mono {before' : σ → Prop} {after' : α → σ → Prop} {fails' : Callback → σ → Prop}
    (holds : Holds before action after fails) (weaker : ∀ state, before' state → before state)
    (stronger : ∀ value state, after value state → after' value state)
    (fails_stronger : ∀ callback state, fails callback state → fails' callback state) :
    Holds before' action after' fails' :=
  intro (fun _ _ _ here ends => stronger _ _ (holds.ok (weaker _ here) ends))
    (fun _ _ _ here ends => fails_stronger _ _ (holds.error (weaker _ here) ends))

theorem pure {value : α} (here : ∀ state, before state → after value state) :
    Holds before (Pure.pure value : Action σ α) after fails :=
  here

theorem bind_apply (action : Action σ α) (next : α → Action σ β) (state : σ) :
    (action >>= next) state = match action state with
      | (.ok value, state) => next value state
      | (.error callback, state) => (.error callback, state) := by
  show (ExceptT.bind action next) state = _
  simp only [ExceptT.bind, ExceptT.mk, bind, StateT.bind]
  cases action state with
  | mk outcome state => cases outcome <;> rfl

theorem bind {next : α → Action σ β} {last : β → σ → Prop} (holds : Holds before action after fails)
    (goes_on : ∀ value, Holds (after value) (next value) last fails) :
    Holds before (action >>= next) last fails := by
  intro state here
  rw [bind_apply]
  match ends : action state with
  | (.ok value, state') => exact goes_on value state' (holds.ok here ends)
  | (.error callback, state') => exact holds.error here ends

theorem and {before' : σ → Prop} {after' : α → σ → Prop} {fails' : Callback → σ → Prop}
    (holds : Holds before action after fails) (holds' : Holds before' action after' fails') :
    Holds (fun state => before state ∧ before' state) action
      (fun value state => after value state ∧ after' value state)
      (fun callback state => fails callback state ∧ fails' callback state) :=
  intro (fun _ _ _ here ends => ⟨holds.ok here.1 ends, holds'.ok here.2 ends⟩)
    (fun _ _ _ here ends => ⟨holds.error here.1 ends, holds'.error here.2 ends⟩)

/-- What does not depend on the state may be known before the action runs. -/
theorem of_known {known : Prop} (holds : known → Holds before action after fails) :
    Holds (fun state => known ∧ before state) action after fails :=
  fun state here => holds here.1 state here.2

/-- What is kept may speak of the elements gone through and of what came of them. -/
theorem mapM_gathers {f : α → Action σ β} {kept : List α → List β → σ → Prop}
    (keeps : ∀ as bs a, Holds (kept as bs) (f a) (fun b => kept (as ++ [a]) (bs ++ [b])) fails)
    (list as : List α) (bs : List β) :
    Holds (kept as bs) (list.mapM f) (fun results => kept (as ++ list) (bs ++ results)) fails := by
  induction list generalizing as bs with
  | nil =>
    rw [List.append_nil, List.mapM_nil]
    refine pure fun state here => ?_
    rwa [List.append_nil]
  | cons a list ih =>
    rw [List.mapM_cons]
    refine (keeps as bs a).bind fun b => (ih (as ++ [a]) (bs ++ [b])).bind fun results =>
      pure fun state here => ?_
    rwa [List.append_assoc, List.append_assoc] at here

theorem mapM {f : α → Action σ β} {kept : σ → Prop}
    (keeps : ∀ a, Holds kept (f a) (fun _ => kept) fails) (list : List α) :
    Holds kept (list.mapM f) (fun _ => kept) fails :=
  @mapM_gathers _ _ _ fails f (fun _ _ => kept) (fun _ _ => keeps) list [] []

theorem foldlM_gathers {f : β → α → Action σ β} {kept : List α → β → σ → Prop}
    (keeps : ∀ as b a, Holds (kept as b) (f b a) (kept (as ++ [a])) fails) (list as : List α)
    (start : β) : Holds (kept as start) (list.foldlM f start) (kept (as ++ list)) fails := by
  induction list generalizing as start with
  | nil =>
    rw [List.append_nil]
    exact pure fun _ => id
  | cons a list ih =>
    rw [List.foldlM_cons]
    refine (keeps as start a).bind fun b => ?_
    have rest := ih (as ++ [a]) b
    rwa [List.append_assoc] at rest

theorem foldlM {f : β → α → Action σ β} {kept : σ → Prop}
    (keeps : ∀ b a, Holds kept (f b a) (fun _ => kept) fails) (list : List α) (start : β) :
    Holds kept (list.foldlM f start) (fun _ => kept) fails :=
  @foldlM_gathers _ _ _ fails f (fun _ _ => kept) (fun _ => keeps) list [] start

end Holds

/-- Whether an action, wherever a property of the state holds, ends with this
value and keeps the property. -/
def Returns (kept : σ → Prop) (action : Action σ α) (value : α) : Prop :=
  Holds kept action (fun result state => result = value ∧ kept state) fun _ _ => False

namespace Returns

variable {kept : σ → Prop} {action : Action σ α} {value : α}

theorem pure (value : α) : Returns kept (Pure.pure value) value :=
  Holds.pure fun _ here => ⟨rfl, here⟩

theorem bind {next : α → Action σ β} {last : β} (first : Returns kept action value)
    (rest : Returns kept (next value) last) : Returns kept (action >>= next) last := by
  refine Holds.bind first fun _ => .of_known fun same => ?_
  rw [same]
  exact rest

theorem exists_eq {state : σ} (returns : Returns kept action value) (here : kept state) :
    ∃ state', action state = (.ok value, state') ∧ kept state' := by
  match ends : action state with
  | (.ok result, state') =>
    obtain ⟨rfl, there⟩ := Holds.ok returns here ends
    exact ⟨state', rfl, there⟩
  | (.error callback, state') => exact (Holds.error returns here ends).elim

end Returns

/-- Whether the value that an action ends with, if it ends with one, has a
property, wherever it starts. -/
def Gives (action : Action σ α) (property : α → Prop) : Prop :=
  Holds (fun _ => True) action (fun value _ => property value) fun _ _ => True

namespace Gives

variable {action : Action σ α} {property : α → Prop}

theorem anything (action : Action σ α) : Gives action fun _ => True :=
  Holds.intro (fun _ _ _ _ _ => trivial) fun _ _ _ _ _ => trivial

theorem pure {value : α} (has : property value) : Gives (Pure.pure value : Action σ α) property :=
  Holds.pure fun _ _ => has

theorem bind {next : α → Action σ β} {last : β → Prop} (first : Gives action property)
    (rest : ∀ value, property value → Gives (next value) last) : Gives (action >>= next) last :=
  Holds.bind first fun value state has => rest value has state trivial

theorem mono {last : α → Prop} (gives : Gives action property)
    (weaker : ∀ value, property value → last value) : Gives action last :=
  Holds.mono gives (fun _ => id) (fun value _ => weaker value) fun _ _ => id

theorem ok {state state' : σ} {value : α} (gives : Gives action property)
    (ends : action state = (.ok value, state')) : property value :=
  Holds.ok gives trivial ends

theorem mapM {f : α → Action σ β} {kept : List α → List β → Prop} (begins : kept [] [])
    (keeps : ∀ as bs a, kept as bs → Gives (f a) fun b => kept (as ++ [a]) (bs ++ [b]))
    (list : List α) : Gives (list.mapM f) (kept list) :=
  have gathers : Holds (fun _ => kept [] []) (list.mapM f)
      (fun results _ => kept list results) fun _ _ => True :=
    Holds.mapM_gathers (fun as bs a state here => keeps as bs a here state trivial) list [] []
  fun state _ => gathers state begins

theorem foldlM {f : β → α → Action σ β} {kept : List α → β → Prop} {start : β}
    (begins : kept [] start) (keeps : ∀ as b a, kept as b → Gives (f b a) (kept (as ++ [a])))
    (list : List α) : Gives (list.foldlM f start) (kept list) :=
  have gathers : Holds (fun _ => kept [] start) (list.foldlM f start)
      (fun result _ => kept list result) fun _ _ => True :=
    Holds.foldlM_gathers (fun as b a state here => keeps as b a here state trivial) list [] start
  fun state _ => gathers state begins

end Gives

end Action

namespace Measuring

open CalcLength.Action

variable {σ α : Type} {before : σ → Prop} {fails : Callback → σ → Prop}

theorem act_holds {action : Action σ α} {after : α → σ → Prop}
    (holds : Holds before action after fails) :
    Holds (fun watched => before watched.state) (act action)
      (fun value watched => after value watched.state)
      (fun callback watched => fails callback watched.state) := by
  intro watched here
  have holds := holds watched.state here
  unfold act
  match ends : action watched.state with
  | (.ok value, state') => rwa [ends] at holds
  | (.error callback, state') => rwa [ends] at holds

/-- Something may be worth a warning before what comes next. -/
theorem warn_if_holds (kept : σ → Prop) {worth : Bool} {warning : Warning}
    {next : Unit → Measuring σ α} {after : α → Watched σ → Prop}
    {fails : Callback → Watched σ → Prop}
    (goes_on : Holds (fun watched => kept watched.state) (next ()) after fails) :
    Holds (fun watched => kept watched.state) (if worth then warn warning >>= next else next ())
      after fails := by
  cases worth with
  | true =>
    exact fun watched here =>
      goes_on { watched with warnings := watched.warnings ++ [warning] } here
  | false => exact goes_on

/-- What runs last runs from where the body ends, failed or not. -/
theorem ensuring_holds {body : Measuring σ α} {last : Measuring σ Unit} {before : Watched σ → Prop}
    {after done : α → Watched σ → Prop} {bodyFails lastFails : Callback → Watched σ → Prop}
    (holds : Holds before body after bodyFails)
    (ends : ∀ value, Holds (after value) last (fun _ => done value) lastFails)
    (cleans : ∀ callback,
      Holds (bodyFails callback) last (fun _ => lastFails callback) (fun _ => lastFails callback)) :
    Holds before (ensuring body last) done lastFails := by
  intro watched here
  unfold ensuring
  match first : body watched with
  | (.ok value, watched') =>
    have here := holds.ok here first
    match second : last watched' with
    | (.ok (), _) => simpa only [second] using (ends value).ok here second
    | (.error _, _) => simpa only [second] using (ends value).error here second
  | (.error callback, watched') =>
    have here := holds.error here first
    match second : last watched' with
    | (.ok (), _) => simpa only [second] using (cleans callback).ok here second
    | (.error _, _) => simpa only [second] using (cleans callback).error here second

section Gives

variable {property : α → Prop}

theorem act_gives {action : Action σ α} (gives : Gives action property) :
    Gives (act action) property :=
  act_holds gives

theorem warn_if_gives {worth : Bool} {warning : Warning} {next : Unit → Measuring σ α}
    (goes_on : Gives (next ()) property) :
    Gives (if worth then warn warning >>= next else next ()) property :=
  warn_if_holds (fun _ => True) goes_on

theorem ensuring_gives {body : Measuring σ α} (gives : Gives body property)
    (last : Measuring σ Unit) : Gives (ensuring body last) property := by
  refine ensuring_holds gives (fun value => ?_) fun _ => Gives.anything last
  exact Holds.intro (fun _ _ _ has _ => has) fun _ _ _ _ _ => trivial

end Gives

end Measuring

end CalcLength
