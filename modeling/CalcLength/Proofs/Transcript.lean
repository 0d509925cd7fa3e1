import CalcLength.Proofs.Action

namespace CalcLength

open CalcLength.Action

/-- What an engine is asked for. -/
inductive Request (ν : Type)
  | create (name : String) (shape : ProbeShape)
  | append (parent child : ν)
  | insertFirst (parent child : ν)
  | remove (parent child : ν)
  | size (node : ν)

/-- What an engine has done, with the element that was created. -/
inductive Call (ν : Type)
  | create (name : String) (shape : ProbeShape) (node : ν)
  | append (parent child : ν)
  | insertFirst (parent child : ν)
  | remove (parent child : ν)
  | size (node : ν)

/-- A call that was completed, or a request that failed. -/
inductive Attempt (ν : Type)
  | completed (call : Call ν)
  | failed (request : Request ν)

/-- An engine's state and all that was attempted so far. -/
structure Recorded (σ ν : Type) where
  state : σ
  attempts : List (Attempt ν)

section Recording

variable {σ ν α : Type}

def Call.request : Call ν → Request ν
  | create name shape _ => .create name shape
  | append parent child => .append parent child
  | insertFirst parent child => .insertFirst parent child
  | remove parent child => .remove parent child
  | size node => .size node

def Attempt.request : Attempt ν → Request ν
  | completed call => call.request
  | failed request => request

/-- The action with a note of how it went. -/
def Action.recorded (action : Action σ α) (request : Request ν) (call : α → Call ν) :
    Action (Recorded σ ν) α := fun recorded =>
  match action recorded.state with
  | (.ok value, state) => (.ok value, ⟨state, recorded.attempts ++ [.completed (call value)]⟩)
  | (.error callback, state) => (.error callback, ⟨state, recorded.attempts ++ [.failed request]⟩)

/-- The engine with a record of what is attempted. -/
def Engine.recorded (engine : Engine σ ν) : Engine (Recorded σ ν) ν where
  create name shape :=
    Action.recorded (engine.create name shape) (.create name shape) (.create name shape)
  append parent child := Action.recorded (engine.append parent child) (.append parent child)
    fun _ => .append parent child
  insertFirst parent child :=
    Action.recorded (engine.insertFirst parent child) (.insertFirst parent child) fun _ =>
      .insertFirst parent child
  remove parent child := Action.recorded (engine.remove parent child) (.remove parent child)
    fun _ => .remove parent child
  size node := Action.recorded (engine.size node) (.size node) fun _ => .size node

end Recording

/-- Whether one action does on a state what another does on all that can be seen of it. -/
def Action.Reflects {σ τ α : Type} (view : τ → σ) (action' : Action τ α)
    (action : Action σ α) : Prop :=
  ∀ state, action (view state) = ((action' state).1, view (action' state).2)

namespace Action.Reflects

variable {σ τ α β : Type} {view : τ → σ}

theorem pure (value : α) : Reflects view (Pure.pure value) (Pure.pure value) :=
  fun _ => rfl

theorem bind {action' : Action τ α} {action : Action σ α} {next' : α → Action τ β}
    {next : α → Action σ β} (first : Reflects view action' action)
    (rest : ∀ value, Reflects view (next' value) (next value)) :
    Reflects view (action' >>= next') (action >>= next) := by
  intro state
  rw [Holds.bind_apply, Holds.bind_apply, first state]
  match action' state with
  | (.ok value, state') => exact rest value state'
  | (.error callback, state') => rfl

theorem mapM {f' : α → Action τ β} {f : α → Action σ β} (each : ∀ a, Reflects view (f' a) (f a))
    (list : List α) : Reflects view (list.mapM f') (list.mapM f) := by
  induction list with
  | nil =>
    rw [List.mapM_nil, List.mapM_nil]
    exact pure _
  | cons a list ih =>
    rw [List.mapM_cons, List.mapM_cons]
    exact (each a).bind fun b => ih.bind fun bs => pure _

theorem foldlM {f' : β → α → Action τ β} {f : β → α → Action σ β}
    (each : ∀ b a, Reflects view (f' b a) (f b a)) (list : List α) (start : β) :
    Reflects view (list.foldlM f' start) (list.foldlM f start) := by
  induction list generalizing start with
  | nil => exact pure _
  | cons a list ih =>
    rw [List.foldlM_cons, List.foldlM_cons]
    exact (each start a).bind ih

end Action.Reflects

def Watched.map {σ τ : Type} (view : τ → σ) (watched : Watched τ) : Watched σ :=
  ⟨view watched.state, watched.warnings⟩

namespace Measuring

variable {σ τ α : Type} {view : τ → σ}

theorem act_reflects {action' : Action τ α} {action : Action σ α}
    (reflects : Reflects view action' action) :
    Reflects (Watched.map view) (act action') (act action) := by
  intro watched
  have same : act action (watched.map view) =
      ((action (view watched.state)).1, ⟨(action (view watched.state)).2, watched.warnings⟩) := rfl
  rw [same, reflects watched.state]
  rfl

theorem warn_if_reflects {worth : Bool} {warning : Warning} {next' : Unit → Measuring τ α}
    {next : Unit → Measuring σ α} (goes_on : Reflects (Watched.map view) (next' ()) (next ())) :
    Reflects (Watched.map view) (if worth then warn warning >>= next' else next' ())
      (if worth then warn warning >>= next else next ()) := by
  cases worth with
  | true => exact fun watched => goes_on { watched with warnings := watched.warnings ++ [warning] }
  | false => exact goes_on

theorem ensuring_reflects {view : Watched τ → Watched σ} {body' : Measuring τ α}
    {body : Measuring σ α} {last' : Measuring τ Unit} {last : Measuring σ Unit}
    (reflects : Reflects view body' body) (ends : Reflects view last' last) :
    Reflects view (ensuring body' last') (ensuring body last) := by
  intro watched
  unfold ensuring
  rw [reflects watched]
  match body' watched with
  | (.ok value, watched') =>
    simp only [ends watched']
    match last' watched' with
    | (.ok (), _) => rfl
    | (.error _, _) => rfl
  | (.error callback, watched') => simp only [ends watched']

end Measuring

/-- Whether one engine does what another does on what can be seen of its state. -/
structure Engine.Reflects {σ τ ν : Type} (view : τ → σ) (engine' : Engine τ ν)
    (engine : Engine σ ν) : Prop where
  create : ∀ name shape, Action.Reflects view (engine'.create name shape) (engine.create name shape)
  append : ∀ parent child, Action.Reflects view (engine'.append parent child)
    (engine.append parent child)
  insertFirst : ∀ parent child, Action.Reflects view (engine'.insertFirst parent child)
    (engine.insertFirst parent child)
  remove : ∀ parent child, Action.Reflects view (engine'.remove parent child)
    (engine.remove parent child)
  size : ∀ node, Action.Reflects view (engine'.size node) (engine.size node)

section Reflects

variable {σ τ ν : Type} {view : τ → σ} {engine' : Engine τ ν} {engine : Engine σ ν}
    (reflects : engine'.Reflects view engine)
include reflects

theorem Probes.install_reflects (container : ν) (tag : String) (calibration : Float) :
    Action.Reflects view (install engine' container tag calibration)
      (install engine container tag calibration) := by
  have unit (root : ν) (unit : RelativeUnit) :
      Action.Reflects view (installUnit engine' root calibration unit)
        (installUnit engine root calibration unit) :=
    (reflects.create _ _).bind fun _ => (reflects.append _ _).bind fun _ => .pure _
  refine (reflects.create _ _).bind fun root => (Reflects.mapM (unit root) _).bind fun units => ?_
  refine (reflects.create _ _).bind fun percent => (reflects.append _ _).bind fun _ => ?_
  exact (reflects.insertFirst _ _).bind fun _ => .pure _

theorem Probes.read_reflects (calibration : Float) (probes : Probes ν) :
    Action.Reflects (Watched.map view) (probes.read engine' calibration)
      (probes.read engine calibration) := by
  refine (Measuring.act_reflects (reflects.size _)).bind fun extent => Measuring.warn_if_reflects ?_
  refine Reflects.foldlM (fun scale probe => ?_) _ _
  exact (Measuring.act_reflects (reflects.size _)).bind fun extent =>
    Measuring.warn_if_reflects (.pure _)

/-- A measurement sees of an engine's state no more than its callbacks do. -/
theorem measure_reflects (container : ν) (settings : ProbeSettings) :
    Action.Reflects (Watched.map view) (measure engine' container settings)
      (measure engine container settings) := by
  unfold measure
  refine Measuring.warn_if_reflects
    ((Measuring.act_reflects (Probes.install_reflects reflects _ _ _)).bind fun probes => ?_)
  exact Measuring.ensuring_reflects (Probes.read_reflects reflects _ probes)
    (Measuring.act_reflects (reflects.remove _ _))

end Reflects

theorem Action.recorded_reflects {σ ν α : Type} (action : Action σ α) (request : Request ν)
    (call : α → Call ν) :
    Action.Reflects Recorded.state (Action.recorded action request call) action := by
  intro recorded
  unfold Action.recorded
  match action recorded.state with
  | (.ok value, state) => rfl
  | (.error callback, state) => rfl

/-- To keep a record changes nothing. -/
theorem Engine.recorded_reflects {σ ν : Type} (engine : Engine σ ν) :
    engine.recorded.Reflects Recorded.state engine where
  create _ _ := Action.recorded_reflects _ _ _
  append _ _ := Action.recorded_reflects _ _ _
  insertFirst _ _ := Action.recorded_reflects _ _ _
  remove _ _ := Action.recorded_reflects _ _ _
  size _ := Action.recorded_reflects _ _ _

theorem Action.recorded_holds {σ ν α : Type} (action : Action σ α) (request : Request ν)
    (call : α → Call ν) (start : List (Attempt ν)) :
    Holds (fun recorded => recorded.attempts = start) (Action.recorded action request call)
      (fun value recorded => recorded.attempts = start ++ [.completed (call value)])
      (fun _ recorded => recorded.attempts = start ++ [.failed request]) := by
  rintro ⟨state, attempts⟩ rfl
  unfold Action.recorded
  match action state with
  | (.ok value, state) => rfl
  | (.error callback, state) => rfl

section Plan

variable {τ ν α : Type} (attempts : τ → List (Attempt ν)) (start : List (Attempt ν))
    (plan : α → List (Call ν) → Prop)

/-- Whether all calls planned for a value were added to a record. -/
def CarriedOut (value : α) (state : τ) : Prop :=
  ∃ calls, plan value calls ∧ attempts state = start ++ calls.map .completed

/-- Whether the calls planned before some call were added to a record,
and then that this one failed. -/
def CutShort (state : τ) : Prop :=
  ∃ value before call after, plan value (before ++ call :: after) ∧
    attempts state = start ++ (before.map .completed ++ [.failed call.request])

/-- Whether an action adds to a record what is planned for the value that it ends with or, where a
call fails, what is planned up to that call. -/
structure Action.Follows (action : Action τ α) : Prop where
  possible : ∃ value calls, plan value calls
  holds : ∀ start, Holds (fun state => attempts state = start) action
    (CarriedOut attempts start plan)
    fun _ => CutShort attempts start plan

end Plan

namespace Action.Follows

variable {τ ν α β : Type} {attempts : τ → List (Attempt ν)}

theorem pure {plan : α → List (Call ν) → Prop} {value : α} (planned : plan value []) :
    Follows attempts plan (Pure.pure value) where
  possible := ⟨value, [], planned⟩
  holds start :=
    Holds.pure fun state here => ⟨[], planned, by rw [here, List.map_nil, List.append_nil]⟩

theorem mono {action : Action τ α} {plan plan' : α → List (Call ν) → Prop}
    (follows : Follows attempts plan action)
    (weaker : ∀ value calls, plan value calls → plan' value calls) :
    Follows attempts plan' action where
  possible := by
    obtain ⟨value, calls, planned⟩ := follows.possible
    exact ⟨value, calls, weaker _ _ planned⟩
  holds start := by
    refine (follows.holds start).mono (fun _ => id) ?_ ?_
    · rintro value state ⟨calls, planned, added⟩
      exact ⟨calls, weaker _ _ planned, added⟩
    · rintro _ state ⟨value, before, call, after, planned, added⟩
      exact ⟨value, before, call, after, weaker _ _ planned, added⟩

theorem bind {action : Action τ α} {next : α → Action τ β} {plan : α → List (Call ν) → Prop}
    {whole : β → List (Call ν) → Prop} (first : Follows attempts plan action)
    (rest : ∀ value calls, plan value calls →
      Follows attempts (fun result more => whole result (calls ++ more)) (next value)) :
    Follows attempts whole (action >>= next) where
  possible := by
    obtain ⟨value, calls, planned⟩ := first.possible
    obtain ⟨result, more, planned⟩ := (rest value calls planned).possible
    exact ⟨result, _, planned⟩
  holds start := by
    have first : Holds (fun state => attempts state = start) action (CarriedOut attempts start plan)
        fun _ => CutShort attempts start whole := by
      refine (first.holds start).mono (fun _ => id) (fun _ _ => id) ?_
      -- What would have come behind the call that failed is anything that is possible there.
      rintro _ state ⟨value, before, call, after, planned, added⟩
      obtain ⟨result, more, planned⟩ := (rest value _ planned).possible
      rw [List.append_assoc] at planned
      exact ⟨result, before, call, _, planned, added⟩
    refine first.bind fun value state => ?_
    rintro ⟨calls, planned, added⟩
    refine ((rest value calls planned).holds (start ++ calls.map .completed)).mono
      (fun _ => id) ?_ ?_ state added
    · rintro result state ⟨more, planned, added⟩
      exact ⟨calls ++ more, planned, by rw [added, List.map_append, List.append_assoc]⟩
    · rintro _ state ⟨result, before, call, after, planned, added⟩
      refine ⟨result, calls ++ before, call, after, by rwa [List.append_assoc], ?_⟩
      rw [added, List.map_append]
      simp only [List.append_assoc]

theorem mapM_gathers {f : α → Action τ β} {plan : List α → List β → List (Call ν) → Prop}
    (each : ∀ as bs calls a, plan as bs calls →
      Follows attempts (fun b more => plan (as ++ [a]) (bs ++ [b]) (calls ++ more)) (f a))
    (list as : List α) (bs : List β) (calls : List (Call ν)) (planned : plan as bs calls) :
    Follows attempts (fun results more => plan (as ++ list) (bs ++ results) (calls ++ more))
      (list.mapM f) := by
  induction list generalizing as bs calls with
  | nil =>
    rw [List.mapM_nil]
    exact pure (by simpa only [List.append_nil] using planned)
  | cons a list ih =>
    rw [List.mapM_cons]
    refine (each as bs calls a planned).bind fun b more planned =>
      (ih _ _ _ planned).bind fun results rest planned => pure ?_
    simpa only [List.append_assoc, List.singleton_append, List.append_nil] using planned

theorem foldlM_gathers {f : β → α → Action τ β} {plan : List α → List (Call ν) → Prop}
    (each : ∀ as calls b a, plan as calls →
      Follows attempts (fun _ more => plan (as ++ [a]) (calls ++ more)) (f b a))
    (list as : List α) (calls : List (Call ν)) (start : β) (planned : plan as calls) :
    Follows attempts (fun _ more => plan (as ++ list) (calls ++ more)) (list.foldlM f start) := by
  induction list generalizing as calls start with
  | nil =>
    rw [List.foldlM_nil]
    exact pure (by simpa only [List.append_nil] using planned)
  | cons a list ih =>
    rw [List.foldlM_cons]
    refine (each as calls start a planned).bind fun b more planned => ?_
    simpa only [List.append_assoc, List.singleton_append] using ih _ _ b planned

/-- A recorded action makes its one call. -/
theorem recorded {σ : Type} [some_value : Nonempty α] (action : Action σ α) (request : Request ν)
    (call : α → Call ν) (same : ∀ value, (call value).request = request) :
    Follows Recorded.attempts (fun value calls => calls = [call value])
      (Action.recorded action request call) where
  possible := some_value.elim fun value => ⟨value, _, rfl⟩
  holds start := by
    refine (recorded_holds action request call start).mono (fun _ => id)
      (fun value _ added => ⟨_, rfl, added⟩) ?_
    intro _ _ added
    obtain ⟨value⟩ := some_value
    exact ⟨value, [], call value, [], rfl, by rw [same, added]; rfl⟩

end Action.Follows

namespace Measuring

variable {τ ν α : Type} {attempts : τ → List (Attempt ν)} {plan : α → List (Call ν) → Prop}

theorem act_follows {action : Action τ α} (follows : Follows attempts plan action) :
    Follows (fun watched : Watched τ => attempts watched.state) plan (act action) where
  possible := follows.possible
  holds start := act_holds (follows.holds start)

theorem warn_if_follows {worth : Bool} {warning : Warning} {next : Unit → Measuring τ α}
    (goes_on : Follows (fun watched : Watched τ => attempts watched.state) plan (next ())) :
    Follows (fun watched : Watched τ => attempts watched.state) plan
      (if worth then warn warning >>= next else next ()) where
  possible := goes_on.possible
  holds start := warn_if_holds (fun state => attempts state = start) (goes_on.holds start)

end Measuring

end CalcLength
