import CalcLength.Browser
import CalcLength.Proofs.Transcript

namespace CalcLength

open CalcLength.Action

variable {σ ν : Type}

/-- What an attempt has to do with a container. -/
inductive Kind
  | apart
  | insertion
  | query
  | removal
deriving DecidableEq

/-- An insertion that failed has changed nothing, whereas a removal
counts from when it is attempted. -/
def Attempt.kind : Attempt ν → Kind
  | .completed (.insertFirst ..) => .insertion
  | .completed (.remove ..) => .removal
  | .failed (.remove ..) => .removal
  | .completed (.size _) => .query
  | .failed (.size _) => .query
  | _ => .apart

/-- Whether there is at most one insertion, a removal for each insertion, and
no query but between the two. -/
structure Balanced (kinds : List Kind) : Prop where
  once : kinds.count .insertion ≤ 1
  matched : kinds.count .removal = kinds.count .insertion
  between : ∀ front back, kinds = front ++ .query :: back → .insertion ∈ front ∧ .removal ∈ back

namespace Balanced

theorem of_apart {kinds : List Kind} (apart : ∀ kind ∈ kinds, kind = .apart) : Balanced kinds := by
  have none {kind : Kind} (other : kind ≠ .apart) : kinds.count kind = 0 :=
    List.count_eq_zero.mpr fun member => other (apart kind member)
  refine ⟨?_, ?_, ?_⟩
  · rw [none (by decide)]
    exact Nat.zero_le 1
  · rw [none (by decide), none (by decide)]
  · rintro front back rfl
    cases apart .query (List.mem_append_right _ List.mem_cons_self)

theorem of_session {outside inside : List Kind} (apart : ∀ kind ∈ outside, kind = .apart)
    (queries : ∀ kind ∈ inside, kind = .query) :
    Balanced (outside ++ .insertion :: inside ++ [.removal]) := by
  have none {kind : Kind} (other : kind ≠ .apart) (other' : kind ≠ .query) :
      outside.count kind = 0 ∧ inside.count kind = 0 :=
    ⟨List.count_eq_zero.mpr fun member => other (apart kind member),
      List.count_eq_zero.mpr fun member => other' (queries kind member)⟩
  have insertions : outside.count .insertion = 0 ∧ inside.count .insertion = 0 :=
    none (by decide) (by decide)
  have removals : outside.count .removal = 0 ∧ inside.count .removal = 0 :=
    none (by decide) (by decide)
  refine ⟨?_, ?_, fun front back whole => ⟨?_, ?_⟩⟩
  · simp [insertions]
  · simp [insertions, removals]
  · rw [List.append_assoc] at whole
    rcases List.append_eq_append_iff.mp whole with ⟨more, rfl, rest⟩ | ⟨more, same, rest⟩
    · cases more with
      | nil => cases rest
      | cons kind more =>
        rw [← (List.cons.inj rest).1]
        exact List.mem_append_right _ List.mem_cons_self
    · cases more with
      | nil => cases rest
      | cons kind more =>
        have first : .query ∈ outside := by
          rw [same, ← (List.cons.inj rest).1]
          exact List.mem_append_right _ List.mem_cons_self
        cases apart .query first
  · have last := congrArg List.getLast? whole
    cases back with
    | nil =>
      rw [List.getLast?_concat, List.getLast?_concat] at last
      cases last
    | cons kind back =>
      rw [List.getLast?_concat, List.getLast?_append, List.getLast?_cons_cons, List.getLast?_cons,
        Option.some_or] at last
      exact List.mem_of_getLast? (List.getLast?_cons.trans last.symm)

end Balanced

namespace Probes

/-- The calls that make one probe. -/
def unitCalls (root : ν) (calibration : Float) (probe : RelativeUnit × ν) : List (Call ν) :=
  [.create "div" (.wide calibration probe.1) probe.2, .append root probe.2]

/-- The calls that make the probes, all outside of the container. -/
def building (probes : Probes ν) (tag : String) (calibration : Float) : List (Call ν) :=
  .create tag .cover probes.root :: probes.units.flatMap (unitCalls probes.root calibration) ++
    [.create "div" .fill probes.percent, .append probes.root probes.percent]

def insertion (probes : Probes ν) (container : ν) : Call ν :=
  .insertFirst container probes.root

/-- The calls that take the sizes. -/
def queries (probes : Probes ν) : List (Call ν) :=
  .size probes.percent :: probes.units.map fun probe => .size probe.2

def removal (probes : Probes ν) (container : ν) : Call ν :=
  .remove container probes.root

/-- The calls of a measurement, whatever the sizes are. -/
def calls (probes : Probes ν) (container : ν) (tag : String)
    (calibration : Float) : List (Call ν) :=
  probes.building tag calibration ++ probes.insertion container :: probes.queries ++
    [probes.removal container]

/-- Whether a measurement with these probes was broken off at one of its calls. Then the
probes are taken out again, or that is attempted, just when they were in the container and
it was not this that failed. -/
def BrokenOff (probes : Probes ν) (container : ν) (tag : String) (calibration : Float)
    (attempts : List (Attempt ν)) : Prop :=
  ∃ before call after cleanup, probes.calls container tag calibration = before ++ call :: after ∧
    attempts = before.map .completed ++ .failed call.request :: cleanup ∧
    (probes.insertion container ∈ before ∧ call ≠ probes.removal container ∧
        (∃ attempt, cleanup = [attempt] ∧ attempt.request = (probes.removal container).request) ∨
      (probes.insertion container ∉ before ∨ call = probes.removal container) ∧ cleanup = [])

section Follows

variable (engine : Engine σ ν)

theorem install_follows (container : ν) (tag : String) (calibration : Float) :
    Follows Recorded.attempts (fun probes calls => probes.units.map Prod.fst = RelativeUnit.all ∧
      calls = probes.building tag calibration ++ [probes.insertion container])
      (install engine.recorded container tag calibration) := by
  have : Nonempty ν := ⟨container⟩
  have create (name : String) (shape : ProbeShape) : Follows Recorded.attempts
      (fun node calls => calls = [.create name shape node]) (engine.recorded.create name shape) :=
    .recorded _ _ _ fun _ => rfl
  have append (parent child : ν) : Follows Recorded.attempts
      (fun _ calls => calls = [.append parent child]) (engine.recorded.append parent child) :=
    .recorded _ _ _ fun _ => rfl
  have insert (parent child : ν) :
      Follows Recorded.attempts (fun _ calls => calls = [.insertFirst parent child])
        (engine.recorded.insertFirst parent child) := .recorded _ _ _ fun _ => rfl
  have units (root : ν) : Follows Recorded.attempts
      (fun units calls => units.map Prod.fst = RelativeUnit.all ∧
        calls = units.flatMap (unitCalls root calibration))
      (RelativeUnit.all.mapM (installUnit engine.recorded root calibration)) := by
    refine @Follows.mapM_gathers _ _ _ _ _ _
      (fun as bs calls => bs.map Prod.fst = as ∧ calls = bs.flatMap (unitCalls root calibration))
      (fun as bs calls unit planned => ?_) _ [] [] [] ⟨rfl, rfl⟩
    obtain ⟨rfl, rfl⟩ := planned
    refine (create "div" (.wide calibration unit)).bind fun probe _ made =>
      (append root probe).bind fun _ _ joined => .pure ?_
    subst made joined
    simp [unitCalls]
  refine (create tag .cover).bind fun root _ made => (units root).bind fun units _ planned => ?_
  refine (create "div" .fill).bind fun percent _ made' =>
    (append root percent).bind fun _ _ joined => ?_
  refine (insert container root).bind fun _ _ inserted => .pure ?_
  obtain ⟨all, rfl⟩ := planned
  subst made made' joined inserted
  exact ⟨all, by simp [building, insertion]⟩

theorem read_follows (calibration : Float) (probes : Probes ν) :
    Follows (fun watched : Watched (Recorded σ ν) => watched.state.attempts)
      (fun _ calls => calls = probes.queries)
      (probes.read engine.recorded calibration) := by
  have : Nonempty Extent := ⟨⟨⟨0⟩, ⟨0⟩⟩⟩
  have size (node : ν) : Follows (fun watched : Watched (Recorded σ ν) => watched.state.attempts)
      (fun _ calls => calls = [.size node]) (Measuring.act (engine.recorded.size node)) :=
    Measuring.act_follows (.recorded _ _ _ fun _ => rfl)
  have units (start : Scale) :
      Follows (fun watched : Watched (Recorded σ ν) => watched.state.attempts)
        (fun _ calls => calls = probes.units.map fun probe => .size probe.2)
        (probes.units.foldlM (readUnit engine.recorded calibration) start) := by
    refine @Follows.foldlM_gathers _ _ _ _ _ _
      (fun (as : List (RelativeUnit × ν)) calls => calls = as.map fun probe => .size probe.2)
      (fun as calls scale probe planned => ?_) _ [] [] start rfl
    refine (size probe.2).bind fun extent _ asked => Measuring.warn_if_follows (.pure ?_)
    subst planned asked
    simp
  refine (size probes.percent).bind fun extent _ asked => Measuring.warn_if_follows ?_
  subst asked
  refine (units _).mono fun _ _ planned => ?_
  rw [planned]
  rfl

theorem removal_holds (container : ν) (probes : Probes ν) (start : List (Attempt ν)) :
    Holds (fun watched : Watched (Recorded σ ν) => watched.state.attempts = start)
      (Measuring.act (engine.recorded.remove container probes.root))
      (fun _ watched => watched.state.attempts = start ++ [.completed (probes.removal container)])
      (fun _ watched => watched.state.attempts = start ++
        [.failed (probes.removal container).request]) := by
  have noted := Action.recorded_holds (engine.remove container probes.root)
    (.remove container probes.root)
    (fun _ => .remove container probes.root) start
  exact Measuring.act_holds noted

end Follows

section BrokenOff

variable {probes : Probes ν} {container : ν} {tag : String} {calibration : Float}

theorem insertion_not_mem_building :
    probes.insertion container ∉ probes.building tag calibration := by
  simp [insertion, building, unitCalls]

theorem removal_not_mem_queries : probes.removal container ∉ probes.queries := by
  simp [removal, queries]

/-- All that comes before a failure to build is building. -/
theorem mem_building_of_mem {before after : List (Call ν)} {call earlier : Call ν}
    (planned : probes.building tag calibration ++ [probes.insertion container] =
      before ++ call :: after)
    (member : earlier ∈ before) : earlier ∈ probes.building tag calibration := by
  have same := congrArg List.dropLast planned
  rw [List.dropLast_concat, List.dropLast_append_of_ne_nil (List.cons_ne_nil _ _)] at same
  exact same ▸ List.mem_append_left _ member

/-- A failure before the probes are in the container. -/
theorem brokenOff_of_building {before after : List (Call ν)} {call : Call ν}
    (planned : probes.building tag calibration ++ [probes.insertion container] =
      before ++ call :: after) :
    probes.BrokenOff container tag calibration
      (before.map .completed ++ [.failed call.request]) := by
  have outside : probes.insertion container ∉ before := fun inside =>
    insertion_not_mem_building (mem_building_of_mem planned inside)
  refine ⟨before, call, after ++ probes.queries ++ [probes.removal container], [], ?_,
    rfl, .inr ⟨.inl outside, rfl⟩⟩
  have whole := congrArg (· ++ (probes.queries ++ [probes.removal container])) planned
  simpa [calls] using whole

/-- A failure to take a size. -/
theorem brokenOff_of_queries {before after : List (Call ν)} {call : Call ν} {attempt : Attempt ν}
    (planned : probes.queries = before ++ call :: after)
    (removed : attempt.request = (probes.removal container).request) :
    probes.BrokenOff container tag calibration
      ((probes.building tag calibration ++ [probes.insertion container]).map .completed ++
      (before.map .completed ++ [.failed call.request]) ++ [attempt]) := by
  refine ⟨probes.building tag calibration ++ probes.insertion container :: before, call,
    after ++ [probes.removal container], [attempt], ?_, ?_, .inl ⟨?_, ?_, attempt, rfl, removed⟩⟩
  · rw [calls, planned]
    simp
  · simp
  · simp
  · rintro rfl
    have member : probes.removal container ∈ probes.queries :=
      planned ▸ List.mem_append_right _ List.mem_cons_self
    exact removal_not_mem_queries member

/-- A failure to take the probes out again. -/
theorem brokenOff_of_removal : probes.BrokenOff container tag calibration
    (((probes.building tag calibration ++ [probes.insertion container]).map .completed ++
      probes.queries.map .completed) ++
      [.failed (probes.removal container).request]) := by
  refine ⟨probes.building tag calibration ++ probes.insertion container :: probes.queries,
    probes.removal container, [], [], ?_, ?_, .inr ⟨.inr rfl, rfl⟩⟩
  · rfl
  · simp

end BrokenOff

section Kinds

variable {probes : Probes ν} {container : ν} {tag : String} {calibration : Float}

theorem kind_of_mem_building {call : Call ν} (member : call ∈ probes.building tag calibration) :
    (Attempt.completed call).kind = .apart ∧ (Attempt.failed call.request).kind = .apart := by
  simp only [building, unitCalls, List.cons_append, List.mem_cons, List.mem_append,
    List.mem_flatMap, List.not_mem_nil, or_false] at member
  rcases member with rfl | ⟨_, _, rfl | rfl⟩ | rfl | rfl <;> exact ⟨rfl, rfl⟩

theorem kind_of_mem_queries {call : Call ν} (member : call ∈ probes.queries) :
    (Attempt.completed call).kind = .query ∧ (Attempt.failed call.request).kind = .query := by
  simp only [queries, List.mem_cons, List.mem_map] at member
  rcases member with rfl | ⟨_, _, rfl⟩ <;> exact ⟨rfl, rfl⟩

theorem balanced_of_building {before after : List (Call ν)} {call : Call ν}
    (planned : probes.building tag calibration ++ [probes.insertion container] =
      before ++ call :: after) :
    Balanced
      ((before.map Attempt.completed ++ [Attempt.failed call.request]).map Attempt.kind) := by
  have last : (Attempt.failed call.request).kind = .apart := by
    have member : call ∈ probes.building tag calibration ++ [probes.insertion container] :=
      planned ▸ List.mem_append_right _ List.mem_cons_self
    rcases List.mem_append.mp member with outside | inserted
    · exact (kind_of_mem_building outside).2
    · rw [List.mem_singleton.mp inserted]
      rfl
  refine .of_apart fun kind member => ?_
  simp only [List.map_append, List.map_map, List.map_cons, List.map_nil, List.mem_append,
    List.mem_map, List.mem_singleton] at member
  rcases member with ⟨earlier, member, rfl⟩ | rfl
  · exact (kind_of_mem_building (mem_building_of_mem planned member)).1
  · exact last

theorem balanced_of_session {inside : List (Attempt ν)} {attempt : Attempt ν}
    (asked : ∀ attempt ∈ inside, attempt.kind = .query) (removed : attempt.kind = .removal) :
    Balanced
      (((probes.building tag calibration ++ [probes.insertion container]).map Attempt.completed ++
        inside ++ [attempt]).map Attempt.kind) := by
  have outside :
      ∀ kind ∈ ((probes.building tag calibration).map Attempt.completed).map Attempt.kind,
        kind = .apart := by
    simp only [List.map_map, List.mem_map]
    rintro kind ⟨call, member, rfl⟩
    exact (kind_of_mem_building member).1
  have inside : ∀ kind ∈ inside.map Attempt.kind, kind = .query := by
    simp only [List.mem_map]
    rintro kind ⟨attempt, member, rfl⟩
    exact asked attempt member
  have inserted : (Attempt.completed (probes.insertion container)).kind = .insertion := rfl
  have session := Balanced.of_session outside inside
  simpa [inserted, removed] using session

end Kinds

end Probes

/-- What a measurement adds to an empty record. -/
theorem measure_recorded_holds (engine : Engine σ ν) (container : ν) (settings : ProbeSettings) :
    Holds (fun watched : Watched (Recorded σ ν) => watched.state.attempts = [])
      (measure engine.recorded container settings)
      (fun _ watched => Balanced (watched.state.attempts.map Attempt.kind) ∧
        ∃ probes : Probes ν, probes.units.map Prod.fst = RelativeUnit.all ∧
          watched.state.attempts =
            (probes.calls container settings.tag settings.usedCalibration).map .completed)
      (fun _ watched => Balanced (watched.state.attempts.map Attempt.kind) ∧
        ∃ probes : Probes ν, probes.units.map Prod.fst = RelativeUnit.all ∧
          probes.BrokenOff container settings.tag settings.usedCalibration
            watched.state.attempts) := by
  unfold measure
  refine Measuring.warn_if_holds (fun recorded : Recorded σ ν => recorded.attempts = []) ?_
  have installed := Measuring.act_holds
    ((Probes.install_follows engine container settings.tag settings.usedCalibration).holds [])
  have built : Holds (fun watched : Watched (Recorded σ ν) => watched.state.attempts = [])
      (Measuring.act
        (Probes.install engine.recorded container settings.tag settings.usedCalibration))
      (fun probes watched => probes.units.map Prod.fst = RelativeUnit.all ∧
        watched.state.attempts = (probes.building settings.tag settings.usedCalibration ++
          [probes.insertion container]).map .completed)
      (fun _ watched => Balanced (watched.state.attempts.map Attempt.kind) ∧
        ∃ probes : Probes ν, probes.units.map Prod.fst = RelativeUnit.all ∧
          probes.BrokenOff container settings.tag settings.usedCalibration
            watched.state.attempts) := by
    refine installed.mono (fun _ => id) ?_ ?_
    · rintro probes watched ⟨calls, ⟨all, rfl⟩, added⟩
      exact ⟨all, added⟩
    · rintro _ watched ⟨probes, before, call, after, ⟨all, planned⟩, added⟩
      rw [added]
      exact ⟨Probes.balanced_of_building planned.symm, probes, all,
        Probes.brokenOff_of_building planned.symm⟩
  refine built.bind fun probes => .of_known fun all => ?_
  have read := (Probes.read_follows engine settings.usedCalibration probes).holds
    ((probes.building settings.tag settings.usedCalibration ++
      [probes.insertion container]).map .completed)
  have removal := Probes.removal_holds engine container probes
  refine Measuring.ensuring_holds read (fun _ => ?_) fun _ => ?_
  · rintro watched ⟨calls, rfl, added⟩
    have asked : ∀ attempt ∈ probes.queries.map Attempt.completed, attempt.kind = .query := by
      simp only [List.mem_map]
      rintro attempt ⟨call, member, rfl⟩
      exact (Probes.kind_of_mem_queries member).1
    refine (removal _).mono (fun _ => id) (fun _ _ removed => ?_)
      (fun _ _ removed => ?_) watched added
    · rw [removed]
      refine ⟨Probes.balanced_of_session asked rfl, probes, all, ?_⟩
      simp [Probes.calls]
    · rw [removed]
      exact ⟨Probes.balanced_of_session asked rfl, probes, all, Probes.brokenOff_of_removal⟩
  · rintro watched ⟨_, before, call, after, planned, added⟩
    have asked : ∀ attempt ∈ before.map Attempt.completed ++ [.failed call.request],
        attempt.kind = .query := by
      simp only [List.mem_append, List.mem_map, List.mem_singleton]
      rintro attempt (⟨earlier, member, rfl⟩ | rfl)
      · exact (Probes.kind_of_mem_queries (planned ▸ List.mem_append_left _ member)).1
      · exact (Probes.kind_of_mem_queries (planned ▸ List.mem_append_right _ List.mem_cons_self)).2
    refine (removal _).mono (fun _ => id) (fun _ _ removed => ?_)
      (fun _ _ removed => ?_) watched added
    · rw [removed]
      exact ⟨Probes.balanced_of_session asked rfl, probes, all,
        Probes.brokenOff_of_queries planned.symm rfl⟩
    · rw [removed]
      exact ⟨Probes.balanced_of_session asked rfl, probes, all,
        Probes.brokenOff_of_queries planned.symm rfl⟩

/-- Whatever an engine does, a measurement asks it for the same: to build the probes one after the
other and put them into the container, then for the size of each, then to take the probes out again.
A failure ends this, and of what would have come only the probes are still taken out if they are in
the container and it was not this that failed. So sizes are asked for only while the probes are in
the container, and they are taken out as often as they are put in. To keep a record makes no
difference to a measurement. -/
theorem measure_protocol (engine : Engine σ ν) (container : ν) (settings : ProbeSettings)
    (watched : Watched σ) :
    ∃ outcome final attempts,
      measure engine container settings watched = (outcome, final) ∧
      measure engine.recorded container settings ⟨⟨watched.state, []⟩, watched.warnings⟩ =
        (outcome, ⟨⟨final.state, attempts⟩, final.warnings⟩) ∧
      Balanced (attempts.map Attempt.kind) ∧
      ∃ probes : Probes ν, probes.units.map Prod.fst = RelativeUnit.all ∧
        match outcome with
        | .ok _ =>
          attempts = (probes.calls container settings.tag settings.usedCalibration).map .completed
        | .error _ =>
          probes.BrokenOff container settings.tag settings.usedCalibration attempts := by
  have holds :=
    measure_recorded_holds engine container settings ⟨⟨watched.state, []⟩, watched.warnings⟩ rfl
  have same := measure_reflects engine.recorded_reflects container settings
    ⟨⟨watched.state, []⟩, watched.warnings⟩
  match ends : measure engine.recorded container settings
    ⟨⟨watched.state, []⟩, watched.warnings⟩ with
  | (.ok scale, ⟨⟨state, attempts⟩, warnings⟩) =>
    rw [ends] at holds same
    exact ⟨_, ⟨state, warnings⟩, attempts, same, rfl, holds⟩
  | (.error callback, ⟨⟨state, attempts⟩, warnings⟩) =>
    rw [ends] at holds same
    exact ⟨_, ⟨state, warnings⟩, attempts, same, rfl, holds⟩

/-- The third size cannot be taken, and the probes leave their container all the same. -/
example : let failing : Browser := { Browser.ofMetrics {} with failure := some ⟨.size, 2⟩ }
    (measure Browser.engine.recorded 0 {} ⟨⟨failing, []⟩, []⟩).2.state.attempts.map Attempt.kind =
      List.replicate 19 .apart ++ .insertion :: List.replicate 3 .query ++ [.removal] := by
  decide +kernel

end CalcLength
