import CalcLength.Json.Forms
import CalcLength.Proofs.Binary64.Quotient

namespace CalcLength

theorem RelativeUnit.eq_name_of_ofName? {name : String} {unit : RelativeUnit}
    (found : ofName? name = some unit) : name = unit.name := by
  have same := List.find?_some (p := fun unit : RelativeUnit => unit.letters = name.toList) found
  rw [RelativeUnit.name, of_decide_eq_true same, String.ofList_toList]

theorem Json.eq_number_of_number? {json : Json} {x : Float} (found : json.number? = some x) :
    json = .number x := by
  cases json with
  | number y =>
    cases found
    rfl
  | _ => cases found

theorem RelativeUnit.name_ne_widthKey (unit : RelativeUnit) : unit.name ≠ Scale.widthKey := by
  cases unit <;> decide

theorem RelativeUnit.name_ne_heightKey (unit : RelativeUnit) : unit.name ≠ Scale.heightKey := by
  cases unit <;> decide

namespace Scale

/-- The names that the fields of a scale's object may have. -/
inductive IsKey : String → Prop
  | width : IsKey widthKey
  | height : IsKey heightKey
  | unit (unit : RelativeUnit) : IsKey unit.name

/-- What a scale gives as the size of what has a name in its object. -/
def size? (scale : Scale) (name : String) : Option Float :=
  if name = widthKey then some scale.percentOfWidth
  else if name = heightKey then some scale.percentOfHeight
  else (RelativeUnit.ofName? name).bind scale.pixels?

@[simp] theorem size?_widthKey (scale : Scale) :
    scale.size? widthKey = some scale.percentOfWidth := rfl

@[simp] theorem size?_heightKey (scale : Scale) :
    scale.size? heightKey = some scale.percentOfHeight := rfl

@[simp] theorem size?_name (scale : Scale) (unit : RelativeUnit) :
    scale.size? unit.name = scale.pixels? unit := by
  cases unit <;> rfl

theorem isKey_of_size? {scale : Scale} {name : String} {x : Float}
    (sized : scale.size? name = some x) : IsKey name := by
  unfold size? at sized
  split at sized
  · rename_i isWidth
    exact isWidth ▸ .width
  · split at sized
    · rename_i isHeight
      exact isHeight ▸ .height
    · obtain ⟨unit, found, _⟩ := Option.bind_eq_some_iff.mp sized
      exact RelativeUnit.eq_name_of_ofName? found ▸ .unit unit

/-- The sizes of all that has a name are all there is to a scale. -/
theorem eq_of_size? {a b : Scale} (same : ∀ name, a.size? name = b.size? name) : a = b := by
  obtain ⟨width, height, pixels⟩ := a
  obtain ⟨width', height', pixels'⟩ := b
  have sameWidth : width = width' := Option.some.inj (same widthKey)
  have sameHeight : height = height' := Option.some.inj (same heightKey)
  have samePixels : pixels = pixels' := funext fun unit => by simpa using same unit.name
  rw [sameWidth, sameHeight, samePixels]

theorem size?_ofPercents {width height : Float} {name : String} (notWidth : name ≠ widthKey)
    (notHeight : name ≠ heightKey) : (ofPercents width height).size? name = none := by
  rw [size?, if_neg notWidth, if_neg notHeight, Option.bind_eq_none_iff]
  exact fun _ _ => rfl

theorem size?_set (scale : Scale) (unit : RelativeUnit) (x : Float) (name : String) :
    (scale.set unit x).size? name = if name = unit.name then some x else scale.size? name := by
  by_cases named : name = unit.name
  · rw [if_pos named, named, size?_name, set_pixels?_self]
  · rw [if_neg named]
    cases found : RelativeUnit.ofName? name with
    | none => simp [size?, found, set]
    | some other =>
      have same := RelativeUnit.eq_name_of_ofName? found
      have different : other ≠ unit := fun isUnit => named (isUnit ▸ same)
      rw [same, size?_name, size?_name, set_pixels?_of_ne scale different]

theorem takeField?_number (scale : Scale) (name : String) (x : Float) :
    takeField? scale (name, .number x) =
      if name = widthKey then some { scale with percentOfWidth := x }
    else if name = heightKey then some { scale with percentOfHeight := x }
    else (RelativeUnit.ofName? name).map fun unit => scale.set unit x := by
  rw [Option.map_eq_bind]
  rfl

/-- A number under a name becomes the size of what has the name, and all other sizes stay. -/
theorem exists_takeField? (scale : Scale) {name : String} (key : IsKey name) (x : Float) :
    ∃ next, takeField? scale (name, .number x) = some next ∧
      ∀ other, next.size? other = if other = name then some x else scale.size? other := by
  cases key with
  | width =>
    refine ⟨{ scale with percentOfWidth := x }, rfl, fun other => ?_⟩
    by_cases isWidth : other = widthKey
    · rw [if_pos isWidth, isWidth, size?_widthKey]
    · simp only [size?, if_neg isWidth]
  | height =>
    refine ⟨{ scale with percentOfHeight := x }, rfl, fun other => ?_⟩
    by_cases isHeight : other = heightKey
    · rw [if_pos isHeight, isHeight, size?_heightKey]
    · simp only [size?, if_neg isHeight]
  | unit unit =>
    refine ⟨scale.set unit x, ?_, scale.size?_set unit x⟩
    rw [takeField?_number, if_neg unit.name_ne_widthKey, if_neg unit.name_ne_heightKey,
      RelativeUnit.ofName?_name, Option.map_some]

theorem takeField?_eq_some {scale next : Scale} {field : String × Json}
    (taken : takeField? scale field = some next) :
    IsKey field.1 ∧ ∃ x, field.2 = .number x ∧
      ∀ name, next.size? name = if name = field.1 then some x else scale.size? name := by
  obtain ⟨name, json⟩ := field
  obtain ⟨x, isNumber, _⟩ := Option.bind_eq_some_iff.mp taken
  obtain rfl := Json.eq_number_of_number? isNumber
  have key : IsKey name := by
    by_cases isWidth : name = widthKey
    · exact isWidth ▸ .width
    by_cases isHeight : name = heightKey
    · exact isHeight ▸ .height
    rw [takeField?_number, if_neg isWidth, if_neg isHeight] at taken
    obtain ⟨unit, found, _⟩ := Option.map_eq_some_iff.mp taken
    exact RelativeUnit.eq_name_of_ofName? found ▸ .unit unit
  obtain ⟨_, taken', sizes⟩ := exists_takeField? scale key x
  rw [taken] at taken'
  cases taken'
  exact ⟨key, x, rfl, sizes⟩

/-- Fields of different names that are taken in one after the other give the sizes they
have, and leave all others. -/
theorem sizes_of_foldlM {fields : List (String × Json)} {scale last : Scale}
    (distinct : (fields.map Prod.fst).Nodup) (taken : fields.foldlM takeField? scale = some last) :
    (∀ field ∈ fields, IsKey field.1 ∧ ∃ x, field.2 = .number x ∧ last.size? field.1 = some x) ∧
      ∀ name, name ∉ fields.map Prod.fst → last.size? name = scale.size? name := by
  induction fields generalizing scale with
  | nil =>
    cases taken
    exact ⟨nofun, fun _ _ => rfl⟩
  | cons field fields ih =>
    rw [List.foldlM_cons] at taken
    obtain ⟨next, first, taken⟩ := Option.bind_eq_some_iff.mp taken
    obtain ⟨key, x, isNumber, sizes⟩ := takeField?_eq_some first
    rw [List.map_cons, List.nodup_cons] at distinct
    obtain ⟨given, kept⟩ := ih distinct.2 taken
    refine ⟨fun other member => ?_, fun name absent => ?_⟩
    · rcases List.mem_cons.mp member with rfl | later
      · exact ⟨key, x, isNumber, by rw [kept _ distinct.1, sizes, if_pos rfl]⟩
      · exact given other later
    · rw [List.map_cons, List.mem_cons, not_or] at absent
      rw [kept name absent.2, sizes, if_neg absent.1]

theorem exists_foldlM {fields : List (String × Json)} (keys : ∀ field ∈ fields, IsKey field.1)
    (numbers : ∀ field ∈ fields, ∃ x, field.2 = .number x) (scale : Scale) :
    ∃ last, fields.foldlM takeField? scale = some last := by
  induction fields generalizing scale with
  | nil => exact ⟨scale, rfl⟩
  | cons field fields ih =>
    obtain ⟨x, isNumber⟩ := numbers field List.mem_cons_self
    obtain ⟨next, first, _⟩ := exists_takeField? scale (keys field List.mem_cons_self) x
    obtain ⟨last, taken⟩ := ih (fun _ later => keys _ (List.mem_cons_of_mem _ later))
      (fun _ later => numbers _ (List.mem_cons_of_mem _ later)) next
    refine ⟨last, ?_⟩
    rw [← isNumber] at first
    rw [List.foldlM_cons, first]
    exact taken

/-- What the fields of an object must be for it to be a scale. -/
structure IsForm (fields : List (String × Json)) : Prop where
  distinct : (fields.map Prod.fst).Nodup
  width : widthKey ∈ fields.map Prod.fst
  height : heightKey ∈ fields.map Prod.fst
  keys : ∀ field ∈ fields, IsKey field.1
  numbers : ∀ field ∈ fields, ∃ x, field.2 = .number x

theorem ofJson?_object (fields : List (String × Json)) : ofJson? (.object fields) =
    if (fields.map Prod.fst).Nodup ∧ widthKey ∈ fields.map Prod.fst ∧
      heightKey ∈ fields.map Prod.fst then
      fields.foldlM takeField? (ofPercents 0 0)
    else none := rfl

theorem exists_scale {fields : List (String × Json)} (form : IsForm fields) :
    ∃ scale, ofJson? (.object fields) = some scale := by
  obtain ⟨scale, taken⟩ := exists_foldlM form.keys form.numbers (ofPercents 0 0)
  exact ⟨scale, by rw [ofJson?_object, if_pos ⟨form.distinct, form.width, form.height⟩, taken]⟩

theorem taken_of_ofJson? {fields : List (String × Json)} {scale : Scale}
    (read : ofJson? (.object fields) = some scale) :
    ((fields.map Prod.fst).Nodup ∧ widthKey ∈ fields.map Prod.fst ∧
      heightKey ∈ fields.map Prod.fst) ∧
      fields.foldlM takeField? (ofPercents 0 0) = some scale := by
  rw [ofJson?_object] at read
  split at read
  · rename_i keyed
    exact ⟨keyed, read⟩
  · cases read

theorem isForm_of_ofJson? {fields : List (String × Json)} {scale : Scale}
    (read : ofJson? (.object fields) = some scale) : IsForm fields := by
  obtain ⟨⟨distinct, width, height⟩, taken⟩ := taken_of_ofJson? read
  obtain ⟨given, _⟩ := sizes_of_foldlM distinct taken
  refine ⟨distinct, width, height, fun field member => (given field member).1,
    fun field member => ?_⟩
  obtain ⟨_, x, isNumber, _⟩ := given field member
  exact ⟨x, isNumber⟩

/-- The fields of an object that is read are the sizes of the scale that is read from it. -/
theorem mem_fields_iff {fields : List (String × Json)} {scale : Scale}
    (read : ofJson? (.object fields) = some scale) {name : String} {json : Json} :
    (name, json) ∈ fields ↔ ∃ x, scale.size? name = some x ∧ json = .number x := by
  obtain ⟨⟨distinct, width, height⟩, taken⟩ := taken_of_ofJson? read
  obtain ⟨given, kept⟩ := sizes_of_foldlM distinct taken
  constructor
  · intro member
    obtain ⟨_, x, isNumber, sized⟩ := given _ member
    exact ⟨x, sized, isNumber⟩
  · rintro ⟨x, sized, rfl⟩
    by_cases present : name ∈ fields.map Prod.fst
    · obtain ⟨⟨_, json⟩, member, rfl⟩ := List.mem_map.mp present
      obtain ⟨_, y, isNumber, sized'⟩ := given _ member
      rw [sized] at sized'
      cases sized'
      cases isNumber
      exact member
    · have notWidth : name ≠ widthKey := fun isWidth => present (isWidth ▸ width)
      have notHeight : name ≠ heightKey := fun isHeight => present (isHeight ▸ height)
      rw [kept name present, size?_ofPercents notWidth notHeight] at sized
      cases sized

/-- The fields of the object that a scale is written as. -/
def fields (scale : Scale) : List (String × Json) :=
  RelativeUnit.all.filterMap
    (fun unit => (scale.pixels? unit).map fun x => (unit.name, Json.ofFloat x)) ++
    [(widthKey, Json.ofFloat scale.percentOfWidth), (heightKey, Json.ofFloat scale.percentOfHeight)]

theorem toJson_eq (scale : Scale) : scale.toJson = .object scale.fields := rfl

theorem mem_fields {scale : Scale} {name : String} {json : Json} :
    (name, json) ∈ scale.fields ↔ ∃ x, scale.size? name = some x ∧ json = .ofFloat x := by
  constructor
  · intro member
    rcases List.mem_append.mp member with ofUnit | ofPercent
    · obtain ⟨unit, _, given⟩ := List.mem_filterMap.mp ofUnit
      obtain ⟨x, known, same⟩ := Option.map_eq_some_iff.mp given
      cases same
      exact ⟨x, by rw [size?_name, known], rfl⟩
    · rw [List.mem_cons, List.mem_singleton] at ofPercent
      rcases ofPercent with same | same
      · cases same
        exact ⟨_, scale.size?_widthKey, rfl⟩
      · cases same
        exact ⟨_, scale.size?_heightKey, rfl⟩
  · rintro ⟨x, sized, rfl⟩
    cases isKey_of_size? sized with
    | width =>
      cases sized
      exact List.mem_append_right _ List.mem_cons_self
    | height =>
      cases sized
      exact List.mem_append_right _ (List.mem_cons_of_mem _ List.mem_cons_self)
    | unit unit =>
      rw [size?_name] at sized
      refine List.mem_append_left _ (List.mem_filterMap.mpr ⟨unit, unit.mem_all, ?_⟩)
      rw [sized, Option.map_some]

theorem distinct_fields (scale : Scale) : (scale.fields.map Prod.fst).Nodup := by
  have units : RelativeUnit.all.Pairwise fun a b => a.name ≠ b.name := by decide
  have percents : [widthKey, heightKey].Nodup := by decide
  rw [fields, List.map_append, List.nodup_append, List.Nodup, List.pairwise_map]
  refine ⟨units.filterMap _ ?_, percents, ?_⟩
  · intro a b apart field given field' given'
    obtain ⟨_, _, rfl⟩ := Option.map_eq_some_iff.mp given
    obtain ⟨_, _, rfl⟩ := Option.map_eq_some_iff.mp given'
    exact apart
  · intro name ofUnit key ofPercent
    obtain ⟨field, member, rfl⟩ := List.mem_map.mp ofUnit
    obtain ⟨unit, _, given⟩ := List.mem_filterMap.mp member
    obtain ⟨_, _, rfl⟩ := Option.map_eq_some_iff.mp given
    rw [List.map_cons, List.map_cons, List.map_nil, List.mem_cons, List.mem_singleton] at ofPercent
    rcases ofPercent with rfl | rfl
    · exact unit.name_ne_widthKey
    · exact unit.name_ne_heightKey

/-- Whether all sizes of a scale are finite. -/
structure IsFinite (scale : Scale) : Prop where
  percent : ∀ axis, (scale.percent axis).isFinite = true
  pixels : ∀ unit x, scale.pixels? unit = some x → x.isFinite = true

theorem isFinite_iff {scale : Scale} :
    scale.IsFinite ↔ ∀ name x, scale.size? name = some x → x.isFinite = true := by
  constructor
  · intro finite name x sized
    cases isKey_of_size? sized with
    | width =>
      cases sized
      exact finite.percent .horizontal
    | height =>
      cases sized
      exact finite.percent .vertical
    | unit unit => exact finite.pixels unit x (by rw [← sized, size?_name])
  · intro finite
    refine ⟨fun axis => ?_, fun unit x known => finite unit.name x (by rw [size?_name, known])⟩
    cases axis with
    | horizontal => exact finite _ _ scale.size?_widthKey
    | vertical => exact finite _ _ scale.size?_heightKey

theorem ofFloat_eq_number_iff {x y : Float} :
    Json.ofFloat x = .number y ↔ x.isFinite = true ∧ x = y := by
  unfold Json.ofFloat
  split
  · rename_i finite
    simp [finite]
  · rename_i infinite
    simp [infinite]

theorem isForm_fields_iff {scale : Scale} : IsForm scale.fields ↔ scale.IsFinite := by
  rw [isFinite_iff]
  constructor
  · intro form name x sized
    obtain ⟨y, isNumber⟩ := form.numbers _ (mem_fields.mpr ⟨x, sized, rfl⟩)
    exact (ofFloat_eq_number_iff.mp isNumber).1
  · intro finite
    refine ⟨scale.distinct_fields,
      List.mem_map_of_mem (mem_fields.mpr ⟨_, scale.size?_widthKey, rfl⟩),
      List.mem_map_of_mem (mem_fields.mpr ⟨_, scale.size?_heightKey, rfl⟩), ?_, ?_⟩
    · rintro ⟨name, json⟩ member
      obtain ⟨x, sized, _⟩ := mem_fields.mp member
      exact isKey_of_size? sized
    · rintro ⟨name, json⟩ member
      obtain ⟨x, sized, rfl⟩ := mem_fields.mp member
      exact ⟨x, ofFloat_eq_number_iff.mpr ⟨finite name x sized, rfl⟩⟩

theorem ofJson?_toJson {scale : Scale} (finite : scale.IsFinite) :
    ofJson? scale.toJson = some scale := by
  obtain ⟨restored, read⟩ := exists_scale (isForm_fields_iff.mpr finite)
  rw [toJson_eq, read]
  refine congrArg some (eq_of_size? fun name => Option.ext fun x => ?_)
  constructor
  · intro sized
    have member := (mem_fields_iff read).mpr ⟨x, sized, rfl⟩
    obtain ⟨y, sized', isNumber⟩ := mem_fields.mp member
    rw [sized', (ofFloat_eq_number_iff.mp isNumber.symm).2]
  · intro sized
    have member := mem_fields.mpr ⟨x, sized, rfl⟩
    obtain ⟨y, sized', isNumber⟩ := (mem_fields_iff read).mp member
    rw [sized', (ofFloat_eq_number_iff.mp isNumber).2]

theorem beq_self {scale : Scale} (finite : scale.IsFinite) : (scale == scale) = true := by
  have number {x : Float} (finite : x.isFinite = true) : (x == x) = true :=
    Binary64.beq_self (Binary64.not_isNaN_of_isFinite finite)
  show scale.same scale = true
  unfold same
  rw [Bool.and_eq_true, Bool.and_eq_true, List.all_eq_true]
  refine ⟨⟨number (finite.percent .horizontal), number (finite.percent .vertical)⟩,
    fun unit _ => ?_⟩
  cases known : scale.pixels? unit with
  | none => rfl
  | some x => exact number (finite.pixels unit x known)

theorem perm_fields {fields : List (String × Json)} {scale : Scale}
    (read : ofJson? (.object fields) = some scale)
    (finite : ∀ name x, (name, .number x) ∈ fields → x.isFinite = true) :
    scale.fields.Perm fields := by
  have nodup {fields : List (String × Json)} (distinct : (fields.map Prod.fst).Nodup) :
      fields.Nodup :=
    List.Pairwise.of_map Prod.fst (fun _ _ apart same => apart (congrArg Prod.fst same)) distinct
  refine (List.perm_ext_iff_of_nodup (nodup scale.distinct_fields)
    (nodup (isForm_of_ofJson? read).distinct)).mpr ?_
  rintro ⟨name, json⟩
  rw [mem_fields, mem_fields_iff read]
  refine exists_congr fun x => and_congr_right fun sized => ?_
  have number := finite name x ((mem_fields_iff read).mpr ⟨x, sized, rfl⟩)
  rw [ofFloat_eq_number_iff.mpr ⟨number, rfl⟩]

/-- A scale is written as an object that restores it, and as one that is refused if one of its sizes
is not finite. The objects that are read are those that have both percentages and otherwise units
only, each once and with a number, and the scale read from one is written as the same fields. -/
theorem json_restores (scale : Scale) :
    (scale.IsFinite → ofJson? scale.toJson = some scale ∧ (scale == scale) = true) ∧
    (¬scale.IsFinite → ofJson? scale.toJson = none) ∧
    (∀ json, (ofJson? json).isSome ↔ ∃ fields, json = .object fields ∧ IsForm fields) ∧
    ∀ fields, ofJson? (.object fields) = some scale →
      (∀ name x, (name, .number x) ∈ fields → x.isFinite = true) →
      ∃ written, scale.toJson = .object written ∧ written.Perm fields := by
  refine ⟨fun finite => ⟨ofJson?_toJson finite, beq_self finite⟩, fun infinite => ?_,
    fun json => ?_, fun fields read finite =>
    ⟨_, scale.toJson_eq, perm_fields read finite⟩⟩
  · refine Option.eq_none_iff_forall_ne_some.mpr fun restored read => infinite ?_
    exact isForm_fields_iff.mp (isForm_of_ofJson? read)
  · rw [Option.isSome_iff_exists]
    constructor
    · rintro ⟨restored, read⟩
      cases json with
      | object fields => exact ⟨fields, rfl, isForm_of_ofJson? read⟩
      | _ => cases read
    · rintro ⟨fields, rfl, form⟩
      exact exists_scale form

theorem json_restores_of_em :
    let scale := (ofPercents 2 3).set .em 16
    let unbounded := scale.set .ex (1 / 0)
    (scale.IsFinite ∧ ofJson? scale.toJson = some scale ∧ (scale == scale) = true) ∧
      (¬unbounded.IsFinite ∧ ofJson? unbounded.toJson = none) ∧
      ∃ written, scale.toJson = .object written ∧
        written.Perm [(heightKey, .number 3), (RelativeUnit.em.name, .number 16),
          (widthKey, .number 2)] := by
  intro scale unbounded
  obtain ⟨restores, _, _, writes⟩ := json_restores scale
  obtain ⟨_, refuses, _, _⟩ := json_restores unbounded
  have finite : scale.IsFinite := by
    have two : (2 : Float).isFinite = true := rfl
    have three : (3 : Float).isFinite = true := rfl
    refine ⟨fun axis => by cases axis <;> assumption, fun unit x known => ?_⟩
    cases unit <;> cases known
    rfl
  have infinite : ¬unbounded.IsFinite :=
    fun finite => nomatch finite.pixels .ex (1 / 0) (set_pixels?_self ..)
  refine ⟨⟨finite, restores finite⟩, ⟨infinite, refuses infinite⟩,
    writes _ rfl fun name x member => ?_⟩
  simp only [List.mem_cons, Prod.mk.injEq, Json.number.injEq, List.not_mem_nil, or_false] at member
  rcases member with ⟨_, rfl⟩ | ⟨_, rfl⟩ | ⟨_, rfl⟩ <;> rfl

end Scale

end CalcLength
