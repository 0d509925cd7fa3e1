import CalcLength.Declarations.Update
import Mathlib.Data.List.Forall2

namespace CalcLength

section Traversal

variable {ε α β : Type} {f : α → Except ε β} {list : List α}

/-- A list is gone through with success where each element is. -/
theorem mapM_eq_ok_iff {results : List β} :
    list.mapM f = .ok results ↔ List.Forall₂ (fun a b => f a = .ok b) list results := by
  induction list generalizing results with
  | nil =>
    rw [List.mapM_nil, List.forall₂_nil_left_iff]
    exact ⟨fun done => (Except.ok.inj done).symm, fun none => congrArg Except.ok none.symm⟩
  | cons a list ih =>
    rw [List.mapM_cons, List.forall₂_cons_left_iff]
    cases f a with
    | error fault => exact ⟨nofun, fun ⟨_, _, done, _⟩ => nomatch done⟩
    | ok b =>
      cases others : list.mapM f with
      | error fault =>
        exact ⟨nofun, fun ⟨_, _, _, done, _⟩ => nomatch others.symm.trans (ih.mpr done)⟩
      | ok bs =>
        constructor
        · rintro ⟨⟩
          exact ⟨b, bs, rfl, ih.mp others, rfl⟩
        · rintro ⟨_, _, done, rest, rfl⟩
          cases done
          cases others.symm.trans (ih.mpr rest)
          rfl

theorem exists_ok_of_mem {results : List β} (done : list.mapM f = .ok results) {a : α}
    (member : a ∈ list) : ∃ b, f a = .ok b := by
  rw [mapM_eq_ok_iff] at done
  induction done with
  | nil => cases member
  | cons first _ ih =>
    rcases List.mem_cons.mp member with rfl | rest
    · exact ⟨_, first⟩
    · exact ih rest

/-- The fault met in a list is that of the first element that has one. -/
theorem mapM_eq_error_iff {fault : ε} : list.mapM f = .error fault ↔
    ∃ before a after, list = before ++ a :: after ∧ f a = .error fault ∧
      ∀ b ∈ before, ∀ other, f b ≠ .error other := by
  induction list with
  | nil => exact ⟨nofun, fun ⟨_, _, _, same, _⟩ => nomatch List.append_eq_nil_iff.mp same.symm |>.2⟩
  | cons a list ih =>
    rw [List.mapM_cons]
    cases first : f a with
    | error fault' =>
      constructor
      · rintro ⟨⟩
        exact ⟨[], a, list, rfl, first, nofun⟩
      · rintro ⟨before, b, after, same, fails, good⟩
        cases before with
        | nil =>
          cases same
          cases first.symm.trans fails
          rfl
        | cons _ before =>
          cases same
          exact absurd first (good a (List.mem_cons_self ..) _)
    | ok b =>
      have rest : (do let b ← Except.ok b; let bs ← list.mapM f; return b :: bs) = .error fault ↔
          list.mapM f = .error fault := by
        cases list.mapM f with
        | error _ => exact Iff.rfl
        | ok _ => exact ⟨nofun, nofun⟩
      refine rest.trans (ih.trans ?_)
      constructor
      · rintro ⟨before, c, after, rfl, fails, good⟩
        refine ⟨a :: before, c, after, rfl, fails,
          List.forall_mem_cons.mpr ⟨fun other fails => ?_, good⟩⟩
        cases first.symm.trans fails
      · rintro ⟨before, c, after, same, fails, good⟩
        cases before with
        | nil =>
          cases same
          cases first.symm.trans fails
        | cons _ before =>
          cases same
          exact ⟨before, c, after, rfl, fails, (List.forall_mem_cons.mp good).2⟩

end Traversal

namespace Declarations

variable {scale : Scale} {entries changes : List (String × String)}

theorem entries_insert {declarations : Declarations} {name : String}
    (known : name ∈ declarations.names) (value : String) :
    (declarations.insert name value).entries = replace name value declarations.entries := by
  rw [insert, dif_pos known]

theorem names_insert {declarations : Declarations} {name : String}
    (known : name ∈ declarations.names) (value : String) :
    (declarations.insert name value).names = declarations.names := by
  rw [names, entries_insert known, replace_names, names]

/-- A declaration with the value that the changes give its property,
or its own if they give none. -/
def exchange (changes : List (String × String)) (entry : String × String) : String × String :=
  (entry.1, (changes.lookup entry.1).getD entry.2)

theorem exchange_of_not_mem {entry : String × String} (absent : entry.1 ∉ changes.map Prod.fst) :
    exchange changes entry = entry := by
  have none : changes.lookup entry.1 = none := by
    rw [List.lookup_eq_none_iff]
    intro change member
    have different : entry.1 ≠ change.1 := fun same => absent (same ▸ List.mem_map_of_mem member)
    exact bne_iff_ne.mpr different
  rw [exchange, none]
  rfl

theorem exchange_cons_self (name value former : String) :
    exchange ((name, value) :: changes) (name, former) = (name, value) := by
  rw [exchange, List.lookup_cons_self]
  rfl

theorem exchange_cons_of_ne {entry change : String × String} (different : entry.1 ≠ change.1) :
    exchange (change :: changes) entry = exchange changes entry := by
  rw [exchange, exchange, List.lookup_cons, beq_eq_false_iff_ne.mpr different]

theorem map_exchange_cons {entry change : String × String} (same : change.1 = entry.1)
    (absent : entry.1 ∉ entries.map Prod.fst) :
    (entry :: entries).map (exchange (change :: changes)) =
      change :: entries.map (exchange changes) := by
  obtain ⟨name, former⟩ := entry
  obtain ⟨_, value⟩ := change
  cases same
  rw [List.map_cons, exchange_cons_self, List.cons_inj_right]
  refine List.map_congr_left fun other member => exchange_cons_of_ne fun same => absent ?_
  rw [← same]
  exact List.mem_map_of_mem member

/-- New values of properties that have values come to stand in the places of the old ones. -/
theorem entries_insertAll {declarations : Declarations}
    (known : ∀ change ∈ changes, change.1 ∈ declarations.names)
    (distinct : (changes.map Prod.fst).Nodup) :
    (declarations.insertAll changes).entries = declarations.entries.map (exchange changes) := by
  induction changes generalizing declarations with
  | nil => exact (List.map_id' declarations.entries).symm
  | cons change changes ih =>
    obtain ⟨name, value⟩ := change
    have here : name ∈ declarations.names := known (name, value) (List.mem_cons_self ..)
    rw [List.map_cons, List.nodup_cons] at distinct
    have rest : ((declarations.insert name value).insertAll changes).entries =
        (declarations.insert name value).entries.map (exchange changes) := by
      refine ih (fun other member => ?_) distinct.2
      rw [names_insert here]
      exact known other (List.mem_cons_of_mem _ member)
    rw [entries_insert here, replace, List.map_map] at rest
    refine rest.trans (List.map_congr_left fun entry _ => ?_)
    rw [Function.comp_apply]
    split
    · rename_i same
      obtain ⟨_, former⟩ := entry
      cases same
      rw [exchange_of_not_mem distinct.1, exchange_cons_self]
    · rename_i different
      rw [exchange_cons_of_ne different]

theorem evaluateEntry_name {entry change : String × String}
    (done : evaluateEntry scale entry = .ok change) : change.1 = entry.1 := by
  unfold evaluateEntry at done
  cases result : Calc.evaluate scale (Axis.ofProperty entry.1) entry.2 with
  | error fault => rw [result] at done; cases done
  | ok value => rw [result] at done; cases done; rfl

theorem mapM_evaluateEntry_names (done : entries.mapM (evaluateEntry scale) = .ok changes) :
    changes.map Prod.fst = entries.map Prod.fst := by
  rw [mapM_eq_ok_iff] at done
  induction done with
  | nil => rfl
  | cons first _ ih => rw [List.map_cons, List.map_cons, ih, evaluateEntry_name first]

/-- A declaration with its value evaluated, if it is one to evaluate. -/
def evaluateOrKeep (scale : Scale) (entry : String × String) :
    Except LengthFault (String × String) :=
  if isCalculation entry.2 then evaluateEntry scale entry else .ok entry

/-- Evaluating the values on a list of their own, and exchanging the old ones for them, is
evaluating each in its place. -/
theorem mapM_evaluateOrKeep (distinct : (entries.map Prod.fst).Nodup) :
    entries.mapM (evaluateOrKeep scale) =
      ((entries.filter fun entry => isCalculation entry.2).mapM (evaluateEntry scale)).map
        fun changes => entries.map (exchange changes) := by
  induction entries with
  | nil => rfl
  | cons entry entries ih =>
    rw [List.map_cons, List.nodup_cons] at distinct
    rw [List.mapM_cons, ih distinct.2, evaluateOrKeep]
    split
    · rename_i calculation
      rw [List.filter_cons, if_pos calculation, List.mapM_cons]
      cases first : evaluateEntry scale entry with
      | error fault => rfl
      | ok change =>
        cases (entries.filter fun entry => isCalculation entry.2).mapM (evaluateEntry scale) with
        | error fault => rfl
        | ok changes =>
          exact congrArg Except.ok (map_exchange_cons (evaluateEntry_name first) distinct.1).symm
    · rename_i kept
      rw [List.filter_cons, if_neg kept]
      cases others : (entries.filter fun entry => isCalculation entry.2).mapM
        (evaluateEntry scale) with
      | error fault => rfl
      | ok changes =>
        have absent : entry.1 ∉ changes.map Prod.fst := by
          rw [mapM_evaluateEntry_names others]
          exact fun member => distinct.1 (List.filter_sublist.map Prod.fst |>.subset member)
        show Except.ok (entry :: _) = Except.ok (exchange changes entry :: _)
        rw [exchange_of_not_mem absent]

/-- What an update writes is every value evaluated in its place. -/
theorem entries_evaluate (declarations : Declarations) :
    (declarations.evaluate scale).map Declarations.entries =
      declarations.entries.mapM (evaluateOrKeep scale) := by
  rw [mapM_evaluateOrKeep declarations.nodup, evaluate]
  cases done : declarations.calculations.mapM (evaluateEntry scale) with
  | error fault =>
    rw [calculations] at done
    rw [done]
    rfl
  | ok changes =>
    have names := mapM_evaluateEntry_names done
    have inside : (declarations.calculations.map Prod.fst).Sublist declarations.names :=
      List.filter_sublist.map Prod.fst
    rw [← names] at inside
    have merged := entries_insertAll
      (fun change member => inside.subset (List.mem_map_of_mem member))
      (inside.nodup declarations.nodup)
    rw [calculations] at done
    rw [done]
    exact congrArg Except.ok merged

end Declarations

end CalcLength
