namespace CalcLength

/-- Properties and their values, in order. No property has two values. -/
structure Declarations where
  entries : List (String × String)
  nodup : (entries.map Prod.fst).Nodup

namespace Declarations

def empty : Declarations :=
  ⟨[], List.nodup_nil⟩

def names (declarations : Declarations) : List String :=
  declarations.entries.map Prod.fst

/-- The value of one property exchanged, the place of each kept. -/
def replace (name value : String) (entries : List (String × String)) : List (String × String) :=
  entries.map fun entry => if entry.1 = name then (name, value) else entry

theorem replace_names (name value : String) (entries : List (String × String)) :
    (replace name value entries).map Prod.fst = entries.map Prod.fst := by
  rw [replace, List.map_map]
  refine List.map_congr_left fun entry _ => ?_
  simp only [Function.comp_apply]
  split
  · rename_i same
    exact same.symm
  · rfl

/-- Gives a property a value. A property that has one keeps its place, any other goes to the end. -/
def insert (declarations : Declarations) (name value : String) : Declarations :=
  if known : name ∈ declarations.names then
    ⟨replace name value declarations.entries, by rw [replace_names]; exact declarations.nodup⟩
  else
    ⟨declarations.entries ++ [(name, value)], by
      rw [List.map_append, List.map_cons, List.map_nil, List.nodup_append]
      refine ⟨declarations.nodup, by simp, fun other before last atEnd => ?_⟩
      rw [List.mem_singleton.mp atEnd]
      rintro rfl
      exact known before⟩

/-- Gives properties values, one after the other. -/
def insertAll (declarations : Declarations) (entries : List (String × String)) : Declarations :=
  entries.foldl (fun declarations entry => declarations.insert entry.1 entry.2) declarations

def ofList (entries : List (String × String)) : Declarations :=
  empty.insertAll entries

end Declarations

end CalcLength
