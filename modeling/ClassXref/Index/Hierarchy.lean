import ClassXref.Index.Basic

/-! Questions about the hierarchy of recorded classes. Class files need not fit together, so a class
may be missing, extend itself or take part in a cycle. -/
namespace ClassXref.Index

/-- The records that name `parent` as super class or interface. -/
def childrenAmong (records : List ClassRecord) (parent : String) : List ClassRecord :=
  records.filter (·.extendsOrImplements parent)

/-- The records that do not. -/
def othersAmong (records : List ClassRecord) (parent : String) : List ClassRecord :=
  records.filter (!·.extendsOrImplements parent)

theorem length_childrenAmong_add (records : List ClassRecord) (parent : String) :
    (childrenAmong records parent).length + (othersAmong records parent).length =
      records.length := by
  induction records with
  | nil => rfl
  | cons r records ih =>
    cases h : r.extendsOrImplements parent <;>
      simp only [childrenAmong, othersAmong] at ih <;>
      simp [childrenAmong, othersAmong, h] <;> omega

/-- The recorded classes that name `name` as super class or interface, in ascending order. -/
def directSubtypes (index : Index) (name : String) : List String :=
  (childrenAmong index.records name).map (·.name)

/-- What a class extends and implements as it declares it; nothing for a class without a record. -/
def supertypes (index : Index) (name : String) : List String :=
  match index.record? name with
  | some record => record.supertypes
  | none => []

/-- The records, out of `unfound`, that lead to one of the `pending` names by steps to a supertype
through records of `unfound`. A record is taken out of `unfound` when it is met. -/
def gatherBelow (unfound : List ClassRecord) : (pending : List String) → List String
  | [] => []
  | parent :: pending =>
    let children := (childrenAmong unfound parent).map (·.name)
    children ++ gatherBelow (othersAmong unfound parent) (children ++ pending)
termination_by pending => unfound.length + pending.length
decreasing_by
  have split := length_childrenAmong_add unfound parent
  simp only [List.length_append, List.length_map, List.length_cons]
  omega

/-- The recorded classes below `name` at any depth, in ascending order. A class is not below itself,
even in a cycle. -/
def allSubtypes (index : Index) (name : String) : List String :=
  (gatherBelow (index.records.filter (·.name != name)) [name]).mergeSort

/-- The super class of a class if both have a record. -/
def recordedSuper? (index : Index) (name : String) : Option String := do
  let record ← index.record? name
  let parent ← record.superName
  if index.classes.contains parent then some parent else none

/-- Follows super classes as long as they are recorded and were not met before. -/
def climb (index : Index) (unseen : List String) (name : String) : String :=
  if _h : name ∈ unseen then
    match index.recordedSuper? name with
    | some parent => index.climb (unseen.erase name) parent
    | none => name
  else name
termination_by unseen.length
decreasing_by
  have shorter := List.length_erase_of_mem _h
  have nonempty := List.length_pos_of_mem _h
  omega

/-- The end of the chain of recorded super classes from `name`; on a cycle, the first class that
comes up a second time. -/
def hierarchyRoot (index : Index) (name : String) : String :=
  index.climb index.classes.keys name

end ClassXref.Index
