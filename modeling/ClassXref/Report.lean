import ClassXref.Index.Batch
import ClassXref.Index.Hierarchy
import ClassXref.Json.Value

/-! The report on an index: counts, failures and the answers to the questions that were asked.
Answers are listed under what was asked for, in ascending order and once each. -/
namespace ClassXref

/-- What a report is to answer. -/
structure Questions where
  usages : List String := []
  subtypes : List String := []
  supertypes : List String := []
  hierarchy : List String := []
  classes : List String := []
  classTable : Bool := false
  deriving Repr, DecidableEq, Inhabited

/-- The top of the hierarchy above a class, and all that is below the class. -/
structure HierarchyView where
  root : String
  subtypes : List String
  deriving Repr, DecidableEq, Inhabited

structure Report where
  namespaces : List String
  classCount : Nat
  usageCount : Nat
  symbolCount : Nat
  failures : List Failure
  usages : List (String × List String)
  subtypes : List (String × List String)
  supertypes : List (String × List String)
  hierarchy : List (String × HierarchyView)
  classes : List (String × Option ClassRecord)
  classTable : Option (List String)
  deriving Repr, DecidableEq, Inhabited

/-- Each name with its answer, in ascending order of names and without repetition. -/
def answersByName (names : List String) (answer : String → α) : List (String × α) :=
  (Std.TreeSet.ofList names).toList.map fun name => (name, answer name)

def Index.hierarchyView (index : Index) (name : String) : HierarchyView :=
  { root := index.hierarchyRoot name, subtypes := index.allSubtypes name }

/-- The report on an index that was built with this summary. -/
def Index.report (index : Index) (summary : Summary) (questions : Questions) : Report :=
  { namespaces := index.filter.prefixes
    classCount := summary.classCount
    usageCount := index.usageCount
    symbolCount := index.symbolCount
    failures := summary.failures
    usages := answersByName questions.usages index.usages
    subtypes := answersByName questions.subtypes index.directSubtypes
    supertypes := answersByName questions.supertypes index.supertypes
    hierarchy := answersByName questions.hierarchy index.hierarchyView
    classes := answersByName questions.classes index.record?
    classTable := if questions.classTable then some index.classTable else none }

namespace Json

def ofStrings (texts : List String) : Json := array (texts.map string)

def ofRecord (r : ClassRecord) : Json :=
  object [("name", string r.name),
    ("super_name", match r.superName with
      | some name => string name
      | none => null),
    ("interfaces", ofStrings r.interfaces), ("access", number r.access.bits.toNat)]

/-- One member for each answer. -/
def ofAnswers (toJson : α → Json) (answers : List (String × α)) : Json :=
  object (answers.map fun (name, a) => (name, toJson a))

/-- A member that is left out if there are no answers. -/
def optionalAnswers (key : String) (toJson : α → Json) (answers : List (String × α)) :
    List (String × Json) :=
  if answers.isEmpty then [] else [(key, ofAnswers toJson answers)]

end Json

/-- The report as a document. Questions that were not asked leave no trace, except that `usages` and
`subtypes` are always present. -/
def Report.toJson (r : Report) : Json :=
  let ofFailure (f : Failure) := .object [("entry", .string f.entry), ("error", .string f.error)]
  let ofView (v : HierarchyView) :=
    .object [("root", .string v.root), ("subtypes", .ofStrings v.subtypes)]
  let ofRecord? : Option ClassRecord → Json
    | some record => .ofRecord record
    | none => .null
  .object <|
    [("namespaces", .ofStrings r.namespaces),
      ("class_count", .number r.classCount),
      ("usage_count", .number r.usageCount),
      ("symbol_count", .number r.symbolCount),
      ("failures", .array (r.failures.map ofFailure)),
      ("usages", .ofAnswers .ofStrings r.usages),
      ("subtypes", .ofAnswers .ofStrings r.subtypes)]
    ++ Json.optionalAnswers "supertypes" .ofStrings r.supertypes
    ++ Json.optionalAnswers "hierarchy" ofView r.hierarchy
    ++ Json.optionalAnswers "classes" ofRecord? r.classes
    ++ (r.classTable.map fun rows => ("class_table", Json.ofStrings rows)).toList

/-- What is written: the document and a line break. -/
def Report.text (r : Report) : String :=
  r.toJson.pretty.push '\n'

end ClassXref
