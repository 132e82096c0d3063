import ClassXref.ClassFile.References
import ClassXref.Index.NamespaceFilter
import Std.Data.TreeMap
import Std.Data.TreeSet

/-! The cross-reference index. For each symbol that the filter accepts it holds the contexts in which
the symbol is used, without repetition, and a count of uses with repetition; for each class it holds
the inheritance record that was added last. -/
namespace ClassXref

structure Index where
  filter : NamespaceFilter
  contexts : Std.TreeMap String (Std.TreeSet String) := {}
  usageCount : Nat := 0
  classes : Std.TreeMap String ClassRecord := {}

namespace Index

/-- The index that holds nothing yet. -/
def empty (filter : NamespaceFilter) : Index := { filter }

/-- Notes a use of a symbol, if the filter accepts the symbol. -/
def note (index : Index) (symbol context : String) : Index :=
  if index.filter.accepts symbol then
    { index with
      contexts := index.contexts.insert symbol ((index.contexts.getD symbol {}).insert context)
      usageCount := index.usageCount + 1 }
  else index

def noteUsage (index : Index) (usage : Usage) : Index :=
  index.note usage.symbol.text usage.referrer.text

/-- Adds the inheritance record of a class in the place of an earlier one. -/
def declare (index : Index) (record : ClassRecord) : Index :=
  { index with classes := index.classes.insert record.name record }

/-- Adds everything that the visit of one class reported. -/
def addEvents (index : Index) (events : Events) : Index :=
  let noted := events.usages.foldl noteUsage index
  match events.record with
  | some record => noted.declare record
  | none => noted

/-- Adds the class file in a buffer, all of it or, if it cannot be read and walked to its end,
nothing. The result is the name of the class. -/
def add (data : ByteArray) : EStateM Fault Index String := do
  match EStateM.run (ClassFile.visit data) ({} : Events) with
  | .ok name events =>
    modify fun index => index.addEvents events
    return name
  | .error fault _ => throw fault

/-! ### Questions -/

/-- The contexts in which a symbol is used, in ascending order. -/
def usages (index : Index) (symbol : String) : List String :=
  (index.contexts.getD symbol {}).toList

/-- How many different symbols are used. -/
def symbolCount (index : Index) : Nat := index.contexts.size

def classCount (index : Index) : Nat := index.classes.size

def record? (index : Index) (name : String) : Option ClassRecord := index.classes[name]?

/-- All inheritance records, in ascending order of names. -/
def records (index : Index) : List ClassRecord := index.classes.toList.map (·.2)

/-- One line for each class, in ascending order of names. -/
def classTable (index : Index) : List String := index.records.map ClassRecord.tableRow

end Index
end ClassXref
