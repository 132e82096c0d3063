import ClassXref.Index.Basic

/-! Indexing a batch of class files. A class that cannot be read is listed and passed over; the list
of failures is ordered by entry name, and failures of one entry keep the order in which they
arose. -/
namespace ClassXref

/-- A class file and the name of the place where it was found. -/
structure ClassInput where
  entry : String
  data : ByteArray
  deriving Inhabited

/-- Something that could not be read or indexed, and why. -/
structure Failure where
  entry : String
  error : String
  deriving Repr, DecidableEq, Inhabited

/-- What was found under an input: class files, and what could not be read. -/
structure Collected where
  classes : List ClassInput := []
  failures : List Failure := []
  deriving Inhabited

/-- The outcome of indexing a batch. `classCount` counts everything found, `indexedCount` what the
index took in. -/
structure Summary where
  classCount : Nat
  indexedCount : Nat
  failures : List Failure
  deriving Repr, DecidableEq, Inhabited

namespace Batch

/-- The index, the number of classes it took in and the failures, last first. -/
structure Progress where
  index : Index
  indexedCount : Nat := 0
  failures : List Failure := []

/-- Indexes one class file or notes its failure. -/
def commit (progress : Progress) (input : ClassInput) : Progress :=
  match EStateM.run (Index.add input.data) progress.index with
  | .ok _ index => { progress with index, indexedCount := progress.indexedCount + 1 }
  | .error fault index =>
    { progress with index, failures := ⟨input.entry, fault.message⟩ :: progress.failures }

/-- Failures in the order of their entries; equal entries keep their order. -/
def sortFailures (failures : List Failure) : List Failure :=
  failures.mergeSort fun a b => decide (a.entry ≤ b.entry)

/-- Indexes the classes in list order. Earlier failures come before those of indexing. -/
def run (index : Index) (collected : Collected) : Index × Summary :=
  let done := collected.classes.foldl commit { index }
  (done.index,
    { classCount := collected.classes.length + collected.failures.length
      indexedCount := done.indexedCount
      failures := sortFailures (collected.failures ++ done.failures.reverse) })

end Batch
end ClassXref
