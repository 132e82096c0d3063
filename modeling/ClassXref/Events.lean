import ClassXref.ClassRecord
import ClassXref.Fault

/-! What visiting a class reports: its inheritance record and its uses of symbols, in the order in
which they are met. Who takes the reports is left open; `Events` is the taker that keeps them.
Reports made before a fault stay, so that a reader of the log sees how far the visit came. -/
namespace ClassXref

/-- One report of a visit. -/
inductive Event where
  | declared (record : ClassRecord)
  | used (usage : Usage)
  deriving Repr, DecidableEq, Inhabited

/-- A state that takes in the reports of a visit, one at a time. -/
class Recorder (R : Type) where
  record : R → Event → R

/-- What the visit of one class reported: the inheritance record that came last, and every use. -/
structure Events where
  record : Option ClassRecord := none
  usages : Array Usage := #[]
  deriving Repr, DecidableEq, Inhabited

instance : Recorder Events where
  record
    | events, .declared record => { events with record := some record }
    | events, .used usage => { events with usages := events.usages.push usage }

/-- A computation that reports to a recorder and may stop with a fault. -/
abbrev Visit (R : Type) := EStateM Fault R

namespace Visit

variable {R : Type} [Recorder R]

/-- Reports one event. -/
def report (event : Event) : Visit R Unit :=
  modify fun recorder => Recorder.record recorder event

/-- Reports the inheritance record of the class. -/
def declare (record : ClassRecord) : Visit R Unit :=
  report (.declared record)

/-- Reports one use. -/
def use (referrer : Referrer) (symbol : Symbol) : Visit R Unit :=
  report (.used ⟨symbol, referrer⟩)

/-- Reports uses in order. -/
def useAll (referrer : Referrer) (symbols : List Symbol) : Visit R Unit :=
  symbols.forM (use referrer)

/-- Reports a use of each class. -/
def useClasses (referrer : Referrer) (names : List String) : Visit R Unit :=
  useAll referrer (names.map Symbol.ofClass)

end Visit
end ClassXref
