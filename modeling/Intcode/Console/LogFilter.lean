import Intcode.Event

namespace Intcode.Console

/-! # Log filters

A filter says from which level on events are shown. A directive is about the
events whose area begins in one way and, if it names one, that have a field. Of
the directives that fit an event the one with the longest area decides. Of those
with equally long ones it is one with a field, in fact the one with the last
field in order, and of equal ones the last. An event that no directive fits is
not shown.
-/

/-- The gravest level that is still shown and all graver ones, or nothing. -/
abbrev Threshold := Option Level

structure Directive where
  /-- What the area of an event begins with. -/
  area : Option String := none
  /-- A name that an event can be asked for. -/
  field : Option String := none
  threshold : Threshold
deriving DecidableEq, Repr

structure LogFilter where
  directives : List Directive
deriving DecidableEq, Repr

namespace Directive

def fits (directive : Directive) (event : Event) : Bool :=
  (directive.area.all fun start => start.toList.isPrefixOf event.area.toList) &&
    directive.field.all fun name => event.names.contains name

/-- How closely the directive describes an area that it fits. -/
def rank (directive : Directive) : Nat :=
  directive.area.elim 0 fun start => start.length + 1

/-- Does a field go before another in order? None goes first. -/
def precedes (left right : Option String) : Bool :=
  right.any fun right => left.all fun left => left < right

/-- Does the directive yield to another one that fits the same event? -/
def yieldsTo (directive other : Directive) : Bool :=
  directive.rank < other.rank ||
    (directive.rank = other.rank && precedes directive.field other.field)

end Directive

namespace LogFilter

def ofLevel (level : Level) : LogFilter :=
  { directives := [{ threshold := some level }] }

/-- The filter for the number of times that more log was asked for. -/
def ofVerbosity : Nat → LogFilter
  | 0 => ofLevel .warn
  | 1 => ofLevel .info
  | 2 => ofLevel .debug
  | _ => ofLevel .trace

/-- The directive that decides about an event. -/
def directive? (filter : LogFilter) (event : Event) : Option Directive :=
  (filter.directives.filter (·.fits event)).foldl
    (fun best directive =>
      if best.any directive.yieldsTo then best else some directive)
    none

def shows (filter : LogFilter) (event : Event) : Bool :=
  ((filter.directive? event).bind Directive.threshold).any
    fun level => event.level.rank ≤ level.rank

end LogFilter

end Intcode.Console
