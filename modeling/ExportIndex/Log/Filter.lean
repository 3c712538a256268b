import ExportIndex.Log.Event

/-!
# Filters of the log

A filter decides which events are shown.  It goes by their metadata alone, so it shows all events that
are reported at one place of the program or none of them.

* `Filter.atLeast` shows the events of a level and of the more important ones.
* `Filter.chosen` is the filter of a run: one that is asked for from outside, or else the one that the
  verbosity stands for.  How a filter is asked for, and what can be asked, is not decided here.
-/

namespace ExportIndex
namespace Log

/-- The word for a level. -/
def Level.word : Level → String
  | .trace => "TRACE"
  | .debug => "DEBUG"
  | .info => "INFO"
  | .warn => "WARN"
  | .error => "ERROR"

/-- The place of a level in the order of importance. -/
def Level.rank : Level → Nat
  | .trace => 0
  | .debug => 1
  | .info => 2
  | .warn => 3
  | .error => 4

/-- The least level shown when the log is asked to be so many times more verbose. -/
def Level.ofVerbosity : Nat → Level
  | 0 => .warn
  | 1 => .info
  | 2 => .debug
  | _ => .trace

/-- What decides which events are shown. -/
abbrev Filter := Metadata → Bool

/-- The events of a level and of the more important ones. -/
def Filter.atLeast (least : Level) : Filter := fun metadata =>
  least.rank ≤ metadata.level.rank

/-- The filter that is asked for, if there is one, and otherwise that of the verbosity. -/
def Filter.chosen (asked : Option Filter) (verbosity : Nat) : Filter :=
  asked.getD (.atLeast (.ofVerbosity verbosity))

end Log
end ExportIndex
