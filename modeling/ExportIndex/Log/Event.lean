import ExportIndex.Index.Basic

/-!
# The log

What the program reports while it works.  An event has a level, a message and named fields, and comes
from one module of the program; how it is written is decided in `Log.Record`.

* `Event.metadata` is what is known of an event before it is written, and all that a filter can go by.
-/

namespace ExportIndex
namespace Log

/-- How important an event is. -/
inductive Level where
  | trace
  | debug
  | info
  | warn
  | error
  deriving DecidableEq, Repr

/-- Something that is reported. -/
inductive Event where
  /-- A source is about to be scanned. -/
  | scanning (source : String)
  /-- A declaration was read. -/
  | parsed (source name : String) (line parameters : Nat)
  /-- A declaration gave way to a later one. -/
  | overwritten (what : Overwrite)
  /-- A pattern matches no file. -/
  | unmatched (pattern : String)
  /-- The number of files found. -/
  | sourcesFound (count : Nat)
  /-- The number of names in the index. -/
  | exportsFound (count : Nat)
  /-- A source cannot be read. -/
  | failed (failure : SourceFailure)
  deriving DecidableEq, Repr

/-- The value of a field: a text as it is, a text between quotes, or a number. -/
inductive Field where
  | plain (value : String)
  | quoted (value : String)
  | number (value : Nat)
  deriving DecidableEq, Repr

namespace Event

/-- The level of an event. -/
def level : Event → Level
  | .scanning _ => .trace
  | .parsed .. => .debug
  | .overwritten _ => .warn
  | .unmatched _ => .warn
  | .sourcesFound _ => .info
  | .exportsFound _ => .info
  | .failed _ => .error

/-- The module that reports an event. -/
def target : Event → String
  | .scanning _ => "exportscan_syntax::registry"
  | .parsed .. => "exportscan_syntax::registry"
  | .overwritten _ => "exportscan_syntax::registry"
  | .unmatched _ => "exportscan::discover"
  | .sourcesFound _ => "exportscan"
  | .exportsFound _ => "exportscan"
  | .failed _ => "exportscan"

/-- The message of an event. -/
def message : Event → String
  | .scanning _ => "scanning source"
  | .parsed .. => "parsed export"
  | .overwritten _ => "duplicate export; keeping the later declaration"
  | .unmatched pattern => "no files matched: " ++ pattern
  | .sourcesFound count => "scanning " ++ toString count ++ " source file(s)"
  | .exportsFound count => "found " ++ toString count ++ " export(s)"
  | .failed failure => failure.message ++ ": " ++ failure.cause.message

/-- The fields of an event, in the order they are written. -/
def fields : Event → List (String × Field)
  | .scanning source => [("source", .quoted source)]
  | .parsed source name line parameters =>
    [("source", .quoted source), ("line", .number line), ("name", .plain name),
      ("arguments", .number parameters)]
  | .overwritten what =>
    [("name", .plain what.name), ("replaced", .plain what.earlier),
      ("by", .plain what.later)]
  | _ => []

end Event

/-- What is known of an event whatever it says. -/
structure Metadata where
  level : Level
  /-- The module that reports the event. -/
  target : String
  /-- The names of the fields beside the message. -/
  fieldNames : List String
  deriving DecidableEq, Repr

/-- What is known of an event before it is written. -/
def Event.metadata (event : Event) : Metadata :=
  ⟨event.level, event.target, event.fields.map Prod.fst⟩

/-- What scanning a source reports: that it starts, and every declaration read, also if a later one
cannot be read. -/
def ofFindings (found : Source.Findings) : List Event :=
  .scanning found.source :: found.declarations.map fun declaration =>
    .parsed found.source declaration.name declaration.line declaration.parameters.length

end Log
end ExportIndex
