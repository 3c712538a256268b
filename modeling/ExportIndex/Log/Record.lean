import ExportIndex.Log.Filter
import ExportIndex.Text.Quoted

/-!
# Records of the log

An event that is shown is written as a record.  Whatever else a record has, such as the time, colours
or fields, it has the word for the level and the message in it.

* `Layout` is a way to write records, with what all of them have.  `Layout.stamped` writes them without
  colours, `Layout.plain` without time and colours.
* `Setup` is how the log is set up for a run, and `shown` what it shows of the events of the run.

A message may itself hold line feeds; then a record covers several lines.
-/

namespace ExportIndex
namespace Log

/-- A way to write events as records. -/
structure Layout where
  /-- How a character of a message is shown. -/
  spell : Char → List Char
  /-- The record of an event; `moment` counts the records before it. -/
  record (moment : Nat) (event : Event) : String
  /-- Only controls are not shown as they are. -/
  spell_of_not_control : ∀ c, Text.isControl c = false → spell c = [c]
  /-- A record names the level. -/
  level_infix : ∀ moment event, event.level.word.toList <:+: (record moment event).toList
  /-- A record holds the message. -/
  message_infix : ∀ moment event,
    event.message.toList.flatMap spell <:+: (record moment event).toList

/-- The value of a field, as written. -/
def Field.written : Field → String
  | .plain value => value
  | .quoted value => Text.quoted value
  | .number value => toString value

/-- The fields of an event, as written behind the message. -/
def Event.writtenFields (event : Event) : String :=
  String.join (event.fields.map fun field => " " ++ field.1 ++ "=" ++ field.2.written)

namespace Layout

/-- Level, message and fields, with blanks between them, behind a stamp that may tell the time. -/
def stamped (stamp : Nat → String) : Layout where
  spell := Text.disarmedChar
  record moment event :=
    stamp moment ++ event.level.word ++ " " ++ Text.disarmed event.message ++ event.writtenFields
  spell_of_not_control := Text.disarmedChar_of_not_control
  level_infix moment event := by
    rw [String.append_assoc, String.append_assoc, String.toList_append, String.toList_append]
    exact List.infix_append _ _ _
  message_infix moment event := by
    rw [String.toList_append, String.toList_append, Text.disarmed, String.toList_ofList]
    exact List.infix_append _ _ _

/-- Records without stamps. -/
def plain : Layout :=
  stamped fun _ => ""

/-- The records of some events; `moment` counts the records before them. -/
def recordsFrom (layout : Layout) (moment : Nat) : List Event → List String
  | [] => []
  | event :: later => layout.record moment event :: layout.recordsFrom (moment + 1) later

end Layout

/-- How the log is set up for a run. -/
structure Setup where
  /-- The filter that is asked for from outside; `none` if none is, or none that can be understood. -/
  asked : Option Filter
  layout : Layout

/-- The setup that nothing is asked of, with plain records. -/
def Setup.plain : Setup :=
  ⟨none, .plain⟩

/-- The records of the events that are shown. -/
def shown (setup : Setup) (verbosity : Nat) (events : List Event) : List String :=
  setup.layout.recordsFrom 0
    (events.filter fun event => Filter.chosen setup.asked verbosity event.metadata)

end Log
end ExportIndex
