import ExportIndex.Report.Document
import ExportIndex.Report.Summary

/-!
# Report formats

The formats an index can be written in, and their names.
-/

namespace ExportIndex

/-- A form of an index. -/
inductive Format where
  | json
  | summary
  deriving DecidableEq, Repr

namespace Format

/-- The format of a name; the summary has two names. -/
def ofName? (name : String) : Option Format :=
  if name = "json" then some .json
  else if name = "summary" ∨ name = "text" then some .summary
  else none

/-- The wording for a name that is not a format. -/
def unknownMessage (name : String) : String :=
  "unknown format: " ++ name ++ ". Use json or summary"

end Format

/-- An index in the given form. -/
def Index.render (index : Index) : Format → String
  | .json => index.renderJson
  | .summary => index.renderSummary

end ExportIndex
