import ExportIndex.Reader

/-!
# What can be wrong with a declaration

* `Flaw` is a fault of the text itself, independent of where it stands.
* `Halt` is why a scan stopped: the text ended, a flaw was met, or a step back was refused.
* `ScanError` is a halt with the place it happened at, and has the one wording of each.
-/

namespace ExportIndex

open Text (Location)

/-- A fault in the text of a declaration. -/
inductive Flaw where
  /-- A slash that opens neither a line comment nor a block comment. -/
  | malformedComment
  /-- A closing angle bracket without its opening one, or an opening one that stays open. -/
  | unbalancedAngles
  /-- A closing parenthesis before the parameter list. -/
  | unbalancedParens
  /-- A type whose stars cannot be attributed to a single base type. -/
  | ambiguousPointer (type : String)
  /-- A parameter without a name. -/
  | unnamedParameter
  /-- A function without a name. -/
  | unnamedFunction
  deriving DecidableEq, Repr

/-- Why a scan stopped before it was done. -/
inductive Halt where
  /-- The text ended first. -/
  | unterminated
  | flawed (flaw : Flaw)
  /-- A character was to be taken back that was not the last one read. -/
  | undoRefused
  deriving DecidableEq, Repr

/-- A halt, with the line a flaw was noticed on. -/
inductive ScanError where
  | unterminated
  | flawed (flaw : Flaw) (location : Location)
  | undoRefused
  deriving DecidableEq, Repr

/-- The wording of a flaw that was noticed at the given place. -/
def Flaw.message (flaw : Flaw) (place : String) : String :=
  match flaw with
  | .malformedComment => "malformed comment at " ++ place
  | .unbalancedAngles => "imbalanced angle brackets at " ++ place
  | .unbalancedParens => "imbalanced parentheses at " ++ place
  | .ambiguousPointer type => "pointer parsing failure for type '" ++ type ++ "' at " ++ place
  | .unnamedParameter => "argument without a name at " ++ place
  | .unnamedFunction => "export without a function name at " ++ place

/-- The wording of a scan error. -/
def ScanError.message : ScanError → String
  | .unterminated => "reached end of input with an unterminated export"
  | .flawed flaw location => flaw.message location.describe
  | .undoRefused => "push_back() is only valid once, immediately after next()"

/-- A halt placed on the line of the last character read. -/
def Halt.placed (halt : Halt) (r : Reader) : ScanError :=
  match halt with
  | .unterminated => .unterminated
  | .flawed flaw => .flawed flaw r.location
  | .undoRefused => .undoRefused

end ExportIndex
