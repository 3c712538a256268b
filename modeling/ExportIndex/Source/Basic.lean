import ExportIndex.Declaration.Scan

/-!
# Sources and what they export

A source marks a function for export by a line comment `// [[export]]`; the declaration starts on the
line after the marker.

* Lines are taken in order.  A marker line inside a declaration that was just read, that is one that
  starts before its end, is skipped.
* Scanning stops at the first declaration that cannot be read.
-/

namespace ExportIndex

open Text (Line lines trimStart)

/-- A text to be scanned. -/
structure Source where
  /-- What messages call the source, usually its path. -/
  id : String
  text : String
  deriving DecidableEq, Repr

/-- The declarations that one source exports, in the order of the text. -/
structure SourceExports where
  source : String
  declarations : List Declaration
  deriving DecidableEq

/-- Why a source cannot be read. -/
structure SourceFailure where
  source : String
  /-- The number of the line the unreadable declaration starts on. -/
  line : Nat
  cause : ScanError
  deriving DecidableEq, Repr

/-- The wording of a failure, without its cause. -/
def SourceFailure.message (failure : SourceFailure) : String :=
  "failed to parse export in " ++ failure.source ++ " (declaration starting at line " ++
    toString failure.line ++ ")"

namespace Source

/-- The word that marks a declaration for export. -/
def markerWord : List Char :=
  "[[export]]".toList

/-- Whether a line is a line comment that begins with the marker word; blanks may stand before the
slashes and before the word. -/
def isMarkerLine (line : List Char) : Bool :=
  match trimStart line with
  | '/' :: '/' :: comment => markerWord.isPrefixOf (trimStart comment)
  | _ => false

/-- What is found in a source up to the first declaration that cannot be read. -/
structure Findings where
  source : String
  declarations : List Declaration
  /-- The line of the unreadable declaration and what is wrong with it. -/
  failure : Option (Nat × ScanError)
  deriving DecidableEq

namespace Findings

/-- The findings with a declaration before them. -/
def cons (declaration : Declaration) (later : Findings) : Findings :=
  { later with declarations := declaration :: later.declarations }

/-- The failure of the source, if it has an unreadable declaration. -/
def failure? (found : Findings) : Option SourceFailure :=
  found.failure.map fun (line, cause) => ⟨found.source, line, cause⟩

/-- The exports of the source, if all its declarations are readable. -/
def exports? (found : Findings) : Option SourceExports :=
  if found.failure.isNone then some ⟨found.source, found.declarations⟩ else none

/-- The exports of the source, or why it cannot be read. -/
def result (found : Findings) : Except SourceFailure SourceExports :=
  match found.failure? with
  | none => .ok ⟨found.source, found.declarations⟩
  | some failure => .error failure

end Findings

/-- Searches the given lines of the text of a source; those that start before `resume` belong to a
declaration already read. -/
def search (id : String) (text : List Char) (resume : Nat) : List Line → Findings
  | [] => ⟨id, [], none⟩
  | line :: later =>
    if line.start < resume || !isMarkerLine line.text then search id text resume later
    else
      match later with
      | [] => ⟨id, [], some (line.number + 1, .unterminated)⟩
      | first :: _ =>
        match Declaration.scan text first.start first.number with
        | .error error => ⟨id, [], some (first.number, error)⟩
        | .ok (declaration, finish) => (search id text finish later).cons declaration

/-- What is found in a source. -/
def findings (source : Source) : Findings :=
  let text := source.text.toList
  search source.id text 0 (lines text)

/-- The exports of a source, or why it cannot be read. -/
def scan (source : Source) : Except SourceFailure SourceExports :=
  source.findings.result

end Source
end ExportIndex
