import ExportIndex.Index.Basic

/-!
# The index as a summary

The summary has one block for each entry: a header with the name and the place of the declaration, a
row for the return type and one row for each parameter.  In a block all descriptions start in the same
column, which leaves room for the longest name as measured in bytes of UTF-8.
-/

namespace ExportIndex
namespace Summary

/-- The name of the row of the return type. -/
def returns : String :=
  "returns"

/-- A text with spaces behind it up to the given number of characters. -/
def pad (width : Nat) (text : String) : String :=
  text ++ String.ofList (List.replicate (width - text.length) ' ')

/-- What a row says of a reference. -/
def describeReference : Reference → String
  | .none => ""
  | .lvalue => " ref=&"
  | .rvalue => " ref=&&"

/-- What a row says of the tags of a type. -/
def describeTags (tags : TagSet) : String :=
  if tags.words.isEmpty then "" else " tags=" ++ ",".intercalate tags.words

/-- A type in one line: as written, then taken apart.  A type without any text is a question mark. -/
def describe (type : CType) : String :=
  (if type.full.isEmpty then "?" else type.full) ++ "  [base=" ++ type.base ++
    " ptr=" ++ toString type.pointerDepth ++ describeReference type.reference ++
    describeTags type.tags ++ "]"

/-- The width of the names of a block. -/
def nameWidth (declaration : Declaration) : Nat :=
  (declaration.parameters.map (·.name.utf8ByteSize)).foldl max returns.utf8ByteSize

/-- A row of a block. -/
def row (width : Nat) (name : String) (type : CType) : String :=
  "  " ++ pad width name ++ "  " ++ describe type ++ "\n"

/-- The first line of a block. -/
def header (entry : Entry) : String :=
  entry.name ++ "  (" ++ entry.source ++ ":" ++ toString entry.declaration.line ++ ")\n"

/-- The block of an entry. -/
def block (entry : Entry) : String :=
  let declaration := entry.declaration
  let width := nameWidth declaration
  header entry ++ row width returns declaration.returnType ++
    String.join (declaration.parameters.map fun parameter =>
      row width parameter.name parameter.type)

end Summary

/-- The summary of an index: the blocks of its entries. -/
def Index.renderSummary (index : Index) : String :=
  String.join (index.entries.map Summary.block)

end ExportIndex
