import ExportIndex.Index.Basic
import ExportIndex.Json

/-!
# The index as a JSON document

The document is one object keyed by name, in the order of the index; it is the form in which other
programs read an index.  The written document ends with one line feed.
-/

namespace ExportIndex

/-- The word for a reference marker. -/
def Reference.word : Reference → String
  | .none => "none"
  | .lvalue => "lvalue"
  | .rvalue => "rvalue"

/-- A type as a document. -/
def CType.toJson (type : CType) : Json :=
  .object [
    ("full", .text type.full),
    ("base", .text type.base),
    ("pointer_depth", .number type.pointerDepth),
    ("reference", .text type.reference.word),
    ("tags", .list (type.tags.words.map .text))]

/-- A parameter as a document. -/
def Parameter.toJson (parameter : Parameter) : Json :=
  .object [("name", .text parameter.name), ("type", parameter.type.toJson)]

/-- The members of the document of a declaration. -/
def Declaration.members (declaration : Declaration) : List (String × Json) :=
  [("name", .text declaration.name),
    ("line", .number declaration.line),
    ("return_type", declaration.returnType.toJson),
    ("arguments", .list (declaration.parameters.map Parameter.toJson))]

/-- A declaration as a document. -/
def Declaration.toJson (declaration : Declaration) : Json :=
  .object declaration.members

/-- An entry as a document: its source, then its declaration. -/
def Entry.toJson (entry : Entry) : Json :=
  .object (("source", .text entry.source) :: entry.declaration.members)

namespace Index

/-- An index as a document. -/
def toJson (index : Index) : Json :=
  .object (index.entries.map fun entry => (entry.name, entry.toJson))

/-- The written document of an index. -/
def renderJson (index : Index) : String :=
  index.toJson.pretty ++ "\n"

end Index
end ExportIndex
