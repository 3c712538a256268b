import ExportIndex.TagSet

/-!
# Types as they are listed

A type is kept both as it was written, fragment by fragment, and taken apart: the base type, the
number of its pointer stars, its reference marker and the tags that stood beside it.
-/

namespace ExportIndex

/-- The reference marker of a type. -/
inductive Reference where
  | none
  /-- A type that ends in `&`. -/
  | lvalue
  /-- A type that ends in `&&`. -/
  | rvalue
  deriving DecidableEq, Repr

/-- A type, as written and taken apart. -/
structure CType where
  /-- The fragments as written, joined by single spaces. -/
  full : String
  /-- The fragments without `const`, pointer stars and reference markers. -/
  base : String
  /-- The number of pointer stars. -/
  pointerDepth : Nat
  reference : Reference
  tags : TagSet
  deriving DecidableEq

/-- Whether the type stands beside a tag. -/
def CType.hasTag (type : CType) (tag : String) : Bool :=
  type.tags.contains tag

end ExportIndex
