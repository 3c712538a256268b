import ExportIndex.CType.Basic

/-!
# Declarations of functions

A declaration is the signature of one function, with the line it starts on.
-/

namespace ExportIndex

/-- A parameter of a function. -/
structure Parameter where
  name : String
  type : CType
  deriving DecidableEq

/-- The signature of a function. -/
structure Declaration where
  name : String
  /-- The number of the line the declaration starts on. -/
  line : Nat
  returnType : CType
  /-- The parameters, in the order of the call. -/
  parameters : List Parameter
  deriving DecidableEq

/-- Whether a parameter list is the lone word `void`, which stands for no parameters. -/
def Parameter.isVoidList : List Parameter → Bool
  | [only] => only.name == "void" && only.type.full == ""
  | _ => false

end ExportIndex
