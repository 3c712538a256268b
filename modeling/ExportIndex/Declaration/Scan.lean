import ExportIndex.CType.Fragment
import ExportIndex.Declaration.Basic
import ExportIndex.Declaration.Segment

/-!
# Reading a declaration

A declaration is its head, the segments of its parameter list, and nothing behind the closing
parenthesis.

* `namedType` turns a complete segment into a name and a type.
* `readParameters` reads one slot after the other; only the first may be blank, and then it has to be
  the whole list.
* `Declaration.scan` starts at a given character and answers with the index just behind the closing
  parenthesis.
-/

namespace ExportIndex
namespace Declaration

/-- The name and the type that a complete segment holds. -/
def namedType (unnamed : Flaw) (s : Segment) : Except Flaw (String × CType) :=
  match s.split? with
  | none => .error unnamed
  | some (name, fragments) =>
    match CType.classify? fragments s.tags with
    | none => .error (.ambiguousPointer (CType.join fragments))
    | some type => .ok (name, type)

/-- Reads the slots of a parameter list through its closing parenthesis; `first` tells whether none
has been read yet. -/
def readParameters (first : Bool) (r : Reader) : Except Halt (List Parameter) × Reader :=
  let slot := Segment.read .parameters .empty r
  match _h : slot.result with
  | .error halt => (.error halt, slot.reader)
  | .ok delimiter =>
    if first && delimiter == .closing && slot.segment.isEmpty then (.ok [], slot.reader)
    else
      match namedType .unnamedParameter slot.segment with
      | .error flaw => (.error (.flawed flaw), slot.reader)
      | .ok (name, type) =>
        if delimiter = .closing then (.ok [⟨name, type⟩], slot.reader)
        else
          let later := readParameters false slot.reader
          (later.1.map (⟨name, type⟩ :: ·), later.2)
termination_by r.rest.length
decreasing_by exact Segment.length_rest_read _h

/-- Reads a declaration, which is said to start on the given line. -/
def read (line : Nat) (r : Reader) : Except Halt Declaration × Reader :=
  let head := Segment.read .head .empty r
  match head.result with
  | .error halt => (.error halt, head.reader)
  | .ok _ =>
    match namedType .unnamedFunction head.segment with
    | .error flaw => (.error (.flawed flaw), head.reader)
    | .ok (name, returnType) =>
      let list := readParameters true head.reader
      (list.1.map fun parameters =>
        ⟨name, line, returnType, if Parameter.isVoidList parameters then [] else parameters⟩, list.2)

/-- Scans the declaration that starts at the character with index `start`; answers with the index
just behind it. -/
def scan (text : List Char) (start line : Nat) : Except ScanError (Declaration × Nat) :=
  match read line (.startAt text start) with
  | (.ok declaration, r) => .ok (declaration, r.position)
  | (.error halt, r) => .error (halt.placed r)

end Declaration
end ExportIndex
