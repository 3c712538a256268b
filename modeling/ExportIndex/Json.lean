/-!
# JSON documents

`Json` is a JSON document without fractions: a text, a natural number, a list or an object whose keys
are listed in order.

* `quote` writes a text: the quote, the backslash and the characters below U+0020 are escaped, all
  others stand for themselves.
* `pretty` writes a document over several lines, each level two spaces further in; an empty list or
  object stays on its line.
-/

namespace ExportIndex

/-- A JSON document. -/
inductive Json where
  | text (value : String)
  | number (value : Nat)
  | list (items : List Json)
  | object (members : List (String × Json))
  deriving Repr

namespace Json

/-- A digit to the base sixteen, in lower case. -/
def hexDigit (n : Nat) : Char :=
  if n < 10 then Char.ofNat (0x30 + n) else Char.ofNat (0x57 + n)

/-- How a character is written between quotes. -/
def escapeChar (c : Char) : List Char :=
  if c = '"' then ['\\', '"']
  else if c = '\\' then ['\\', '\\']
  else if c = '\x08' then ['\\', 'b']
  else if c = '\x0c' then ['\\', 'f']
  else if c = '\n' then ['\\', 'n']
  else if c = '\r' then ['\\', 'r']
  else if c = '\t' then ['\\', 't']
  else if c.toNat < 0x20 then
    ['\\', 'u', '0', '0', hexDigit (c.toNat / 16), hexDigit (c.toNat % 16)]
  else [c]

/-- How a text is written. -/
def quote (value : String) : String :=
  "\"" ++ String.ofList (value.toList.flatMap escapeChar) ++ "\""

/-- A line feed and the spaces of the given depth. -/
def newline (depth : Nat) : String :=
  "\n" ++ String.ofList (List.replicate (2 * depth) ' ')

mutual

/-- A document that stands at the given depth, written over several lines. -/
def prettyAt (depth : Nat) : Json → String
  | .text value => quote value
  | .number value => toString value
  | .list [] => "[]"
  | .list (first :: rest) =>
    "[" ++ newline (depth + 1) ++ prettyAt (depth + 1) first ++ prettyItems (depth + 1) rest ++
      newline depth ++ "]"
  | .object [] => "\x7b\x7d"
  | .object ((key, value) :: rest) =>
    "\x7b" ++ newline (depth + 1) ++ quote key ++ ": " ++ prettyAt (depth + 1) value ++
      prettyMembers (depth + 1) rest ++ newline depth ++ "\x7d"

/-- The items of a list behind its first. -/
def prettyItems (depth : Nat) : List Json → String
  | [] => ""
  | item :: rest => "," ++ newline depth ++ prettyAt depth item ++ prettyItems depth rest

/-- The members of an object behind its first. -/
def prettyMembers (depth : Nat) : List (String × Json) → String
  | [] => ""
  | (key, value) :: rest =>
    "," ++ newline depth ++ quote key ++ ": " ++ prettyAt depth value ++ prettyMembers depth rest

end

/-- A document written over several lines. -/
def pretty (document : Json) : String :=
  prettyAt 0 document

end Json
end ExportIndex
