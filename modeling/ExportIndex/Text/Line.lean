import ExportIndex.Text.Blank

/-!
# Lines of a text

A line ends with the first line feed it meets, or with the text.  No other character ends a line.

* `Line` is a line with its place: the index of its first character and its number, counted from 1.
* `lines` cuts a text into its lines; joined again they are the text.
* `Location` is what a message shows of a line: its number and its characters without the line feed.
-/

namespace ExportIndex
namespace Text

/-- A line of a text, with its line feed if it has one. -/
structure Line where
  /-- The index of the first character in the text. -/
  start : Nat
  /-- The number of the line, counted from 1. -/
  number : Nat
  text : List Char
  deriving DecidableEq, Repr

/-- The lines of a text that follows `start` characters and begins with line `number`. -/
def linesFrom (start number : Nat) (text : List Char) : List Line :=
  match text with
  | [] => []
  | c :: rest =>
    match h : (c :: rest).dropWhile (· != '\n') with
    | [] => [⟨start, number, c :: rest⟩]
    | feed :: later =>
      let body := (c :: rest).takeWhile (· != '\n')
      ⟨start, number, body ++ [feed]⟩ ::
        linesFrom (start + body.length + 1) (number + 1) later
termination_by text.length
decreasing_by
  have := (List.dropWhile_suffix (l := c :: rest) (· != '\n')).length_le
  rw [h] at this
  simp only [List.length_cons] at this ⊢
  omega

/-- The lines of a text, in order. -/
def lines (text : List Char) : List Line :=
  linesFrom 0 1 text

/-- A line as a message shows it. -/
structure Location where
  /-- The number of the line, counted from 1. -/
  line : Nat
  /-- The line without its line feed. -/
  text : String
  deriving DecidableEq, Repr

/-- A location in words; the blanks that end the line are left out. -/
def Location.describe (location : Location) : String :=
  "line " ++ toString location.line ++ ": '" ++
    String.ofList (trimEnd location.text.toList) ++ "'"

end Text
end ExportIndex
