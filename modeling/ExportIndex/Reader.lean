import ExportIndex.Text.Line

/-!
# A reader with one step back

A reader stands between two characters of a text.  It reads one character at a time, across line
ends, and can take back the last character it read, once.

* `past` holds the characters before the reader, nearest first; `rest` those after it.
* `undoable` tells whether the last step was a `next?` that has not been taken back.
* Neither step changes the text: `Reader.text` is an invariant of both.
-/

namespace ExportIndex

open Text (Location)

/-- A place between two characters of a text. -/
structure Reader where
  /-- The characters already read, the last one first. -/
  past : List Char
  /-- The characters still to be read. -/
  rest : List Char
  /-- Whether the last character read may be taken back. -/
  undoable : Bool
  deriving DecidableEq, Repr

namespace Reader

/-- A reader that has `start` characters of the text before it, or all of a shorter text. -/
def startAt (text : List Char) (start : Nat) : Reader :=
  ⟨(text.take start).reverse, text.drop start, false⟩

/-- The text a reader stands in. -/
def text (r : Reader) : List Char :=
  r.past.reverse ++ r.rest

/-- The index of the next character to be read. -/
def position (r : Reader) : Nat :=
  r.past.length

/-- The next character and the reader behind it; `none` at the end of the text. -/
def next? (r : Reader) : Option (Char × Reader) :=
  match r.rest with
  | [] => none
  | c :: rest => some (c, ⟨c :: r.past, rest, true⟩)

/-- The character just before the reader. -/
def current? (r : Reader) : Option Char :=
  r.past.head?

/-- The reader before its last step; `none` unless that step read a character. -/
def undo? (r : Reader) : Option Reader :=
  match r.past with
  | [] => none
  | c :: past => if r.undoable then some ⟨past, c :: r.rest, false⟩ else none

/-- The line that holds the character just before the reader, or the first line at the start. -/
def location (r : Reader) : Location :=
  let before := r.past.tail
  let after := r.past.head?.toList ++ r.rest
  let inLine := fun c : Char => c != '\n'
  ⟨1 + before.count '\n',
    String.ofList ((before.takeWhile inLine).reverse ++ after.takeWhile inLine)⟩

@[simp] theorem text_startAt (text : List Char) (start : Nat) : (startAt text start).text = text := by
  simp [startAt, Reader.text]

theorem position_add_length_rest (r : Reader) : r.position + r.rest.length = r.text.length := by
  simp [position, text]

theorem next?_eq_some_iff {r r' : Reader} {c : Char} :
    r.next? = some (c, r') ↔ r.rest = c :: r'.rest ∧ r' = ⟨c :: r.past, r'.rest, true⟩ := by
  obtain ⟨past, rest, undoable⟩ := r
  cases rest with
  | nil => simp [next?]
  | cons d rest =>
      simp only [next?, Option.some.injEq, Prod.mk.injEq, List.cons.injEq]
      constructor
      · rintro ⟨rfl, rfl⟩
        exact ⟨⟨rfl, rfl⟩, rfl⟩
      · rintro ⟨⟨rfl, hrest⟩, hr⟩
        exact ⟨rfl, by rw [hr, ← hrest]⟩

theorem undo?_eq_some_iff {r r' : Reader} :
    r.undo? = some r' ↔
      r.undoable = true ∧ ∃ c, r.past = c :: r'.past ∧ r'.rest = c :: r.rest ∧
        r'.undoable = false := by
  obtain ⟨past, rest, undoable⟩ := r
  obtain ⟨past', rest', undoable'⟩ := r'
  cases past with
  | nil => simp [undo?]
  | cons d past =>
      cases undoable with
      | false => simp [undo?]
      | true =>
          simp only [undo?, if_true, Option.some.injEq, mk.injEq, List.cons.injEq, true_and]
          constructor
          · rintro ⟨rfl, rfl, rfl⟩
            exact ⟨d, ⟨rfl, rfl⟩, rfl, rfl⟩
          · rintro ⟨c, ⟨rfl, rfl⟩, rfl, rfl⟩
            exact ⟨rfl, rfl, rfl⟩

/-- Reading a character shortens what is left by one. -/
theorem length_rest_next? {r r' : Reader} {c : Char} (h : r.next? = some (c, r')) :
    r'.rest.length + 1 = r.rest.length := by
  rw [(next?_eq_some_iff.1 h).1]
  rfl

/-- Taking a character back lengthens what is left by one. -/
theorem length_rest_undo? {r r' : Reader} (h : r.undo? = some r') :
    r'.rest.length = r.rest.length + 1 := by
  obtain ⟨-, c, -, hrest, -⟩ := undo?_eq_some_iff.1 h
  rw [hrest]
  rfl

theorem text_next? {r r' : Reader} {c : Char} (h : r.next? = some (c, r')) : r'.text = r.text := by
  obtain ⟨hrest, hr⟩ := next?_eq_some_iff.1 h
  rw [hr]
  simp [text, hrest]

theorem text_undo? {r r' : Reader} (h : r.undo? = some r') : r'.text = r.text := by
  obtain ⟨-, c, hpast, hrest, -⟩ := undo?_eq_some_iff.1 h
  simp [text, hpast, hrest]

/-- Right after a character was read it can be taken back, and the reader is where it was. -/
theorem undo?_of_next? {r r' : Reader} {c : Char} (h : r.next? = some (c, r')) :
    r'.undo? = some ⟨r.past, r.rest, false⟩ := by
  obtain ⟨hrest, hr⟩ := next?_eq_some_iff.1 h
  rw [hr]
  simp [undo?, hrest]

end Reader
end ExportIndex
