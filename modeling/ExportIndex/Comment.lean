import ExportIndex.Fault

/-!
# Comments

A comment is read from just behind its first slash.

* `//` runs through the next line feed, `/*` through the next `*/`.
* `/**` outside all brackets opens a tag block: its words are tags, and words made of stars alone
  are the gutter of a block drawn over several lines.
* `/**/` is an empty block, not the start of a tag block.

A turn of a loop reads at least one character more than it takes back, so what is left to be read
shrinks with every turn.
-/

namespace ExportIndex
namespace Comment

open Text (isBlank)

/-- What reading a comment leaves behind; the tags and the reader are those of the moment it
stopped, whether the comment was complete or not. -/
structure Reading where
  /-- Why the comment is incomplete; `none` if it is complete. -/
  halt : Option Halt
  /-- All tags so far, in the order they were met. -/
  tags : List String
  reader : Reader
  deriving DecidableEq, Repr

/-- The tags with a word added, unless the word is empty or made of stars alone. -/
def addTag (tags : List String) (word : String) : List String :=
  if word.toList.all (· == '*') then tags else tags ++ [word]

/-- One turn of a loop: reading stops, or it goes on from a later state. -/
inductive Turn (σ : Type) where
  | done (reading : Reading)
  | again (state : σ)

/-- Reads one character of a line comment. -/
def lineTurn (tags : List String) (r : Reader) : Turn Reader :=
  match r.next? with
  | none => .done ⟨some .unterminated, tags, r⟩
  | some (c, r₁) => if c = '\n' then .done ⟨none, tags, r₁⟩ else .again r₁

/-- Reads one character of a block and looks behind a star for the slash that ends the block. -/
def blockTurn (tags : List String) (r : Reader) : Turn Reader :=
  match r.next? with
  | none => .done ⟨some .unterminated, tags, r⟩
  | some (c, r₁) =>
    if c = '*' then
      match r₁.next? with
      | none => .done ⟨some .unterminated, tags, r₁⟩
      | some (d, r₂) =>
        if d = '/' then .done ⟨none, tags, r₂⟩
        else
          match r₂.undo? with
          | none => .done ⟨some .undoRefused, tags, r₂⟩
          | some r₃ => .again r₃
    else .again r₁

/-- The state of a loop over a tag block. -/
structure TagState where
  /-- The characters of the word being read. -/
  word : String
  tags : List String
  reader : Reader
  deriving DecidableEq, Repr

/-- Reads one character of a tag block: a blank ends a word, a star with a slash ends the block, and
every other character belongs to the word. -/
def tagTurn (s : TagState) : Turn TagState :=
  match s.reader.next? with
  | none => .done ⟨some .unterminated, s.tags, s.reader⟩
  | some (c, r₁) =>
    if isBlank c then .again ⟨"", addTag s.tags s.word, r₁⟩
    else if c = '*' then
      match r₁.next? with
      | none => .done ⟨some .unterminated, s.tags, r₁⟩
      | some (d, r₂) =>
        if d = '/' then .done ⟨none, addTag s.tags s.word, r₂⟩
        else
          match r₂.undo? with
          | none => .done ⟨some .undoRefused, s.tags, r₂⟩
          | some r₃ => .again ⟨s.word.push c, s.tags, r₃⟩
    else .again ⟨s.word.push c, s.tags, r₁⟩

theorem length_rest_lineTurn {tags : List String} {r r' : Reader}
    (h : lineTurn tags r = .again r') : r'.rest.length < r.rest.length := by
  unfold lineTurn at h
  grind [Reader.length_rest_next?]

theorem length_rest_blockTurn {tags : List String} {r r' : Reader}
    (h : blockTurn tags r = .again r') : r'.rest.length < r.rest.length := by
  unfold blockTurn at h
  grind [Reader.length_rest_next?, Reader.length_rest_undo?]

theorem length_rest_tagTurn {s s' : TagState} (h : tagTurn s = .again s') :
    s'.reader.rest.length < s.reader.rest.length := by
  unfold tagTurn at h
  grind [Reader.length_rest_next?, Reader.length_rest_undo?]

/-- Reads through the next line feed. -/
def readLine (tags : List String) (r : Reader) : Reading :=
  match _h : lineTurn tags r with
  | .done reading => reading
  | .again r₁ => readLine tags r₁
termination_by r.rest.length
decreasing_by exact length_rest_lineTurn _h

/-- Reads through the next star that a slash follows. -/
def readBlock (tags : List String) (r : Reader) : Reading :=
  match _h : blockTurn tags r with
  | .done reading => reading
  | .again r₁ => readBlock tags r₁
termination_by r.rest.length
decreasing_by exact length_rest_blockTurn _h

/-- Reads through the next star that a slash follows, and adds the words on the way to the tags. -/
def readTags (s : TagState) : Reading :=
  match _h : tagTurn s with
  | .done reading => reading
  | .again s₁ => readTags s₁
termination_by s.reader.rest.length
decreasing_by exact length_rest_tagTurn _h

/-- Reads a tag block from behind its two stars; a slash there makes it an empty block. -/
def readTagBlock (tags : List String) (r : Reader) : Reading :=
  match r.next? with
  | none => ⟨some .unterminated, tags, r⟩
  | some (c, r₁) =>
    if c = '/' then ⟨none, tags, r₁⟩
    else
      match r₁.undo? with
      | none => ⟨some .undoRefused, tags, r₁⟩
      | some r₂ => readTags ⟨"", tags, r₂⟩

/-- Reads the comment that opens with the slash just read.  `nesting` is the number of brackets open
around it: only a block outside all of them holds tags. -/
def read (nesting : Nat) (tags : List String) (r : Reader) : Reading :=
  match r.next? with
  | none => ⟨some .unterminated, tags, r⟩
  | some (c, r₁) =>
    if c = '/' then readLine tags r₁
    else if c = '*' then
      match r₁.next? with
      | none => ⟨some .unterminated, tags, r₁⟩
      | some (d, r₂) =>
        if d = '*' ∧ nesting = 0 then readTagBlock tags r₂
        else
          match r₂.undo? with
          | none => ⟨some .undoRefused, tags, r₂⟩
          | some r₃ => readBlock tags r₃
    else ⟨some (.flawed .malformedComment), tags, r₁⟩

theorem length_rest_readLine (tags : List String) (r : Reader) :
    (readLine tags r).reader.rest.length ≤ r.rest.length := by
  fun_induction readLine tags r with
  | case1 r reading h =>
    unfold lineTurn at h
    grind [Reader.length_rest_next?]
  | case2 r r₁ h ih => exact Nat.le_trans ih (Nat.le_of_lt (length_rest_lineTurn h))

theorem length_rest_readBlock (tags : List String) (r : Reader) :
    (readBlock tags r).reader.rest.length ≤ r.rest.length := by
  fun_induction readBlock tags r with
  | case1 r reading h =>
    unfold blockTurn at h
    grind [Reader.length_rest_next?]
  | case2 r r₁ h ih => exact Nat.le_trans ih (Nat.le_of_lt (length_rest_blockTurn h))

theorem length_rest_readTags (s : TagState) :
    (readTags s).reader.rest.length ≤ s.reader.rest.length := by
  fun_induction readTags s with
  | case1 s reading h =>
    unfold tagTurn at h
    grind [Reader.length_rest_next?]
  | case2 s s₁ h ih => exact Nat.le_trans ih (Nat.le_of_lt (length_rest_tagTurn h))

theorem length_rest_readTagBlock (tags : List String) (r : Reader) :
    (readTagBlock tags r).reader.rest.length ≤ r.rest.length := by
  fun_cases readTagBlock tags r <;>
    grind [Reader.length_rest_next?, Reader.length_rest_undo?, length_rest_readTags]

/-- Reading a comment never goes back behind where it began. -/
theorem length_rest_read (nesting : Nat) (tags : List String) (r : Reader) :
    (read nesting tags r).reader.rest.length ≤ r.rest.length := by
  fun_cases read nesting tags r <;>
    grind [Reader.length_rest_next?, Reader.length_rest_undo?, length_rest_readLine,
      length_rest_readBlock, length_rest_readTagBlock]

end Comment
end ExportIndex
