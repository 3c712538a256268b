import ExportIndex.Comment
import ExportIndex.Text.Word

/-!
# Segments of a declaration

A segment is a stretch of a declaration that holds one type and one name: the head, up to the opening
parenthesis, or one slot of the parameter list, up to its comma or to the closing parenthesis.

A `Segment` is what has been read of one.  Its characters are cut into tokens as they come:

* blanks and comments outside all brackets end a token; inside brackets blanks belong to it;
* a `*` or `&` outside all brackets goes to the token before it, across blanks;
* a word character right behind such a mark, or behind a bracket that closed the last open one,
  starts a token of its own.

`step` says what one character does, `turn` reads one character or comment, and `read` takes turns up
to the delimiter.
-/

namespace ExportIndex

open Text (isBlank isWordChar)

/-- Which part of a declaration a segment belongs to. -/
inductive Part where
  /-- The return type and the name of the function. -/
  | head
  /-- The parenthesized list of parameters. -/
  | parameters
  deriving DecidableEq, Repr

/-- What ends a segment. -/
inductive Delimiter where
  | opening
  | comma
  | closing
  deriving DecidableEq, Repr

/-- What has been read of a segment. -/
structure Segment where
  /-- The token being read. -/
  buffer : String
  /-- The tokens before it, the last one first. -/
  tokens : List String
  tags : List String
  /-- The number of open angle brackets. -/
  angle : Nat
  /-- The number of open parentheses. -/
  paren : Nat
  /-- Whether a word character, if it comes next, starts a new token. -/
  splitPending : Bool
  deriving DecidableEq, Repr

namespace Segment

/-- A segment of which nothing has been read. -/
def empty : Segment :=
  ⟨"", [], [], 0, 0, false⟩

/-- The number of open brackets of both kinds. -/
def nesting (s : Segment) : Nat :=
  s.angle + s.paren

/-- Whether there is no token yet, not even a begun one. -/
def isEmpty (s : Segment) : Bool :=
  s.buffer.isEmpty && s.tokens.isEmpty

/-- Adds a character to the token being read. -/
def push (s : Segment) (c : Char) : Segment :=
  { s with buffer := s.buffer.push c, splitPending := false }

/-- Ends the token being read, if there is one. -/
def flush (s : Segment) : Segment :=
  if s.buffer.isEmpty then { s with splitPending := false }
  else { s with buffer := "", tokens := s.buffer :: s.tokens, splitPending := false }

/-- Makes the last token the one being read, unless one is being read already. -/
def reopen (s : Segment) : Segment :=
  match s.tokens with
  | [] => s
  | last :: tokens => if s.buffer.isEmpty then { s with buffer := last, tokens := tokens } else s

/-- Adds a `*` or `&` outside all brackets to the token before it. -/
def pushMarker (s : Segment) (c : Char) : Segment :=
  { s.reopen.push c with splitPending := true }

/-- Adds a bracket that closes one; behind the last open one a new token may start. -/
def pushClosing (s : Segment) (c : Char) : Segment :=
  { s.push c with splitPending := s.nesting == 0 }

/-- Adds a character without a meaning of its own. -/
def pushOrdinary (s : Segment) (c : Char) : Segment :=
  if s.splitPending && isWordChar c then s.flush.push c else s.push c

/-- Adds a blank: it ends a token outside all brackets and belongs to it inside. -/
def pushBlank (s : Segment) (c : Char) : Segment :=
  if s.nesting = 0 then s.flush else s.push c

/-- Makes ready for a comment, which ends a token outside all brackets. -/
def beforeComment (s : Segment) : Segment :=
  if s.nesting = 0 then s.flush else s

/-- What a character does to a segment. -/
inductive Step where
  /-- The segment goes on. -/
  | more (s : Segment)
  /-- The segment goes on behind the comment that the character opens. -/
  | comment (s : Segment)
  /-- The segment is complete. -/
  | done (delimiter : Delimiter)
  | flaw (flaw : Flaw)
  deriving DecidableEq, Repr

/-- The step of a closing parenthesis that has no opening one inside the segment. -/
def closeStep (part : Part) (s : Segment) : Step :=
  match part with
  | .head => .flaw .unbalancedParens
  | .parameters => if s.angle = 0 then .done .closing else .flaw .unbalancedAngles

/-- What the next character does to a segment of the given part. -/
def step (part : Part) (s : Segment) (c : Char) : Step :=
  if isBlank c then .more (s.pushBlank c)
  else
    match c with
    | '/' => .comment s.beforeComment
    | '<' => .more ({ s with angle := s.angle + 1 }.push c)
    | '>' =>
      match s.angle with
      | 0 => .flaw .unbalancedAngles
      | angle + 1 => .more ({ s with angle := angle }.pushClosing c)
    | '(' =>
      if part = .head ∧ s.nesting = 0 then .done .opening
      else .more ({ s with paren := s.paren + 1 }.push c)
    | ')' =>
      match s.paren with
      | 0 => s.closeStep part
      | paren + 1 => .more ({ s with paren := paren }.pushClosing c)
    | ',' =>
      if part = .parameters ∧ s.nesting = 0 then .done .comma else .more (s.pushOrdinary c)
    | '*' | '&' => .more (if s.nesting = 0 then s.pushMarker c else s.pushOrdinary c)
    | _ => .more (s.pushOrdinary c)

/-- What reading a segment leaves behind. -/
structure Reading where
  result : Except Halt Delimiter
  segment : Segment
  reader : Reader
  deriving Repr

/-- One turn of reading: the segment is complete or flawed, or reading goes on from a later state. -/
inductive Turn where
  | done (reading : Reading)
  | again (s : Segment) (r : Reader)

/-- Reads the comment that the character just read opens. -/
def commentTurn (s : Segment) (r : Reader) : Turn :=
  let comment := Comment.read s.nesting s.tags r
  let s₁ := { s with tags := comment.tags }
  match comment.halt with
  | some halt => .done ⟨.error halt, s₁, comment.reader⟩
  | none => .again s₁ comment.reader

/-- Reads the next character, with the comment that it opens if it opens one. -/
def turn (part : Part) (s : Segment) (r : Reader) : Turn :=
  match r.next? with
  | none => .done ⟨.error .unterminated, s, r⟩
  | some (c, r₁) =>
    match s.step part c with
    | .more s₁ => .again s₁ r₁
    | .comment s₁ => s₁.commentTurn r₁
    | .done delimiter => .done ⟨.ok delimiter, s, r₁⟩
    | .flaw flaw => .done ⟨.error (.flawed flaw), s, r₁⟩

theorem length_rest_commentTurn {s s' : Segment} {r r' : Reader}
    (h : s.commentTurn r = .again s' r') : r'.rest.length ≤ r.rest.length := by
  simp only [commentTurn] at h
  split at h
  · contradiction
  · injection h with _ hr
    rw [← hr]
    exact Comment.length_rest_read ..

/-- A turn that goes on has read a character. -/
theorem length_rest_turn {part : Part} {s s' : Segment} {r r' : Reader}
    (h : s.turn part r = .again s' r') : r'.rest.length < r.rest.length := by
  unfold turn at h
  split at h
  · contradiction
  · rename_i c r₁ hnext
    have hread := Reader.length_rest_next? hnext
    split at h
    · injection h with _ hr
      rw [← hr]
      omega
    · have := length_rest_commentTurn h
      omega
    · contradiction
    · contradiction

/-- Reads on in a segment up to its delimiter. -/
def read (part : Part) (s : Segment) (r : Reader) : Reading :=
  match _h : s.turn part r with
  | .done reading => reading
  | .again s₁ r₁ => read part s₁ r₁
termination_by r.rest.length
decreasing_by exact length_rest_turn _h

theorem not_ok_of_commentTurn {s : Segment} {r : Reader} {reading : Reading}
    (h : s.commentTurn r = .done reading) (delimiter : Delimiter) :
    reading.result ≠ .ok delimiter := by
  simp only [commentTurn] at h
  split at h
  · injection h with hreading
    rw [← hreading]
    exact nofun
  · contradiction

theorem length_rest_of_done {part : Part} {s : Segment} {r : Reader} {reading : Reading}
    {delimiter : Delimiter} (h : s.turn part r = .done reading) (hok : reading.result = .ok delimiter) :
    reading.reader.rest.length < r.rest.length := by
  unfold turn at h
  split at h
  · injection h with hreading
    rw [← hreading] at hok
    contradiction
  · rename_i c r₁ hnext
    have hread := Reader.length_rest_next? hnext
    split at h
    · contradiction
    · exact absurd hok (not_ok_of_commentTurn h delimiter)
    · injection h with hreading
      rw [← hreading]
      simp only
      omega
    · injection h with hreading
      rw [← hreading] at hok
      contradiction

/-- A segment that reaches its delimiter has read at least that. -/
theorem length_rest_read {part : Part} {s : Segment} {r : Reader} {delimiter : Delimiter}
    (h : (read part s r).result = .ok delimiter) :
    (read part s r).reader.rest.length < r.rest.length := by
  fun_induction read part s r with
  | case1 s r reading hturn => exact length_rest_of_done hturn h
  | case2 s r s₁ r₁ hturn ih => exact Nat.lt_trans (ih h) (length_rest_turn hturn)

/-- The name of a complete segment, which is its last token, and the fragments of its type, which are
the tokens before it; `none` without any token. -/
def split? (s : Segment) : Option (String × List String) :=
  match s.flush.tokens with
  | [] => none
  | name :: fragments => some (name, fragments.reverse)

end Segment
end ExportIndex
