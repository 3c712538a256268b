/-!
# Patterns for names

A pattern is a text in which `?` stands for one character, `*` for any number of them, `[abc]`,
`[a-z]` and `[!abc]` for one character of a class, and `**` for any number of directories.  Every other
character stands for itself, the backslash and braces included.

* `tokens` reads a pattern.  A `**` has to fill the space between two slashes, or between a slash and
  an end, and more than two stars side by side mean nothing; what a `[` opens has to be closed, with at
  least one character inside.
* `matchesName` decides whether a name is one that the tokens stand for.  It takes the tokens in order
  and keeps all that may be left of the name, each rest once, so its work grows with the product of the
  two lengths.
-/

namespace ExportIndex
namespace Glob

/-- A member of a character class. -/
inductive ClassItem where
  | single (c : Char)
  /-- The characters between two others, both included. -/
  | between (low high : Char)
  deriving DecidableEq, Repr

/-- A part of a pattern. -/
inductive Token where
  | literal (c : Char)
  | anyChar
  | anyRun
  | anyDepth
  /-- One character that is in the class, or, if `negated`, one that is not. -/
  | charClass (negated : Bool) (items : List ClassItem)
  deriving DecidableEq, Repr

/-- What is wrong with a pattern. -/
inductive PatternFlaw where
  | tooManyStars
  | misplacedStars
  | invalidRange
  deriving DecidableEq, Repr

/-- A flaw of a pattern and the index it is reported at. -/
structure PatternError where
  position : Nat
  flaw : PatternFlaw
  deriving DecidableEq, Repr

/-- The wording of a flaw. -/
def PatternFlaw.message : PatternFlaw → String
  | .tooManyStars => "wildcards are either regular `*` or recursive `**`"
  | .misplacedStars => "recursive wildcards must form a single path component"
  | .invalidRange => "invalid range pattern"

/-- The wording of a pattern error. -/
def PatternError.message (error : PatternError) : String :=
  "Pattern syntax error near position " ++ toString error.position ++ ": " ++ error.flaw.message

/-- The members that the text between two brackets lists. -/
def classItems : List Char → List ClassItem
  | low :: '-' :: high :: rest => .between low high :: classItems rest
  | c :: rest => .single c :: classItems rest
  | [] => []

/-- The text up to the next closing bracket and the text behind it. -/
def untilBracket (text : List Char) : Option (List Char × List Char) :=
  match text.dropWhile (· != ']') with
  | [] => none
  | _ :: rest => some (text.takeWhile (· != ']'), rest)

/-- The class behind an opening bracket and the text behind the class.  The first character of a class
may be a closing bracket. -/
def readClass (text : List Char) : Option (Token × List Char) :=
  match text with
  | '!' :: first :: rest =>
    (untilBracket rest).map fun (more, later) => (.charClass true (classItems (first :: more)), later)
  | '!' :: [] => none
  | first :: rest =>
    (untilBracket rest).map fun (more, later) => (.charClass false (classItems (first :: more)), later)
  | [] => none

theorem length_untilBracket {text more later : List Char}
    (h : untilBracket text = some (more, later)) : later.length < text.length := by
  unfold untilBracket at h
  split at h
  · contradiction
  · rename_i c rest hdrop
    have hle := (List.dropWhile_suffix (l := text) (· != ']')).length_le
    rw [hdrop, List.length_cons] at hle
    simp only [Option.some.injEq, Prod.mk.injEq] at h
    rw [← h.2]
    omega

/-- A class takes at least one character. -/
theorem length_readClass {text later : List Char} {token : Token}
    (h : readClass text = some (token, later)) : later.length < text.length := by
  unfold readClass at h
  split at h
  · obtain ⟨⟨more, rest⟩, hrest, heq⟩ := Option.map_eq_some_iff.1 h
    have := length_untilBracket hrest
    simp only [Prod.mk.injEq] at heq
    simp only [← heq.2, List.length_cons]
    omega
  · contradiction
  · obtain ⟨⟨more, rest⟩, hrest, heq⟩ := Option.map_eq_some_iff.1 h
    have := length_untilBracket hrest
    simp only [Prod.mk.injEq] at heq
    simp only [← heq.2, List.length_cons]
    omega
  · contradiction

/-- Reads the pattern that follows `position` characters, the last of which is `previous`. -/
def tokensFrom (position : Nat) (previous : Option Char) (text : List Char) :
    Except PatternError (List Token) :=
  match text with
  | [] => .ok []
  | c :: rest =>
    if c = '?' then (tokensFrom (position + 1) (some c) rest).map (.anyChar :: ·)
    else if c = '*' then
      let stars := 1 + (rest.takeWhile (· == '*')).length
      let later := rest.drop (stars - 1)
      if stars > 2 then .error ⟨position + 2, .tooManyStars⟩
      else if stars = 2 then
        if previous = none ∨ previous = some '/' then
          match _hlater : later with
          | [] => .ok [.anyDepth]
          | d :: behind =>
            if d = '/' then (tokensFrom (position + 3) (some d) behind).map (.anyDepth :: ·)
            else .error ⟨position + 2, .misplacedStars⟩
        else .error ⟨position - 1, .misplacedStars⟩
      else (tokensFrom (position + 1) (some c) rest).map (.anyRun :: ·)
    else if c = '[' then
      match _h : readClass rest with
      | none => .error ⟨position, .invalidRange⟩
      | some (token, later) =>
        (tokensFrom (position + 1 + (rest.length - later.length)) (some ']') later).map (token :: ·)
    else (tokensFrom (position + 1) (some c) rest).map (.literal c :: ·)
termination_by text.length
decreasing_by
  · simp
  · have := congrArg List.length _hlater
    simp only [List.length_drop, List.length_cons, later] at this ⊢
    omega
  · simp
  · have := length_readClass _h
    simp only [List.length_cons]
    omega
  · simp

/-- Reads a pattern. -/
def tokens (pattern : List Char) : Except PatternError (List Token) :=
  tokensFrom 0 none pattern

/-- Whether a class member stands for a character. -/
def ClassItem.matchesChar (c : Char) : ClassItem → Bool
  | .single d => c == d
  | .between low high => low ≤ c && c ≤ high

/-- Whether a token stands for one character, and for this one. -/
def Token.matchesChar (c : Char) : Token → Bool
  | .literal d => c == d
  | .anyChar => true
  | .charClass negated items => items.any (·.matchesChar c) != negated
  | .anyRun | .anyDepth => false

/-- A text and what is left of it after each of its characters, the longest first. -/
def restsOf : List Char → List (List Char)
  | [] => [[]]
  | c :: rest => (c :: rest) :: restsOf rest

/-- What is left of a name behind its first character, if the token stands for that. -/
def Token.restOf? (token : Token) : List Char → Option (List Char)
  | [] => none
  | c :: rest => if token.matchesChar c then some rest else none

/-- What may be left of a name after a token, given what may be left before it, the longest first.  The
shorter ones end the longest, so a run of characters leaves what it leaves of that one. -/
def Token.leftovers (token : Token) (before : List (List Char)) : List (List Char) :=
  match token with
  | .anyRun | .anyDepth =>
    match before with
    | [] => []
    | longest :: _ => restsOf longest
  | _ => before.filterMap token.restOf?

/-- Whether a name is one that the tokens stand for: nothing of it may be left after them. -/
def matchesName (tokens : List Token) (name : List Char) : Bool :=
  (tokens.foldl (fun before token => token.leftovers before) [name]).any (·.isEmpty)

end Glob
end ExportIndex
