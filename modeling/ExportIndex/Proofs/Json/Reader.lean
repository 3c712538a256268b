import ExportIndex.Json

/-!
# Reading JSON

A reader for all JSON texts, not only for those that are written here.

* `Value` is what a JSON text stands for; the number of a text is exact, whatever its notation.
* `tokens` cuts a text into tokens.  Blanks between tokens mean nothing; a token that is not well
  formed makes the whole text unreadable.
* `State.step` takes one token after the other.  What is open is kept on a stack, so lists and objects
  nest to any depth.
* `Value.read?` reads a text that holds one value and nothing behind it but blanks.
-/

namespace ExportIndex
namespace Json

/-- What a JSON text stands for. -/
inductive Value where
  | null
  | boolean (value : Bool)
  | number (value : Rat)
  | text (value : String)
  | list (items : List Value)
  | object (members : List (String × Value))

/-! ### Texts between quotes -/

/-- The value of a digit to the base sixteen. -/
def hexValue? (c : Char) : Option Nat :=
  if '0' ≤ c ∧ c ≤ '9' then some (c.toNat - 0x30)
  else if 'a' ≤ c ∧ c ≤ 'f' then some (c.toNat - 0x57)
  else if 'A' ≤ c ∧ c ≤ 'F' then some (c.toNat - 0x37)
  else none

/-- The number that four digits to the base sixteen write, and what is behind them. -/
def codeUnit? : List Char → Option (Nat × List Char)
  | a :: b :: c :: d :: rest =>
    match hexValue? a, hexValue? b, hexValue? c, hexValue? d with
    | some a, some b, some c, some d => some (((a * 16 + b) * 16 + c) * 16 + d, rest)
    | _, _, _, _ => none
  | _ => none

/-- The second half of a character that two code units write; `high` is the first one. -/
def lowHalf? (high : Nat) : List Char → Option (Char × List Char)
  | '\\' :: 'u' :: rest =>
    match codeUnit? rest with
    | some (low, later) =>
      if 0xDC00 ≤ low ∧ low < 0xE000 then
        some (Char.ofNat (0x10000 + (high - 0xD800) * 0x400 + (low - 0xDC00)), later)
      else none
    | none => none
  | _ => none

/-- The character that the code units behind `\u` write; half a character is not one. -/
def unicode? (text : List Char) : Option (Char × List Char) :=
  match codeUnit? text with
  | none => none
  | some (unit, rest) =>
    if 0xD800 ≤ unit ∧ unit < 0xDC00 then lowHalf? unit rest
    else if 0xDC00 ≤ unit ∧ unit < 0xE000 then none
    else some (Char.ofNat unit, rest)

/-- The character that a letter behind a backslash stands for. -/
def shortEscape? (c : Char) : Option Char :=
  match c with
  | '"' => some '"'
  | '\\' => some '\\'
  | '/' => some '/'
  | 'b' => some '\x08'
  | 'f' => some '\x0c'
  | 'n' => some '\n'
  | 'r' => some '\r'
  | 't' => some '\t'
  | _ => none

/-- The character that stands behind a backslash, and what is behind it. -/
def escaped? : List Char → Option (Char × List Char)
  | [] => none
  | c :: rest => if c = 'u' then unicode? rest else (shortEscape? c).map (·, rest)

theorem length_codeUnit? {text later : List Char} {unit : Nat}
    (h : codeUnit? text = some (unit, later)) : later.length < text.length := by
  unfold codeUnit? at h
  split at h
  · split at h
    · simp only [Option.some.injEq, Prod.mk.injEq] at h
      rw [← h.2]
      simp only [List.length_cons]
      omega
    · contradiction
  · contradiction

theorem length_lowHalf? {high : Nat} {text later : List Char} {c : Char}
    (h : lowHalf? high text = some (c, later)) : later.length < text.length := by
  unfold lowHalf? at h
  split at h
  · split at h
    · rename_i rest low behind hunit
      have := length_codeUnit? hunit
      split at h
      · simp only [Option.some.injEq, Prod.mk.injEq] at h
        rw [← h.2]
        simp only [List.length_cons]
        omega
      · contradiction
    · contradiction
  · contradiction

theorem length_unicode? {text later : List Char} {c : Char}
    (h : unicode? text = some (c, later)) : later.length < text.length := by
  unfold unicode? at h
  split at h
  · contradiction
  · rename_i unit rest hunit
    have := length_codeUnit? hunit
    split at h
    · have := length_lowHalf? h
      omega
    · split at h
      · contradiction
      · simp only [Option.some.injEq, Prod.mk.injEq] at h
        rw [← h.2]
        exact this

theorem length_escaped? {text later : List Char} {c : Char}
    (h : escaped? text = some (c, later)) : later.length < text.length := by
  cases text with
  | nil => contradiction
  | cons d rest =>
      rw [escaped?] at h
      rw [List.length_cons]
      split at h
      · have := length_unicode? h
        omega
      · obtain ⟨e, -, heq⟩ := Option.map_eq_some_iff.1 h
        rw [(Prod.mk.inj heq).2]
        exact Nat.lt_succ_self _

/-- The text up to the closing quote, and what is behind the quote.  Characters below U+0020 have to be
escaped. -/
def readText (text : List Char) : Option (List Char × List Char) :=
  match text with
  | [] => none
  | c :: rest =>
    if c = '"' then some ([], rest)
    else if c = '\\' then
      match _h : escaped? rest with
      | none => none
      | some (d, later) => (readText later).map fun (body, behind) => (d :: body, behind)
    else if c.toNat < 0x20 then none
    else (readText rest).map fun (body, behind) => (c :: body, behind)
termination_by text.length
decreasing_by
  · have := length_escaped? _h
    simp only [List.length_cons]
    omega
  · simp

theorem length_readText {text body later : List Char} (h : readText text = some (body, later)) :
    later.length < text.length := by
  fun_induction readText text generalizing body later with
  | case1 => contradiction
  | case2 =>
      simp only [Option.some.injEq, Prod.mk.injEq] at h
      simp [← h.2]
  | case3 => contradiction
  | case4 rest d behind hescaped _ ih =>
      obtain ⟨⟨body', later'⟩, hread, heq⟩ := Option.map_eq_some_iff.1 h
      simp only [Prod.mk.injEq] at heq
      have := ih hread
      have := length_escaped? hescaped
      simp only [← heq.2, List.length_cons]
      omega
  | case5 => contradiction
  | case6 c rest _ _ _ ih =>
      obtain ⟨⟨body', later'⟩, hread, heq⟩ := Option.map_eq_some_iff.1 h
      simp only [Prod.mk.injEq] at heq
      have := ih hread
      simp only [← heq.2, List.length_cons]
      omega

/-! ### Numbers -/

/-- Whether a character can be part of a number. -/
def isNumberChar (c : Char) : Bool :=
  c.isDigit || c == '-' || c == '+' || c == '.' || c == 'e' || c == 'E'

/-- The number that digits write; there has to be one digit at least. -/
def digits? (text : List Char) : Option Nat :=
  if text ≠ [] ∧ text.all Char.isDigit then some (Nat.ofDigitChars 10 text 0) else none

/-- The digits before the point; a zero is the first of them only if it is the only one. -/
def whole? (text : List Char) : Option (List Char) :=
  if text ≠ [] ∧ text.all Char.isDigit ∧ (text.head? = some '0' → text = ['0']) then some text else none

/-- The digits behind the point; without a point there are none. -/
def fraction? : List Char → Option (List Char)
  | [] => some []
  | '.' :: digits => if digits ≠ [] ∧ digits.all Char.isDigit then some digits else none
  | _ => none

/-- The exponent behind its letter; without one it is zero. -/
def exponent? : List Char → Option Int
  | [] => some 0
  | _ :: '-' :: digits => (digits? digits).map fun n => -(n : Int)
  | _ :: '+' :: digits => (digits? digits).map fun n => (n : Int)
  | _ :: digits => (digits? digits).map fun n => (n : Int)

/-- A whole number times a power of ten. -/
def scaled (mantissa exponent : Int) : Rat :=
  if 0 ≤ exponent then mkRat (mantissa * (Nat.pow 10 exponent.toNat : Nat)) 1
  else mkRat mantissa (Nat.pow 10 (-exponent).toNat)

/-- The number that a text without sign writes: digits, digits behind a point and an exponent. -/
def unsigned? (negative : Bool) (text : List Char) : Option Rat :=
  let isLetter (c : Char) : Bool := c == 'e' || c == 'E'
  let mantissa := text.takeWhile (!isLetter ·)
  match whole? (mantissa.takeWhile (· != '.')), fraction? (mantissa.dropWhile (· != '.')),
      exponent? (text.dropWhile (!isLetter ·)) with
  | some whole, some fraction, some exponent =>
    let value : Int := Nat.ofDigitChars 10 (whole ++ fraction) 0
    some (scaled (if negative then -value else value) (exponent - fraction.length))
  | _, _, _ => none

/-- The number that a text writes. -/
def number? : List Char → Option Rat
  | '-' :: rest => unsigned? true rest
  | rest => unsigned? false rest

/-! ### Tokens -/

/-- A token of a JSON text. -/
inductive Token where
  | openList
  | closeList
  | openObject
  | closeObject
  | comma
  | colon
  | null
  | boolean (value : Bool)
  | number (value : Rat)
  | text (value : String)

/-- Whether a character may stand between tokens without meaning. -/
def isBlank (c : Char) : Bool :=
  c == ' ' || c == '\t' || c == '\n' || c == '\r'

/-- What is behind a word that a text begins with. -/
def behindWord? (word text : List Char) : Option (List Char) :=
  if word.isPrefixOf text then some (text.drop word.length) else none

/-- The token that begins with a character, and what is behind it. -/
def token? (c : Char) (rest : List Char) : Option (Token × List Char) :=
  match c with
  | '[' => some (.openList, rest)
  | ']' => some (.closeList, rest)
  | '\x7b' => some (.openObject, rest)
  | '\x7d' => some (.closeObject, rest)
  | ',' => some (.comma, rest)
  | ':' => some (.colon, rest)
  | '"' => (readText rest).map fun (body, later) => (.text (String.ofList body), later)
  | 'n' => (behindWord? ['u', 'l', 'l'] rest).map (.null, ·)
  | 't' => (behindWord? ['r', 'u', 'e'] rest).map (.boolean true, ·)
  | 'f' => (behindWord? ['a', 'l', 's', 'e'] rest).map (.boolean false, ·)
  | _ =>
    (number? (c :: rest.takeWhile isNumberChar)).map (.number ·, rest.dropWhile isNumberChar)

theorem length_behindWord? {word text later : List Char} (h : behindWord? word text = some later) :
    later.length ≤ text.length := by
  unfold behindWord? at h
  split at h
  · injection h with h
    simp [← h]
  · contradiction

theorem length_token? {c : Char} {rest later : List Char} {token : Token}
    (h : token? c rest = some (token, later)) : later.length ≤ rest.length := by
  unfold token? at h
  split at h
  case h_7 =>
    obtain ⟨⟨body, behind⟩, hread, heq⟩ := Option.map_eq_some_iff.1 h
    simp only [Prod.mk.injEq] at heq
    rw [← heq.2]
    exact Nat.le_of_lt (length_readText hread)
  case h_8 | h_9 | h_10 =>
    obtain ⟨behind, hword, heq⟩ := Option.map_eq_some_iff.1 h
    simp only [Prod.mk.injEq] at heq
    rw [← heq.2]
    exact length_behindWord? hword
  case h_11 =>
    obtain ⟨value, -, heq⟩ := Option.map_eq_some_iff.1 h
    simp only [Prod.mk.injEq] at heq
    rw [← heq.2]
    exact (List.dropWhile_suffix isNumberChar).length_le
  all_goals
    simp only [Option.some.injEq, Prod.mk.injEq] at h
    exact Nat.le_of_eq (congrArg List.length h.2.symm)

/-- The tokens of a text. -/
def tokens (text : List Char) : Option (List Token) :=
  match _hblank : text.dropWhile isBlank with
  | [] => some []
  | c :: rest =>
    match _htoken : token? c rest with
    | none => none
    | some (token, later) => (tokens later).map (token :: ·)
termination_by text.length
decreasing_by
  have hle := (List.dropWhile_suffix (l := text) isBlank).length_le
  have := length_token? _htoken
  rw [_hblank, List.length_cons] at hle
  omega

/-! ### Values -/

/-- A list or an object that is still open, with what has been read of it, the last member first. -/
inductive Frame where
  | list (items : List Value)
  /-- An object; the value of the key is to follow. -/
  | object (members : List (String × Value)) (key : String)

/-- What a text may go on with.  What is open around that is listed from the inside to the outside. -/
inductive State where
  /-- A value has to follow. -/
  | value (outer : List Frame)
  /-- A value or the end of the list that has just been opened has to follow. -/
  | firstItem (outer : List Frame)
  /-- A key or the end of the object that has just been opened has to follow. -/
  | firstKey (outer : List Frame)
  /-- A key has to follow. -/
  | key (members : List (String × Value)) (outer : List Frame)
  /-- The colon behind a key has to follow. -/
  | colon (members : List (String × Value)) (key : String) (outer : List Frame)
  /-- A value has just been read. -/
  | read (value : Value) (outer : List Frame)

/-- Takes the first token of a value. -/
def State.enter (outer : List Frame) : Token → Option State
  | .openList => some (.firstItem outer)
  | .openObject => some (.firstKey outer)
  | .null => some (.read .null outer)
  | .boolean b => some (.read (.boolean b) outer)
  | .number n => some (.read (.number n) outer)
  | .text s => some (.read (.text s) outer)
  | _ => none

/-- Takes one token. -/
def State.step : State → Token → Option State
  | .value outer, token => enter outer token
  | .firstItem outer, .closeList => some (.read (.list []) outer)
  | .firstItem outer, token => enter (.list [] :: outer) token
  | .firstKey outer, .closeObject => some (.read (.object []) outer)
  | .firstKey outer, .text s => some (.colon [] s outer)
  | .key members outer, .text s => some (.colon members s outer)
  | .colon members s outer, .colon => some (.value (.object members s :: outer))
  | .read v (.list items :: outer), .comma => some (.value (.list (v :: items) :: outer))
  | .read v (.list items :: outer), .closeList => some (.read (.list (v :: items).reverse) outer)
  | .read v (.object members s :: outer), .comma => some (.key ((s, v) :: members) outer)
  | .read v (.object members s :: outer), .closeObject =>
    some (.read (.object ((s, v) :: members).reverse) outer)
  | _, _ => none

/-- The value that has been read, if nothing is open. -/
def State.value? : State → Option Value
  | .read v [] => some v
  | _ => none

/-- The value that a text holds. -/
def Value.read? (text : String) : Option Value :=
  match tokens text.toList with
  | none => none
  | some tokens => (tokens.foldlM State.step (.value [])).bind State.value?

end Json
end ExportIndex
