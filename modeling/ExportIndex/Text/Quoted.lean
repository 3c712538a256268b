import ExportIndex.Text.HiddenRanges
import ExportIndex.Text.Ranges

/-!
# Texts made visible

Two ways to write a text so that none of its characters can be mistaken for something else.

* `quoted` puts a text between double quotes; quotes, backslashes and characters that do not show are
  escaped.
* `disarmed` escapes only the controls that a terminal might obey; `isControl` covers them all.
-/

namespace ExportIndex
namespace Text

/-- The digits of a number to the base sixteen, in lower case. -/
def hexDigits (n : Nat) : List Char :=
  Nat.toDigits 16 n

/-- An escape with the code point between braces. -/
def codePointEscape (c : Char) : List Char :=
  ['\\', 'u', '\x7b'] ++ hexDigits c.toNat ++ ['\x7d']

/-- Whether a character does not show. -/
def isHidden (c : Char) : Bool :=
  c.toNat < 0x20 || (0x7F ≤ c.toNat && inRanges hiddenRanges c.toNat)

/-- How a character is written between double quotes. -/
def quotedChar (c : Char) : List Char :=
  if c = '\x00' then ['\\', '0']
  else if c = '\t' then ['\\', 't']
  else if c = '\n' then ['\\', 'n']
  else if c = '\r' then ['\\', 'r']
  else if c = '"' then ['\\', '"']
  else if c = '\\' then ['\\', '\\']
  else if isHidden c then codePointEscape c
  else [c]

/-- A text between double quotes. -/
def quoted (text : String) : String :=
  "\"" ++ String.ofList (text.toList.flatMap quotedChar) ++ "\""

/-- Whether a character is a control. -/
def isControl (c : Char) : Bool :=
  c.toNat < 0x20 || (0x7F ≤ c.toNat && c.toNat ≤ 0x9F)

/-- How a character is written where a terminal might obey it. -/
def disarmedChar (c : Char) : List Char :=
  if c = '\x1b' then "\\x1b".toList
  else if c = '\x07' then "\\x07".toList
  else if c = '\x08' then "\\x08".toList
  else if c = '\x0c' then "\\x0c".toList
  else if c = '\x7f' then "\\x7f".toList
  else if 0x80 ≤ c.toNat ∧ c.toNat ≤ 0x9F then codePointEscape c
  else [c]

/-- Nothing but controls is escaped. -/
theorem disarmedChar_of_not_control (c : Char) (h : isControl c = false) : disarmedChar c = [c] := by
  have hne (d : Char) (hd : isControl d = true) : c ≠ d := by
    rintro rfl
    rw [h] at hd
    contradiction
  rw [disarmedChar, if_neg (hne _ rfl), if_neg (hne _ rfl), if_neg (hne _ rfl), if_neg (hne _ rfl),
    if_neg (hne _ rfl), if_neg]
  rintro ⟨hlow, hhigh⟩
  have hcontrol : isControl c = true := by
    simp only [isControl, Bool.or_eq_true, Bool.and_eq_true, decide_eq_true_eq]
    omega
  rw [h] at hcontrol
  contradiction

/-- A text without the controls that a terminal might obey. -/
def disarmed (text : String) : String :=
  String.ofList (text.toList.flatMap disarmedChar)

end Text
end ExportIndex
