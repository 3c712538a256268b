import ExportIndex.Text.Ranges
import ExportIndex.Text.WordRanges

/-!
# Word characters

Identifiers are made of word characters: the underscore, letters and digits of any script.

* Below U+0080 these are the ASCII letters and digits, decided directly.
* From U+0080 on `wordRanges` is searched.
-/

namespace ExportIndex
namespace Text

/-- The characters of an identifier: the underscore, letters and digits. -/
def isWordChar (c : Char) : Bool :=
  if c.toNat < 0x80 then c.isAlphanum || c == '_' else inRanges wordRanges c.toNat

end Text
end ExportIndex
