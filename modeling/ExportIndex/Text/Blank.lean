/-!
# Blank characters

The characters with the Unicode property `White_Space` separate words, and this module holds that
set together with the two trims that everything else uses.

* `isBlank` is the set itself: U+0009 to U+000D, the space, U+0085, U+00A0 and the wide spaces.
* `trimStart` and `trimEnd` drop the blanks at one end of a text and nothing else.
-/

namespace ExportIndex
namespace Text

/-- The characters with the Unicode property `White_Space`. -/
def isBlank (c : Char) : Bool :=
  let n := c.toNat
  (0x09 ≤ n && n ≤ 0x0D) || n == 0x20 || n == 0x85 || n == 0xA0 || n == 0x1680 ||
    (0x2000 ≤ n && n ≤ 0x200A) || n == 0x2028 || n == 0x2029 || n == 0x202F || n == 0x205F ||
    n == 0x3000

/-- A text without the blanks it starts with. -/
def trimStart (text : List Char) : List Char :=
  text.dropWhile isBlank

/-- A text without the blanks it ends with. -/
def trimEnd (text : List Char) : List Char :=
  (text.reverse.dropWhile isBlank).reverse

/-- What a trim removes at the front, followed by what it leaves, is the text. -/
theorem takeWhile_append_trimStart (text : List Char) :
    text.takeWhile isBlank ++ trimStart text = text :=
  List.takeWhile_append_dropWhile

end Text
end ExportIndex
