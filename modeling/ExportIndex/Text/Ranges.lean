/-!
# Ranges of code points

Sets of characters that a standard lists are kept as closed intervals of code points.
-/

namespace ExportIndex
namespace Text

/-- Whether a code point lies in one of the given closed intervals. -/
def inRanges (ranges : List (Nat × Nat)) (n : Nat) : Bool :=
  ranges.any fun range => range.1 ≤ n && n ≤ range.2

end Text
end ExportIndex
