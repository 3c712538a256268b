import ExportIndex.CType.Basic
import ExportIndex.Text.Blank

/-!
# Taking a type apart

A type is written as fragments.  Each fragment has a core between leading stars and trailing markers.

* `peelStars` takes the leading stars off a fragment, `peelMarkers` the trailing markers off the
  reverse of what is left; blanks between two marks go with them.
* A fragment is kept when its core is neither empty nor `const`; the base type is made of the cores of
  the kept fragments.
* A type is ambiguous when a kept fragment follows both a kept fragment and one that ends in a star:
  the star could then belong to either.
-/

namespace ExportIndex
namespace CType

open Text (isBlank)

/-- A mark at the end of a fragment. -/
inductive Marker where
  | star
  | lvalue
  | rvalue
  deriving DecidableEq, Repr

/-- A fragment of a type, taken apart. -/
structure Fragment where
  /-- The number of stars it starts with. -/
  leadingStars : Nat
  core : String
  /-- The marks it ends with, the last one first. -/
  markers : List Marker
  deriving DecidableEq, Repr

namespace Fragment

/-- The number of stars a text starts with and what follows them; `peeled` tells whether a star came
just before, so that blanks are skipped. -/
def peelStars (peeled : Bool) : List Char → Nat × List Char
  | [] => (0, [])
  | c :: rest =>
    if c = '*' then
      let (stars, core) := peelStars true rest
      (stars + 1, core)
    else if peeled && isBlank c then peelStars true rest
    else (0, c :: rest)

/-- The marks that the reverse of a text starts with and what follows them; `peeled` tells whether a
mark came just before, so that blanks are skipped.  Two ampersands side by side are one mark. -/
def peelMarkers (peeled : Bool) : List Char → List Marker × List Char
  | [] => ([], [])
  | '&' :: '&' :: rest =>
    let (markers, core) := peelMarkers true rest
    (.rvalue :: markers, core)
  | c :: rest =>
    if c = '*' then
      let (markers, core) := peelMarkers true rest
      (.star :: markers, core)
    else if c = '&' then
      let (markers, core) := peelMarkers true rest
      (.lvalue :: markers, core)
    else if peeled && isBlank c then peelMarkers true rest
    else ([], c :: rest)

/-- Takes a fragment apart: first the stars in front, then the marks at the end. -/
def ofString (text : String) : Fragment :=
  let (stars, unstarred) := peelStars false text.toList
  let (markers, reversed) := peelMarkers false unstarred.reverse
  ⟨stars, String.ofList reversed.reverse, markers⟩

/-- Whether the core belongs to the base type. -/
def kept (fragment : Fragment) : Bool :=
  fragment.core != "" && fragment.core != "const"

/-- Whether the fragment ends in a star. -/
def starred (fragment : Fragment) : Bool :=
  fragment.markers.contains .star

/-- The number of stars around the core. -/
def stars (fragment : Fragment) : Nat :=
  fragment.leadingStars + fragment.markers.count .star

end Fragment

/-- The number of stars around the cores of all fragments. -/
def countStars (fragments : List Fragment) : Nat :=
  fragments.foldr (fun fragment count => fragment.stars + count) 0

/-- The reference a mark stands for; a star leaves the reference as it is. -/
def Marker.refer (reference : Reference) : Marker → Reference
  | .star => reference
  | .lvalue => .lvalue
  | .rvalue => .rvalue

/-- Whether a kept fragment follows both a starred and a kept one, when `starred` and `kept` tell what
came before. -/
def ambiguousAfter (starred kept : Bool) : List Fragment → Bool
  | [] => false
  | fragment :: rest =>
    (fragment.kept && starred && kept) ||
      ambiguousAfter (starred || fragment.starred) (kept || fragment.kept) rest

/-- The text of a type: its fragments, joined by single spaces. -/
def join (fragments : List String) : String :=
  " ".intercalate fragments

/-- The type that the fragments and the tags beside them make; `none` if it is ambiguous. -/
def classify? (texts : List String) (tags : List String) : Option CType :=
  let fragments := texts.map Fragment.ofString
  if ambiguousAfter false false fragments then none
  else some
    { full := join texts
      base := join ((fragments.filter Fragment.kept).map Fragment.core)
      pointerDepth := countStars fragments
      reference := (fragments.flatMap Fragment.markers).foldl Marker.refer .none
      tags := .ofList tags }

/-- A type keeps its fragments and its tags, and listed in order the tags make the same type. -/
theorem of_classify? {fragments tags : List String} {type : CType}
    (h : classify? fragments tags = some type) :
    type.full = join fragments ∧ type.tags = .ofList tags ∧
      classify? fragments type.tags.words = some type := by
  simp only [classify?] at h ⊢
  split at h
  · contradiction
  · rename_i hclear
    injection h with h
    subst h
    rw [if_neg hclear, TagSet.ofList_words]
    exact ⟨rfl, rfl, rfl⟩

end CType
end ExportIndex
