import ExportIndex.Declaration.Scan
import ExportIndex.Proofs.CType.Peeling

/-!
# Ambiguous types

A star behind a fragment leaves open whether it belongs to the base type before it or to one that
follows, so a base type must not go on behind a star.

* `IsKept` and `IsStarred` say of one fragment what the strips leave of it and take off its end.
* `Ambiguous` — a kept fragment stands behind a starred one and behind a kept one.
* `ambiguousAfter_iff` — going through the fragments with two flags finds exactly that.
* `rejects_ambiguous` — exactly the ambiguous types are rejected, and the flaw names the whole type.
-/

namespace ExportIndex
namespace CType

open Fragment (Strips)

/-- What the strips leave of a fragment is neither empty nor `const`. -/
def IsKept (text : String) : Prop :=
  ∃ fragment, Strips text.toList fragment ∧ fragment.core ≠ "" ∧ fragment.core ≠ "const"

/-- The strips take a star off the end of a fragment. -/
def IsStarred (text : String) : Prop :=
  ∃ fragment, Strips text.toList fragment ∧ .star ∈ fragment.markers

/-- A kept fragment has both a starred and a kept fragment before it. -/
def Ambiguous (texts : List String) : Prop :=
  ∃ before text after, texts = before ++ text :: after ∧ IsKept text ∧
    (∃ earlier ∈ before, IsStarred earlier) ∧ ∃ earlier ∈ before, IsKept earlier

theorem isKept_iff {text : String} : IsKept text ↔ (Fragment.ofString text).kept = true := by
  simp [IsKept, Fragment.strips_iff, Fragment.kept]

theorem isStarred_iff {text : String} : IsStarred text ↔ (Fragment.ofString text).starred = true := by
  simp [IsStarred, Fragment.strips_iff, Fragment.starred]

/-- The flags tell what has come before the fragments, or comes before the one in question. -/
theorem ambiguousAfter_iff {starred kept : Bool} {texts : List String} :
    ambiguousAfter starred kept (texts.map Fragment.ofString) = true ↔
      ∃ before text after, texts = before ++ text :: after ∧ IsKept text ∧
        (starred = true ∨ ∃ earlier ∈ before, IsStarred earlier) ∧
        (kept = true ∨ ∃ earlier ∈ before, IsKept earlier) := by
  induction texts generalizing starred kept with
  | nil => simp [ambiguousAfter]
  | cons first texts ih =>
      rw [List.map_cons, ambiguousAfter, Bool.or_eq_true, ih]
      simp only [Bool.and_eq_true, Bool.or_eq_true, ← isKept_iff, ← isStarred_iff]
      constructor
      · rintro (⟨⟨hfirst, hstarred⟩, hkept⟩ | ⟨before, text, after, rfl, htext, hstarred, hkept⟩)
        · exact ⟨[], first, texts, rfl, hfirst, .inl hstarred, .inl hkept⟩
        · refine ⟨first :: before, text, after, rfl, htext, ?_, ?_⟩
          · simpa [or_assoc] using hstarred
          · simpa [or_assoc] using hkept
      · rintro ⟨before, text, after, htexts, htext, hstarred, hkept⟩
        cases before with
        | nil =>
            obtain ⟨rfl, rfl⟩ := List.cons.inj htexts
            exact .inl ⟨⟨htext, by simpa using hstarred⟩, by simpa using hkept⟩
        | cons _ before =>
            obtain ⟨rfl, rfl⟩ := List.cons.inj htexts
            refine .inr ⟨before, text, after, rfl, htext, ?_, ?_⟩
            · simpa [or_assoc] using hstarred
            · simpa [or_assoc] using hkept

theorem classify?_eq_none_iff {texts tags : List String} :
    classify? texts tags = none ↔ Ambiguous texts := by
  have hflags : ambiguousAfter false false (texts.map Fragment.ofString) = true ↔ Ambiguous texts := by
    rw [ambiguousAfter_iff, Ambiguous]
    simp
  rw [← hflags]
  simp only [classify?]
  split <;> simp_all

/-- With no starred fragment before the last one a type is not ambiguous. -/
theorem not_ambiguous_of_not_starred {before : List String} (last : String)
    (h : ∀ earlier ∈ before, ¬IsStarred earlier) : ¬Ambiguous (before ++ [last]) := by
  rintro ⟨passed, text, after, htexts, -, ⟨earlier, hearlier, hstarred⟩, -⟩
  refine h earlier ?_ hstarred
  -- What stands before some fragment stands before the last one.
  have hlength := congrArg List.length htexts
  simp only [List.length_append, List.length_cons, List.length_nil] at hlength
  have hprefix : passed <+: before ++ [last] := ⟨text :: after, htexts.symm⟩
  have hpassed : passed <+: before :=
    List.prefix_of_prefix_length_le hprefix (List.prefix_append before [last]) (by omega)
  exact hpassed.subset hearlier

theorem Ambiguous.append {texts : List String} (h : Ambiguous texts) (more : List String) :
    Ambiguous (texts ++ more) := by
  obtain ⟨before, text, after, rfl, hambiguous⟩ := h
  exact ⟨before, text, after ++ more, by simp, hambiguous⟩

/-- A type is rejected exactly if it is ambiguous, and the flaw is then all its fragments joined by
spaces.  Stars in front and reference markers never make it ambiguous, nor does a star behind the last
fragment; and what is ambiguous stays so when more fragments follow. -/
theorem rejects_ambiguous (texts : List String) :
    (∀ tags, classify? texts tags = none ↔ Ambiguous texts) ∧
    (∀ (unnamed : Flaw) (s : Segment) (name : String), s.split? = some (name, texts) →
      (Ambiguous texts →
        Declaration.namedType unnamed s = .error (.ambiguousPointer (" ".intercalate texts))) ∧
      (¬Ambiguous texts → ∃ type, Declaration.namedType unnamed s = .ok (name, type))) ∧
    (∀ before last, texts = before ++ [last] → (∀ earlier ∈ before, ¬IsStarred earlier) →
      ∀ tags, ∃ type, classify? texts tags = some type) ∧
    ∀ tags, classify? texts tags = none → ∀ more, classify? (texts ++ more) tags = none := by
  have hsome {texts : List String} (h : ¬Ambiguous texts) (tags : List String) :
      ∃ type, classify? texts tags = some type :=
    Option.ne_none_iff_exists'.1 (mt classify?_eq_none_iff.1 h)
  refine ⟨fun tags => classify?_eq_none_iff, fun unnamed s name hsplit => ⟨fun h => ?_, fun h => ?_⟩,
    ?_, fun tags h more => ?_⟩
  · have hnone : classify? texts s.tags = none := classify?_eq_none_iff.2 h
    simp only [Declaration.namedType, hsplit, hnone, join]
  · obtain ⟨type, htype⟩ := hsome h s.tags
    exact ⟨type, by simp only [Declaration.namedType, hsplit, htype]⟩
  · rintro before last rfl hstarred tags
    exact hsome (not_ambiguous_of_not_starred last hstarred) tags
  · exact classify?_eq_none_iff.2 ((classify?_eq_none_iff.1 h).append more)

/-- In `int const* x` the starred fragment is not the kept one, and still both stand before `x`; in
`** int& char*&` only the last fragment is starred. -/
theorem rejects_ambiguous_const :
    classify? ["int", "const*", "x"] [] = none ∧
      Declaration.namedType .unnamedParameter ⟨"", ["y", "x", "const*", "int"], [], 0, 0, false⟩ =
        .error (.ambiguousPointer "int const* x") ∧
      classify? ["int", "const*", "x", "&"] [] = none ∧
      ∃ type, classify? ["**", "int&", "char*&"] [] = some type := by
  have hnone : classify? ["int", "const*", "x"] [] = none := by decide +kernel
  obtain ⟨hiff, hnamed, -, happend⟩ := rejects_ambiguous ["int", "const*", "x"]
  refine ⟨hnone, ?_, happend [] hnone ["&"], ?_⟩
  · exact (hnamed .unnamedParameter _ "y" (by decide +kernel)).1 ((hiff []).1 hnone)
  · refine (rejects_ambiguous _).2.2.1 ["**", "int&"] "char*&" rfl ?_ []
    intro earlier hearlier
    rw [isStarred_iff]
    revert earlier
    decide +kernel

end CType
end ExportIndex
