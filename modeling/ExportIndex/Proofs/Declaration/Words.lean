import ExportIndex.Proofs.CType.Conservation
import ExportIndex.Proofs.Declaration.Slots
import ExportIndex.Proofs.Segment.Origins

/-!
# Words of a declaration

The name and the type of a segment are made of its tokens, so their words are told by the places that
the characters of the tokens come from.  Two word characters come together where they stand side by
side in the text, and besides only where nothing but comments inside brackets is between them.

* `Written` gives the tokens of a name and a type their places; if no comment inside brackets comes
  between word characters, the words of both are words of the segment.
* `Holds.written` — every text that gives a name and a type writes both.
* `scan_written` — the segments of a declaration that is found write it.
-/

namespace ExportIndex
namespace Declaration

open Comment (outside)
open Segment (Traces Spaced textOf)
open Text (isWordChar)

/-- The segment, which begins at the given place of a text, writes the name and the type: the name is its
last token and the type is made of those before it. -/
structure Written (place : Nat) (segment : List Char) (name : String) (type : CType) : Prop where
  /-- Every character of the tokens that is no blank has its place. -/
  tokens : ∃ fragments last, Traces (outside place segment) (fragments ++ [last]) ∧
    name = textOf last ∧ type.full = CType.join (fragments.map textOf)
  /-- If no comment inside brackets comes between word characters, no word is put together of several. -/
  words (hspaced : Spaced (outside place segment)) (word : List Char)
    (hword : ∀ c ∈ word, isWordChar c = true)
    (hpiece : word <:+: name.toList ∨ word <:+: type.full.toList) : word <:+: segment

/-- The slots of a list with their places, when the first one begins at the given place. -/
def placed (place : Nat) : List (List Char) → List (Nat × List Char)
  | [] => []
  | slot :: slots => (place, slot) :: placed (place + slot.length + 1) slots

/-- The head and the slots between the two places of a text write the declaration, unless a list stands
for no parameters. -/
def WrittenIn (text : List Char) (start finish : Nat) (declaration : Declaration) : Prop :=
  ∃ head slots, text.drop start =
      head ++ '(' :: ([','].intercalate slots ++ ')' :: text.drop finish) ∧
    Written start head declaration.name declaration.returnType ∧
    (declaration.parameters = [] ∨
      List.Forall₂ (fun slot parameter => Written slot.1 slot.2 parameter.name parameter.type)
        (placed (start + head.length + 1) slots) declaration.parameters)

/-! ### Words of joined texts -/

theorem prefix_of_prefix_append_cons {α : Type} {word front back : List α} {x : α} (hx : x ∉ word)
    (h : word <+: front ++ x :: back) : word <+: front := by
  rcases List.prefix_or_prefix_of_prefix h (List.prefix_append front _) with hword | ⟨rest, rfl⟩
  · exact hword
  · rw [List.prefix_append_right_inj, List.prefix_cons_iff] at h
    rcases h with rfl | ⟨more, rfl, -⟩
    · simp
    · exact absurd (by simp) hx

/-- A word lies on one side of a character that it does not have. -/
theorem infix_of_infix_append_cons {α : Type} {word front back : List α} {x : α} (hx : x ∉ word)
    (h : word <:+: front ++ x :: back) : word <:+: front ∨ word <:+: back := by
  induction front with
  | nil =>
      rcases List.infix_cons_iff.1 h with hfirst | hback
      · have hnone : word <+: [] := prefix_of_prefix_append_cons hx hfirst
        exact .inl hnone.isInfix
      · exact .inr hback
  | cons y front ih =>
      rcases List.infix_cons_iff.1 h with hfirst | hmore
      · have hfront : word <+: y :: front := prefix_of_prefix_append_cons hx hfirst
        exact .inl hfront.isInfix
      · exact (ih hmore).imp_left fun hfront => List.infix_cons_iff.2 (.inr hfront)

/-- A word of joined texts is a word of one of them. -/
theorem exists_infix_of_join {texts : List String} {word : List Char} (hne : word ≠ [])
    (hspace : ' ' ∉ word) (h : word <:+: (CType.join texts).toList) :
    ∃ text ∈ texts, word <:+: text.toList := by
  induction texts with
  | nil => exact absurd (List.infix_nil.1 h) hne
  | cons text texts ih =>
      by_cases hlast : texts = []
      · subst hlast
        exact ⟨text, List.mem_cons_self, by simpa [CType.join] using h⟩
      · rw [CType.join_cons hlast, String.toList_append, String.toList_append, List.append_assoc] at h
        rcases infix_of_infix_append_cons hspace h with hfirst | hmore
        · exact ⟨text, List.mem_cons_self, hfirst⟩
        · obtain ⟨other, hother, hpiece⟩ := ih hmore
          exact ⟨other, List.mem_cons_of_mem text hother, hpiece⟩

/-! ### Segments and declarations -/

variable {part : Part} {name : String} {type : CType}

/-- A text that gives a name and a type writes both. -/
theorem Holds.written {segment : List Char} (h : Holds part segment name type) (place : Nat) :
    Written place segment name type := by
  obtain ⟨s, hrun, -, hnamed⟩ := h
  obtain ⟨fragments, hsplit, htype⟩ := exists_of_namedType (hnamed .unnamedFunction)
  obtain ⟨tokens, htraces, htokens⟩ := Segment.exists_traces_of_run hrun place
  rw [hsplit, List.reverse_cons] at htokens
  obtain ⟨traced, last, rfl, hfragments, hlast⟩ := List.map_eq_append_iff.1 htokens.symm
  obtain ⟨last, rfl, rfl⟩ := List.map_eq_singleton_iff.1 hlast
  have hfull : type.full = CType.join (traced.map textOf) := by
    rw [(CType.of_classify? htype).1, hfragments]
  refine ⟨⟨traced, last, htraces, rfl, hfull⟩, fun hspaced word hword hpiece => ?_⟩
  by_cases hne : word = []
  · rw [hne]
    exact List.nil_infix
  · have hspace : ' ' ∉ word := fun hmem => absurd (hword ' ' hmem) (by decide)
    rcases hpiece with hname | htype
    · exact htraces.infix_of_spaced hspaced (by simp) hword hname
    · rw [hfull] at htype
      obtain ⟨text, htext, hpiece⟩ := exists_infix_of_join hne hspace htype
      obtain ⟨token, htoken, rfl⟩ := List.mem_map.1 htext
      exact htraces.infix_of_spaced hspaced (by simp [htoken]) hword hpiece

theorem HoldsEach.written {slots : List (List Char)} {parameters : List Parameter}
    (h : HoldsEach slots parameters) (place : Nat) :
    List.Forall₂ (fun slot parameter => Written slot.1 slot.2 parameter.name parameter.type)
      (placed place slots) parameters := by
  induction h generalizing place with
  | nil => exact .nil
  | cons hslot _ ih => exact .cons (hslot.written place) (ih _)

/-- The segments of a declaration that is found write it: two word characters come together where they
stand side by side in the text, and besides only where nothing but comments inside brackets is between
them. -/
theorem scan_written {text : List Char} {start line finish : Nat} {declaration : Declaration}
    (h : scan text start line = .ok (declaration, finish)) :
    WrittenIn text start finish declaration := by
  obtain ⟨head, slots, htext, hhead, listed, hlist, hparameters⟩ := exists_parts_of_scan h
  refine ⟨head, slots, htext, hhead.written start, ?_⟩
  rw [hparameters]
  cases hlist with
  | blank => exact .inl (ite_self [])
  | named _ hholds =>
      by_cases hvoid : Parameter.isVoidList listed = true
      · exact .inl (if_pos hvoid)
      · rw [if_neg hvoid]
        exact .inr (hholds.written _)

/-- In `T<a b>f(int/**/x)` the comment keeps the type and the name apart. -/
theorem scan_written_comment :
    scan "T<a b>f(int/**/x)".toList 0 1 =
        .ok (⟨"f", 1, ⟨"T<a b>", "T<a b>", 0, .none, .empty⟩,
          [⟨"x", ⟨"int", "int", 0, .none, .empty⟩⟩]⟩, 17) ∧
      WrittenIn "T<a b>f(int/**/x)".toList 0 17 ⟨"f", 1, ⟨"T<a b>", "T<a b>", 0, .none, .empty⟩,
        [⟨"x", ⟨"int", "int", 0, .none, .empty⟩⟩]⟩ := by
  have hscan : scan "T<a b>f(int/**/x)".toList 0 1 =
      .ok (⟨"f", 1, ⟨"T<a b>", "T<a b>", 0, .none, .empty⟩,
        [⟨"x", ⟨"int", "int", 0, .none, .empty⟩⟩]⟩, 17) := by
    decide +kernel
  exact ⟨hscan, scan_written hscan⟩

/-- In `T<unsigned/**/int> f()` the comment does not keep the words apart: the type has a word that the
text does not have. -/
theorem scan_fused :
    ∃ type : CType, scan "T<unsigned/**/int> f()".toList 0 1 = .ok (⟨"f", 1, type, []⟩, 22) ∧
      "unsignedint".toList.all isWordChar = true ∧
      "unsignedint".toList <:+: type.full.toList ∧
      ¬"unsignedint".toList <:+: "T<unsigned/**/int> f()".toList := by
  refine ⟨⟨"T<unsignedint>", "T<unsignedint>", 0, .none, .empty⟩, ?_, ?_, ?_, ?_⟩
  · decide +kernel
  · decide +kernel
  · exact ⟨['T', '<'], ['>'], rfl⟩
  · decide +kernel

end Declaration
end ExportIndex
