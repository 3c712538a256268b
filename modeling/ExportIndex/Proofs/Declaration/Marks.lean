import Mathlib.Data.List.DropRight
import ExportIndex.Proofs.CType.Conservation
import ExportIndex.Proofs.Segment.Marks
import ExportIndex.Proofs.Declaration.Delimiters

/-!
# The marks of a declaration

Stars and ampersands can be counted in the text of a segment, without its tokens or the fragments of
its type.

* `typePositions` are the characters of a segment before its name, `bare` a token without the markers
  it ends in, and `Counts` says that a type is what counting in the text gives.
* `core_spell`, `count_marks_spell` — of a piece that ends in a run of markers, exactly these are
  stripped off.
* `Holds.counted` — a segment with nothing glued to its markers gives a type that is counted right.
* `scan_counts` — so do the head and the slots of a declaration that is found.
-/

namespace ExportIndex
namespace Declaration

open CType (Fragment coresOf marksOf)
open Segment (HasRun IsMarker MarkersEnd Position Settled blocks openBrackets pieces spell uncommented)
open Text (isBlank)

/-! ### Counting in a text -/

/-- The characters of the pieces before the last one. -/
def typePositions (text : List Char) : List Position :=
  (blocks text).dropLast.flatten

/-- The given character, outside all brackets. -/
def stands (c : Char) (p : Position) : Bool :=
  p.char == c && p.depth == 0

/-- A token without the markers it ends in. -/
def bare (token : String) : String :=
  String.ofList (token.toList.rdropWhile fun c => decide (IsMarker c))

/-- The type of a text is what counting gives: the stars and the ampersands outside all brackets, before
the name, are its marks, and the tokens there, without the markers they end in, its base type. -/
structure Counts (text : List Char) (type : CType) : Prop where
  stars : type.pointerDepth = (typePositions text).countP (stands '*')
  ampersands : type.reference = .none ↔ ∀ p ∈ typePositions text, stands '&' p = false
  base : type.base = " ".intercalate
    (((pieces text).dropLast.map bare).filter fun token => token ≠ "" ∧ token ≠ "const")

/-- The segment spells the name and the type, and the type is what counting gives if nothing is glued
to the markers. -/
def Counted (part : Part) (segment : List Char) (name : String) (type : CType) : Prop :=
  Spells part segment name type ∧
    (MarkersEnd (uncommented segment) → Counts (uncommented segment) type)

/-! ### The marks of a piece -/

section Block

variable {block body run : List Position} (h : HasRun block body run)

include h

theorem toList_spell : (spell block).toList = body.map Position.char ++ run.map Position.char := by
  rw [spell, String.toList_ofList, h.eq_append, List.map_append]

theorem isMarker_of_mem_run : ∀ c ∈ run.map Position.char, IsMarker c := by
  intro c hc
  obtain ⟨p, hp, rfl⟩ := List.mem_map.1 hc
  exact (Position.isMarker_iff.1 (h.marked p hp)).1

variable (hlast : ∀ p ∈ body.getLast?, ¬IsMarker p.char ∧ isBlank p.char = false)

include hlast

/-- The core of a piece is its body. -/
theorem core_spell : (Fragment.ofString (spell block)).core.toList = body.map Position.char := by
  have hstrips := Fragment.strips_ofString (spell block)
  rw [toList_spell h] at hstrips
  refine hstrips.core_eq (isMarker_of_mem_run h) ?_ ?_
  · rw [List.head?_map]
    intro hhead
    obtain ⟨p, hp, hstar⟩ := Option.map_eq_some_iff.1 hhead
    exact h.head p hp (.inl hstar)
  · rw [List.getLast?_map]
    intro c hc
    obtain ⟨p, hp, rfl⟩ := Option.map_eq_some_iff.1 hc
    exact hlast p hp

theorem bare_spell : (bare (spell block)).toList = body.map Position.char := by
  rw [bare, String.toList_ofList, toList_spell h, List.rdropWhile, List.reverse_append,
    List.dropWhile_append_of_pos, ← List.rdropWhile, List.rdropWhile_eq_self_iff]
  · intro hne
    rw [List.getLast_map, decide_eq_true_eq]
    exact (hlast _ (List.getLast?_eq_some_getLast (by simpa using hne))).1
  · simpa using isMarker_of_mem_run h

/-- The marks of a piece are its markers outside all brackets. -/
theorem count_marks_spell {c : Char} (hc : IsMarker c) :
    (Fragment.ofString (spell block)).marks.count c = block.countP (stands c) := by
  have hbody : body.countP (stands c) = 0 := by
    rw [List.countP_eq_zero]
    intro p hp hstands
    simp only [stands, Bool.and_eq_true, beq_iff_eq] at hstands
    have hunmarked := h.unmarked p hp
    rw [Position.isMarker_iff.2 ⟨hstands.1 ▸ hc, hstands.2⟩] at hunmarked
    contradiction
  have hrun : run.countP (stands c) = (run.map Position.char).count c := by
    rw [List.count, List.countP_map]
    refine List.countP_congr fun p hp => ?_
    simp [stands, (Position.isMarker_iff.1 (h.marked p hp)).2]
  have hblock : block.countP (stands c) = (run.map Position.char).count c := by
    rw [h.eq_append, List.countP_append, hbody, hrun, Nat.zero_add]
  have hcount := (Fragment.strips_ofString (spell block)).count (CType.isBlank_of_mark hc)
  rw [core_spell h hlast, toList_spell h, List.count_append] at hcount
  omega

end Block

/-! ### The marks of a type -/

section Blocks

variable {parts : List (List Position)} (h : ∀ block ∈ parts, Settled block)

include h

/-- The marks of the pieces are the markers outside all brackets. -/
theorem count_marksOf {c : Char} (hc : IsMarker c) :
    (marksOf (parts.map spell)).count c = parts.flatten.countP (stands c) := by
  induction parts with
  | nil => rfl
  | cons block parts ih =>
      obtain ⟨⟨body, run, hrun, hlast⟩, hmore⟩ := List.forall_mem_cons.1 h
      rw [List.map_cons, marksOf, List.flatMap_cons, List.count_append, ← marksOf, ih hmore,
        count_marks_spell hrun hlast hc, List.flatten_cons, List.countP_append]

/-- The cores that make the base type are the bare pieces. -/
theorem coresOf_spell : coresOf (parts.map spell) =
    ((parts.map spell).map bare).filter fun token => token ≠ "" ∧ token ≠ "const" := by
  have hcores : (parts.map spell).map bare =
      ((parts.map spell).map Fragment.ofString).map Fragment.core := by
    rw [List.map_map, List.map_map, List.map_map]
    refine List.map_congr_left fun block hblock => ?_
    obtain ⟨body, run, hrun, hlast⟩ := h block hblock
    rw [← String.toList_inj]
    exact (bare_spell hrun hlast).trans (core_spell hrun hlast).symm
  rw [hcores, List.filter_map, coresOf]
  congr 1
  refine List.filter_congr fun fragment _ => ?_
  rw [Bool.eq_iff_iff, Fragment.kept_iff]
  simp

end Blocks

/-! ### Segments and declarations -/

variable {part : Part} {name : String} {type : CType}

/-- The brackets of a segment are closed. -/
theorem IsSegment.openBrackets_eq_zero {segment : List Char} (h : IsSegment part segment) :
    openBrackets (uncommented segment) = 0 := by
  obtain ⟨s, hrun, htop⟩ := h
  exact (Segment.Matches.empty.of_run hrun).brackets.openBrackets_eq.trans htop

/-- A segment with nothing glued to its markers gives a type that is counted right. -/
theorem Holds.counted {segment : List Char} (h : Holds part segment name type) :
    Counted part segment name type := by
  refine ⟨h.spells, fun hclear => ?_⟩
  have htop := h.spells.1.openBrackets_eq_zero
  obtain ⟨s, hrun, -, hnamed⟩ := h
  obtain ⟨fragments, htokens, htype⟩ := exists_of_namedType (hnamed .unnamedFunction)
  have hpieces : pieces (uncommented segment) = fragments.reverse ++ [name] := by
    rw [← Segment.flush_tokens_of_run hrun, htokens, List.reverse_cons]
  -- The fragments of the type are the pieces before the name.
  have hfragments : fragments.reverse = (blocks (uncommented segment)).dropLast.map spell := by
    rw [List.map_dropLast, ← Segment.pieces_eq_map, hpieces, List.dropLast_concat]
  have hsettled : ∀ block ∈ (blocks (uncommented segment)).dropLast, Settled block :=
    fun block hblock =>
      Segment.settled_of_mem_blocks hclear htop (List.dropLast_subset _ hblock)
  obtain ⟨-, hbase, hdepth, hreference⟩ := CType.of_classify?_marks htype
  rw [hfragments] at hbase hdepth hreference
  refine ⟨?_, ?_, ?_⟩
  · rw [hdepth, count_marksOf hsettled (.inl rfl)]
    rfl
  · rw [hreference, ← List.count_eq_zero, count_marksOf hsettled (.inr rfl), List.countP_eq_zero]
    simp only [Bool.not_eq_true]
    rfl
  · rw [hbase, coresOf_spell hsettled, ← hfragments, hpieces, List.dropLast_concat]
    rfl

/-- The types of a declaration that is found are what counting in the text gives: the type of the head,
and, if there are parameters, those of the slots between the separators of the list. -/
theorem scan_counts {text : List Char} {start line : Nat} {declaration : Declaration} {finish : Nat}
    (h : scan text start line = .ok (declaration, finish)) :
    ∃ opening closing, opening? text start = some opening ∧
      closing? text start opening = some closing ∧ finish = closing + 1 ∧
      Counted .head (text.extract start opening) declaration.name declaration.returnType ∧
      (declaration.parameters ≠ [] →
        List.Forall₂ (fun slot parameter => Counted .parameters slot parameter.name parameter.type)
          (slotsAt text start opening closing) declaration.parameters) := by
  obtain ⟨head, slots, rest, htext, ⟨hhead, listed, hlist, hparameters⟩, -, hfinish⟩ :=
    scan_eq_ok_iff_parts.1 h
  have hslots := hlist.isSegment
  have hlength := congrArg List.length htext
  simp only [List.length_drop, List.length_append, List.length_cons] at hlength
  refine ⟨_, _, opening?_eq htext hhead.spells.1 hslots, closing?_eq htext hhead.spells.1 hslots,
    by omega, ?_, ?_⟩
  · rw [extract_eq htext rfl]
    exact hhead.counted
  · rw [slotsAt_eq htext hhead.spells.1 hslots hlist.ne_nil, hparameters]
    intro hany
    rw [ne_eq, ite_eq_left_iff, not_forall] at hany
    obtain ⟨hvoid, hlisted⟩ := hany
    rw [if_neg hvoid]
    cases hlist with
    | blank => contradiction
    | named _ hholds => exact hholds.imp fun _ _ hslot => hslot.counted

/-- Marks in comments and in brackets are not counted, and `int&` is a name. -/
theorem scan_counts_comments :
    ∃ declaration,
      scan "char * /*&*/ *& f(T<a*&>*const /**/ * x, int& )".toList 0 1 = .ok (declaration, 47) ∧
      declaration.returnType.pointerDepth = 2 ∧
      declaration.parameters.map (·.type.base) = ["T<a*&>", ""] ∧
      Counts (uncommented "char * /*&*/ *& f".toList) declaration.returnType ∧
      List.Forall₂ (fun slot parameter => Counts (uncommented slot) parameter.type)
        ["T<a*&>*const /**/ * x".toList, " int& ".toList] declaration.parameters := by
  have hfound : ((scan "char * /*&*/ *& f(T<a*&>*const /**/ * x, int& )".toList 0 1).toOption.map
      fun found => (found.2, found.1.returnType.pointerDepth,
        found.1.parameters.map (·.type.base))) = some (47, 2, ["T<a*&>", ""]) := by
    decide +kernel
  cases hscan : scan "char * /*&*/ *& f(T<a*&>*const /**/ * x, int& )".toList 0 1 with
  | error error =>
      rw [hscan] at hfound
      contradiction
  | ok found =>
      obtain ⟨declaration, finish⟩ := found
      rw [hscan] at hfound
      obtain ⟨hfinish, hfound⟩ := Prod.mk.inj (Option.some.inj hfound)
      obtain ⟨hdepth, hbases⟩ := Prod.mk.inj hfound
      obtain rfl : finish = 47 := hfinish
      obtain ⟨opening, closing, hopening, -, hclosing, hhead, hslots⟩ := scan_counts hscan
      have hopens : opening? "char * /*&*/ *& f(T<a*&>*const /**/ * x, int& )".toList 0 = some 17 := by
        decide +kernel
      obtain rfl := Option.some.inj (hopens.symm.trans hopening)
      obtain rfl : closing = 46 := (Nat.succ.inj hclosing).symm
      have hany : declaration.parameters ≠ [] := by
        intro hnone
        rw [hnone] at hbases
        contradiction
      have hstretches : slotsAt "char * /*&*/ *& f(T<a*&>*const /**/ * x, int& )".toList 0 17 46 =
          ["T<a*&>*const /**/ * x".toList, " int& ".toList] := by
        decide +kernel
      have hclear : ∀ slot ∈ ["T<a*&>*const /**/ * x".toList, " int& ".toList],
          MarkersEnd (uncommented slot) := by
        decide +kernel
      refine ⟨declaration, rfl, hdepth, hbases, hhead.2 (by decide +kernel), ?_⟩
      have hcounted := hslots hany
      rw [hstretches] at hcounted
      rw [List.forall₂_iff_get] at hcounted ⊢
      exact ⟨hcounted.1, fun i hi hi' => (hcounted.2 i hi hi').2 (hclear _ (List.get_mem _ _))⟩

end Declaration
end ExportIndex
