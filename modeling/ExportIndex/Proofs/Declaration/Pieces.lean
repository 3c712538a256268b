import ExportIndex.Proofs.Declaration.Slots
import ExportIndex.Proofs.Segment.Pieces

/-!
# Declarations as pieces of a text

The name and the type that a segment gives can be read off the pieces of its text.

* `IsSegment` says that a text is read through to a point outside all brackets, `Spells` that its last
  piece is the name and the pieces before it are the type.
* `Holds.spells` — a text that gives a name and a type spells both.
* `scan_pieces` — the tokens of every segment are the pieces of its text, and the segments of a
  declaration that is found spell it.
-/

namespace ExportIndex
namespace Declaration

open Segment (Run Delimits pieces uncommented)

variable {part : Part} {s : Segment}

/-- A text that is read through as a segment, up to a point outside all brackets. -/
def IsSegment (part : Part) (text : List Char) : Prop :=
  ∃ s, Run part .empty text s ∧ s.nesting = 0

/-- The last piece of a segment is the name, and the pieces before it are the type. -/
def Spells (part : Part) (text : List Char) (name : String) (type : CType) : Prop :=
  IsSegment part text ∧ ∃ fragments,
    pieces (uncommented text) = fragments ++ [name] ∧ type.full = " ".intercalate fragments

/-- The text is a head and the slots of a parameter list that spell the declaration, with `rest` behind
the list.  A list with one slot stands for no parameters if the slot has no pieces or is the lone word
`void`. -/
def SpelledBy (declaration : Declaration) (text rest : List Char) : Prop :=
  ∃ head slots, text = head ++ '(' :: ([','].intercalate slots ++ ')' :: rest) ∧
    Spells .head head declaration.name declaration.returnType ∧
    (List.Forall₂ (fun slot parameter => Spells .parameters slot parameter.name parameter.type)
        slots declaration.parameters ∨
      declaration.parameters = [] ∧ ∃ slot, slots = [slot] ∧ IsSegment .parameters slot ∧
        (pieces (uncommented slot) = [] ∨ pieces (uncommented slot) = ["void"]))

/-- A complete segment with a name and a type spells both. -/
theorem spells_of_run {text : List Char} (hrun : Run part .empty text s) (htop : s.nesting = 0)
    {unnamed : Flaw} {name : String} {type : CType}
    (hnamed : namedType unnamed s = .ok (name, type)) : Spells part text name type := by
  obtain ⟨fragments, htokens, htype⟩ := exists_of_namedType hnamed
  refine ⟨⟨s, hrun, htop⟩, fragments.reverse, ?_, (CType.of_classify? htype).1⟩
  rw [← Segment.flush_tokens_of_run hrun, htokens, List.reverse_cons]

theorem Holds.spells {text : List Char} {name : String} {type : CType} (h : Holds part text name type) :
    Spells part text name type := by
  obtain ⟨s, hrun, htop, hnamed⟩ := h
  exact spells_of_run hrun htop (hnamed .unnamedFunction)

theorem HoldsEach.spells {slots : List (List Char)} {parameters : List Parameter}
    (h : HoldsEach slots parameters) :
    List.Forall₂ (fun slot parameter => Spells .parameters slot parameter.name parameter.type)
      slots parameters :=
  h.imp fun _ _ hholds => hholds.spells

/-- Pieces, joined by spaces, make the empty text only if there are none. -/
theorem eq_nil_of_intercalate {text : List Char} {fragments : List String} {last : String}
    (hpieces : pieces text = fragments ++ [last]) (h : " ".intercalate fragments = "") :
    fragments = [] := by
  cases fragments with
  | nil => rfl
  | cons fragment fragments =>
      have hne : fragment ≠ "" := by
        apply Segment.ne_empty_of_mem_pieces
        rw [hpieces]
        exact List.mem_cons_self
      have hempty : fragment = "" := by
        cases fragments with
        | nil => simpa using h
        | cons second fragments =>
            rw [String.intercalate_cons_cons, String.append_assoc, String.append_eq_empty_iff] at h
            exact h.1
      contradiction

/-- The list that stands for no parameters has one slot, which spells `void` without a type. -/
theorem pieces_of_isVoidList {slots : List (List Char)} {parameters : List Parameter}
    (hspells : List.Forall₂ (fun slot parameter =>
      Spells .parameters slot parameter.name parameter.type) slots parameters)
    (hvoid : Parameter.isVoidList parameters = true) :
    ∃ slot, slots = [slot] ∧ IsSegment .parameters slot ∧ pieces (uncommented slot) = ["void"] := by
  cases hspells with
  | nil => contradiction
  | @cons slot only slots parameters hslot hmore =>
      cases hmore with
      | cons => contradiction
      | nil =>
          obtain ⟨hsegment, fragments, hpieces, hfull⟩ := hslot
          simp only [Parameter.isVoidList, Bool.and_eq_true, beq_iff_eq] at hvoid
          obtain rfl : fragments = [] :=
            eq_nil_of_intercalate hpieces (hfull.symm.trans hvoid.2)
          exact ⟨slot, rfl, hsegment, by rw [hpieces, hvoid.1]; rfl⟩

/-- The head and the slots of a declaration that is read spell it. -/
theorem spells_of_read {line : Nat} {r : Reader} {declaration : Declaration}
    (h : (read line r).1 = .ok declaration) :
    SpelledBy declaration r.rest (read line r).2.rest := by
  obtain ⟨delimiter, parameters, hresult, hnamed, hlist, -, hkept⟩ := exists_of_read_ok h
  obtain ⟨head, c, hrest, hrun, hdelimits⟩ := Segment.exists_run_of_ok hresult
  obtain ⟨slots, hslots, hlists, -⟩ := exists_slots_of_readParameters (congrArg Prod.fst hlist)
  rw [hlist] at hslots
  refine ⟨head, slots, ?_, spells_of_run hrun hdelimits.nesting hnamed, ?_⟩
  · cases hdelimits with
    | opening => rw [hrest, hslots]
    | comma hpart => contradiction
    | closing hpart => contradiction
  · rw [hkept]
    cases hlists with
    | @blank slot s hrun htop hempty =>
        have hpieces : pieces (uncommented slot) = [] := by
          rw [← Segment.flush_tokens_of_run hrun, (Segment.isEmpty_iff_flush_tokens s).1 hempty]
          rfl
        exact .inr ⟨ite_self [], slot, rfl, ⟨s, hrun, htop⟩, .inl hpieces⟩
    | named _ hholds =>
        by_cases hvoid : Parameter.isVoidList parameters = true
        · obtain ⟨slot, hslot, hsegment, hpieces⟩ := pieces_of_isVoidList hholds.spells hvoid
          rw [if_pos hvoid]
          exact .inr ⟨rfl, slot, hslot, hsegment, .inr hpieces⟩
        · rw [if_neg hvoid]
          exact .inl hholds.spells

/-- The tokens of a segment that is read to its delimiter are the pieces of its text.  In a declaration
that is found, the last piece of each segment is the name and the pieces before it are the type; an
empty list and the lone word `void` stand for no parameters. -/
theorem scan_pieces :
    (∀ (part : Part) (r : Reader) (delimiter : Delimiter),
      (Segment.read part .empty r).result = .ok delimiter →
        ∃ text c, r.rest = text ++ c :: (Segment.read part .empty r).reader.rest ∧
          Delimits part (Segment.read part .empty r).segment c delimiter ∧
          (Segment.read part .empty r).segment.flush.tokens.reverse = pieces (uncommented text)) ∧
    ∀ (text : List Char) (start line : Nat) (declaration : Declaration) (finish : Nat),
      scan text start line = .ok (declaration, finish) →
        SpelledBy declaration (text.drop start) (text.drop finish) := by
  constructor
  · intro part r delimiter hresult
    obtain ⟨text, c, hrest, hrun, hdelimits⟩ := Segment.exists_run_of_ok hresult
    exact ⟨text, c, hrest, hdelimits, Segment.flush_tokens_of_run hrun⟩
  · intro text start line declaration finish hscan
    obtain ⟨hread, hfinish⟩ := finish_add_length_rest hscan
    obtain ⟨head, slots, hrest, hspells⟩ := spells_of_read hread
    generalize (read line (.startAt text start)).2.rest = rest at hrest hfinish
    have htext : text.drop start = head ++ '(' :: ([','].intercalate slots ++ ')' :: rest) := hrest
    -- What is left behind the declaration is the text from its end on.
    have hsuffix : rest <:+ text := by
      refine .trans ?_ (List.drop_suffix start text)
      rw [htext]
      exact ⟨head ++ '(' :: ([','].intercalate slots ++ [')']), by simp⟩
    have hbehind : text.drop finish = rest := by
      rw [List.suffix_iff_eq_drop.1 hsuffix]
      congr 1
      omega
    refine ⟨head, slots, ?_, hspells⟩
    rw [hbehind, htext]

/-- In `char/**/*f(int,T<a /**/b>c)` the comments end tokens outside the brackets only. -/
theorem scan_pieces_comments :
    (∃ text c, "char/**/*f(int,T<a /**/b>c)".toList = text ++ c ::
        (Segment.read .head .empty (.startAt "char/**/*f(int,T<a /**/b>c)".toList 0)).reader.rest ∧
      Delimits .head
        (Segment.read .head .empty (.startAt "char/**/*f(int,T<a /**/b>c)".toList 0)).segment c .opening ∧
      (Segment.read .head .empty
        (.startAt "char/**/*f(int,T<a /**/b>c)".toList 0)).segment.flush.tokens.reverse =
          pieces (uncommented text)) ∧
    ∃ declaration finish,
      scan "char/**/*f(int,T<a /**/b>c)".toList 0 1 = .ok (declaration, finish) ∧
      declaration.parameters.map (·.type.full) = ["", "T<a b>"] ∧
      SpelledBy declaration ("char/**/*f(int,T<a /**/b>c)".toList.drop 0)
        ("char/**/*f(int,T<a /**/b>c)".toList.drop finish) := by
  constructor
  · exact scan_pieces.1 .head (.startAt "char/**/*f(int,T<a /**/b>c)".toList 0) .opening
      (by decide +kernel)
  · have hfull : ((scan "char/**/*f(int,T<a /**/b>c)".toList 0 1).toOption.map
        fun found => found.1.parameters.map (·.type.full)) = some ["", "T<a b>"] := by
      decide +kernel
    cases hscan : scan "char/**/*f(int,T<a /**/b>c)".toList 0 1 with
    | error error =>
        rw [hscan] at hfull
        contradiction
    | ok found =>
        obtain ⟨declaration, finish⟩ := found
        rw [hscan] at hfull
        injection hfull with hfull
        exact ⟨declaration, finish, rfl, hfull, scan_pieces.2 _ 0 1 declaration finish hscan⟩

end Declaration
end ExportIndex
