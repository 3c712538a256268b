import ExportIndex.Proofs.Declaration.Slots
import ExportIndex.Proofs.Segment.Brackets

/-!
# Parameter lists put together

A slot is read from an empty segment, whatever stands before it in the list, so lists can be put
together with a comma.

* `signature` is a head with a parameter list behind it, and `ScansWhole` says that a scan finds a
  declaration in a text and goes through to its end.
* `holds_of_scansWhole` — what stands before an empty list is the head, as no list ends with an opening
  parenthesis (`Lists.getLast?_ne`).
* `exists_slots_of_scansWhole` and `scansWhole_of_parts` — behind a given head a declaration is found
  exactly in the lists whose slots give its parameters.
* `scan_composed` — the parameters of two lists with a comma between are those of the one and then those
  of the other.
-/

namespace ExportIndex
namespace Segment

/-- Behind an opening parenthesis a bracket is open, and in a comment there is none at the end. -/
theorem Run.getLast?_ne {part : Part} {s s' : Segment} {text : List Char} (h : Run part s text s')
    (htop : s'.nesting = 0) : text.getLast? ≠ some '(' := by
  rcases h.last with ⟨rfl, -⟩ | ⟨before, last, s₁, rfl, -, hmove⟩
  · simp
  · cases hmove with
    | char hadvance =>
        rw [List.getLast?_concat]
        intro hc
        obtain rfl := Option.some.inj hc
        exact hadvance.of_opening.2 htop
    | @comment body hbody =>
        have hne : body ≠ [] := by
          rintro rfl
          contradiction
        rw [← List.singleton_append, ← List.append_assoc, List.getLast?_append_of_ne_nil _ hne]
        rcases hbody.getLast? with hlast | hlast
        · simp [hlast]
        · simp [hlast]

end Segment

namespace Declaration

/-- A head with a parameter list behind it. -/
def signature (head list : List Char) : List Char :=
  head ++ '(' :: (list ++ [')'])

/-- A scan from the start of the text finds the declaration and goes through to the end. -/
def ScansWhole (text : List Char) (line : Nat) (declaration : Declaration) : Prop :=
  scan text 0 line = .ok (declaration, text.length)

instance (text : List Char) (line : Nat) (declaration : Declaration) :
    Decidable (ScansWhole text line declaration) :=
  inferInstanceAs (Decidable (_ = _))

variable {head list : List Char} {slots : List (List Char)} {line : Nat} {declaration : Declaration}

/-- No parameter list ends with an opening parenthesis before the one that closes it. -/
theorem Lists.getLast?_ne {slots : List (List Char)} {parameters : List Parameter}
    (h : Lists slots parameters) : ([','].intercalate slots).getLast? ≠ some '(' := by
  cases h with
  | blank hrun htop _ => simpa using hrun.getLast?_ne htop
  | named hne hholds =>
      clear hne
      induction hholds with
      | nil => simp
      | @cons slot _ slots _ hslot _ ih =>
          obtain ⟨s, hrun, htop, -⟩ := hslot
          by_cases hlast : slots = []
          · simpa [hlast] using hrun.getLast?_ne htop
          · rw [List.intercalate_cons_of_ne_nil hlast]
            by_cases hempty : [','].intercalate slots = []
            · simp [hempty]
            · rw [List.getLast?_append_of_ne_nil _ hempty]
              exact ih

/-- A declaration that goes through to the end of the text is found in a signature. -/
theorem exists_signature_of_scansWhole {text : List Char} (h : ScansWhole text line declaration) :
    ∃ head slots, text = signature head ([','].intercalate slots) ∧ Parts declaration head slots := by
  obtain ⟨head, slots, rest, htext, hparts, -, hfinish⟩ := scan_eq_ok_iff_parts.1 h
  obtain rfl : rest = [] := List.length_eq_zero_iff.1 (Nat.add_eq_left.1 hfinish)
  exact ⟨head, slots, htext, hparts⟩

theorem scansWhole_of_parts (h : Parts declaration head slots) :
    ScansWhole (signature head ([','].intercalate slots)) declaration.line declaration :=
  scan_eq_ok_iff_parts.2 ⟨head, slots, [], rfl, h, rfl, rfl⟩

/-- What stands before an empty list is the head. -/
theorem holds_of_scansWhole (h : ScansWhole (signature head []) line declaration) :
    Holds .head head declaration.name declaration.returnType := by
  obtain ⟨head', slots, htext, hhead, listed, hlist, -⟩ := exists_signature_of_scansWhole h
  -- Otherwise the list would end with the last opening parenthesis.
  have hclosed : head ++ ['('] ++ [')'] = head' ++ '(' :: [','].intercalate slots ++ [')'] := by
    simpa [signature] using htext
  have hopening := List.append_cancel_right hclosed
  have hnone : [','].intercalate slots = [] := by
    by_contra hne
    have hlast := congrArg List.getLast? hopening
    rw [List.getLast?_concat, List.append_cons, List.getLast?_append_of_ne_nil _ hne] at hlast
    exact hlist.getLast?_ne hlast.symm
  rw [hnone] at hopening
  rwa [List.append_cancel_right hopening]

/-- Behind a given head a declaration is found in slots that give its parameters. -/
theorem exists_slots_of_scansWhole {name : String} {type : CType} (hhead : Holds .head head name type)
    (h : ScansWhole (signature head list) line declaration) :
    ∃ slots, list = [','].intercalate slots ∧ Parts declaration head slots := by
  obtain ⟨head', slots, htext, hparts⟩ := exists_signature_of_scansWhole h
  obtain ⟨rfl, hlist⟩ := eq_of_opening hhead hparts.head htext
  exact ⟨slots, List.append_cancel_right hlist, hparts⟩

/-- The slots of a declaration with parameters give them. -/
theorem Parts.holdsEach (h : Parts declaration head slots) (hne : declaration.parameters ≠ []) :
    slots ≠ [] ∧ HoldsEach slots declaration.parameters := by
  obtain ⟨-, listed, hlist, hparameters⟩ := h
  rw [hparameters] at hne ⊢
  split at hne
  · contradiction
  · rename_i hvoid
    rw [if_neg hvoid]
    cases hlist with
    | blank => contradiction
    | named hslots hholds => exact ⟨hslots, hholds⟩

theorem intercalate_append {slots more : List (List Char)} (hslots : slots ≠ []) (hmore : more ≠ []) :
    [','].intercalate (slots ++ more) = [','].intercalate slots ++ ',' :: [','].intercalate more := by
  induction slots with
  | nil => contradiction
  | cons slot slots ih =>
      by_cases hlast : slots = []
      · simp [hlast, List.intercalate_cons_of_ne_nil hmore]
      · rw [List.cons_append, List.intercalate_cons_of_ne_nil (by simp [hlast]), ih hlast,
          List.intercalate_cons_of_ne_nil hlast, List.append_assoc _ _ (',' :: _)]

/-- The lone word `void` does not stand for no parameters where a comma has parameters on both sides. -/
theorem isVoidList_append {parameters more : List Parameter} (hparameters : parameters ≠ [])
    (hmore : more ≠ []) : Parameter.isVoidList (parameters ++ more) = false := by
  obtain ⟨first, parameters, rfl⟩ := List.exists_cons_of_ne_nil hparameters
  obtain ⟨second, more, rfl⟩ := List.exists_cons_of_ne_nil hmore
  cases parameters <;> rfl

/-- Two lists of parameters behind the same head, with a comma between, are found as the parameters of
the one and then those of the other. -/
theorem scan_composed {first second : List Char} {bare one other : Declaration}
    (hbare : ScansWhole (signature head []) line bare)
    (hone : ScansWhole (signature head first) line one)
    (hother : ScansWhole (signature head second) line other)
    (hfirst : one.parameters ≠ []) (hsecond : other.parameters ≠ []) :
    ∃ both, ScansWhole (signature head (first ++ ',' :: second)) line both ∧
      both.parameters = one.parameters ++ other.parameters ∧
      ∀ declaration ∈ [bare, one, other],
        both.name = declaration.name ∧ both.returnType = declaration.returnType := by
  have hhead := holds_of_scansWhole hbare
  obtain ⟨slots, rfl, hparts⟩ := exists_slots_of_scansWhole hhead hone
  obtain ⟨more, rfl, hparts'⟩ := exists_slots_of_scansWhole hhead hother
  obtain ⟨hslots, hholds⟩ := hparts.holdsEach hfirst
  obtain ⟨hmore, hholds'⟩ := hparts'.holdsEach hsecond
  have hboth : Parts ⟨bare.name, line, bare.returnType, one.parameters ++ other.parameters⟩ head
      (slots ++ more) := by
    refine ⟨hhead, one.parameters ++ other.parameters, .named (by simp [hslots]) ?_, ?_⟩
    · exact List.rel_append hholds hholds'
    · rw [isVoidList_append hfirst hsecond]
      rfl
  refine ⟨⟨bare.name, line, bare.returnType, one.parameters ++ other.parameters⟩, ?_, rfl, ?_⟩
  · rw [← intercalate_append hslots hmore]
    exact scansWhole_of_parts hboth
  · simpa using ⟨hhead.unique hparts.head, hhead.unique hparts'.head⟩

/-- The tag of the first list stays with its parameter, and the comma in brackets separates nothing. -/
theorem scan_composed_tagged :
    ∃ both, ScansWhole "int f(/** out */ T<a,b> *p,char c, void v)".toList 3 both ∧
      both.parameters = [⟨"p", ⟨"T<a,b>*", "T<a,b>", 1, .none, .ofList ["out"]⟩⟩,
        ⟨"c", ⟨"char", "char", 0, .none, .empty⟩⟩, ⟨"v", ⟨"void", "void", 0, .none, .empty⟩⟩] := by
  have hbare : ScansWhole (signature "int f".toList []) 3
      ⟨"f", 3, ⟨"int", "int", 0, .none, .empty⟩, []⟩ := by
    decide +kernel
  have hone : ScansWhole (signature "int f".toList "/** out */ T<a,b> *p".toList) 3
      ⟨"f", 3, ⟨"int", "int", 0, .none, .empty⟩,
        [⟨"p", ⟨"T<a,b>*", "T<a,b>", 1, .none, .ofList ["out"]⟩⟩]⟩ := by
    decide +kernel
  have hother : ScansWhole (signature "int f".toList "char c, void v".toList) 3
      ⟨"f", 3, ⟨"int", "int", 0, .none, .empty⟩,
        [⟨"c", ⟨"char", "char", 0, .none, .empty⟩⟩, ⟨"v", ⟨"void", "void", 0, .none, .empty⟩⟩]⟩ := by
    decide +kernel
  obtain ⟨both, hboth, hparameters, -⟩ :=
    scan_composed hbare hone hother (List.cons_ne_nil _ _) (List.cons_ne_nil _ _)
  exact ⟨both, hboth, hparameters⟩

end Declaration
end ExportIndex
