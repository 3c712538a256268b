import ExportIndex.Proofs.Declaration.Composition
import ExportIndex.Proofs.Declaration.Delimiters

/-!
# Heads and slots read alike

The head of a declaration and a slot of a parameter list are read by the same steps.  They differ in
their delimiters only, so a text without a delimiter of either is read alike in both places.

* `CommasInside` says that no comma of a text would end a slot.
* `Advance.slot` — a step in a head is a step in a slot unless it passes such a comma, and `Run.slot`
  carries this through a run.
* `Holds.slot` — what a head gives is what the same text gives as a slot.
* `scan_phases` — the name and the return type of a declaration are the name and the type of a parameter
  that is written like its head.
-/

namespace ExportIndex
namespace Segment

open Comment (outside plain Whole)

variable {s s' : Segment} {text : List Char}

/-- Every comma outside comments stands inside brackets. -/
def CommasInside (text : List Char) : Prop :=
  ∀ p ∈ outside 0 text, p.2 = ',' → ¬IsBalanced (plain (text.take p.1))

instance (text : List Char) : Decidable (CommasInside text) :=
  List.decidableBAll _ _

/-- A step in a head is a step in a slot, unless it passes a comma outside all brackets. -/
theorem Advance.slot {c : Char} (h : Advance .head s c s') (hcomma : c = ',' → s.nesting ≠ 0) :
    Advance .parameters s c s' := by
  cases h with
  | blank hblank => exact .blank hblank
  | openAngle => exact .openAngle
  | closeAngle hangle => exact .closeAngle hangle
  | openParen _ => exact .openParen fun hhead => nomatch hhead.1
  | closeParen hparen => exact .closeParen hparen
  | marker hmarker htop => exact .marker hmarker htop
  | ordinary hblank hplain _ hmarker =>
      exact .ordinary hblank hplain (fun hc htop => hcomma hc htop.2) hmarker

/-- A run through a head is a run through a slot; `passed` is the text before it. -/
theorem Run.slot (h : Run .head s text s') {passed : List Char} (hpassed : Whole passed)
    (hbrackets : Brackets s (plain passed))
    (hcommas : ∀ p ∈ outside passed.length text, p.2 = ',' →
      ¬IsBalanced (plain ((passed ++ text).take p.1))) : Run .parameters s text s' := by
  induction h generalizing passed with
  | refl s => exact .refl s
  | @move s s₁ s' move rest hmove _ ih =>
      have hmoved : Move .parameters s move s₁ := by
        cases hmove with
        | comment hbody => exact .comment hbody
        | char hadvance =>
            refine .char (hadvance.slot ?_)
            rintro rfl htop
            apply hcommas (passed.length, ',')
            · rw [List.singleton_append, Comment.outside_cons _ (by decide)]
              exact List.mem_cons_self
            · rfl
            · rw [List.take_left]
              exact hbrackets.balanced_iff.2 htop
      refine .move hmoved (ih (hpassed.append hmove.whole) ?_ ?_)
      · rw [hpassed.plain_append]
        exact hbrackets.of_run hmove.run
      · intro p hmem
        rw [List.append_assoc]
        apply hcommas p
        rw [hmove.whole, List.mem_append]
        rw [List.length_append] at hmem
        exact .inr hmem

end Segment

namespace Declaration

open Segment (CommasInside pieces uncommented)

/-- What a head gives is what the same text gives as a slot. -/
theorem Holds.slot {text : List Char} {name : String} {type : CType} (h : Holds .head text name type)
    (hcommas : CommasInside text) : Holds .parameters text name type := by
  obtain ⟨s, hrun, htop, hnamed⟩ := h
  have hempty : Segment.Brackets .empty (Comment.plain []) := by
    rw [Comment.plain_nil]
    exact .empty
  exact ⟨s, hrun.slot Comment.whole_nil hempty hcommas, htop, hnamed⟩

/-- A text that is the head of a declaration gives a parameter with the same name and type, except for
the lone word `void`, which stands for no parameters. -/
theorem scan_phases {text : List Char} {line : Nat} {declaration : Declaration}
    (h : ScansWhole (signature text []) line declaration) (hcommas : CommasInside text) :
    ∃ outer, ScansWhole (signature "int f".toList text) line outer ∧
      outer.parameters = if pieces (uncommented text) = ["void"] then []
        else [⟨declaration.name, declaration.returnType⟩] := by
  have hslot : Holds .parameters text declaration.name declaration.returnType :=
    (holds_of_scansWhole h).slot hcommas
  have hholds : HoldsEach [text] [⟨declaration.name, declaration.returnType⟩] := .cons hslot .nil
  have hint : ScansWhole (signature "int f".toList []) 0
      ⟨"f", 0, ⟨"int", "int", 0, .none, .empty⟩, []⟩ := by
    decide +kernel
  have hhead : Holds .head "int f".toList "f" ⟨"int", "int", 0, .none, .empty⟩ :=
    holds_of_scansWhole hint
  have hparts : Parts ⟨"f", line, ⟨"int", "int", 0, .none, .empty⟩,
      if Parameter.isVoidList [⟨declaration.name, declaration.returnType⟩] then []
        else [⟨declaration.name, declaration.returnType⟩]⟩ "int f".toList [text] :=
    ⟨hhead, _, .named (by simp) hholds, rfl⟩
  have hvoid : Parameter.isVoidList [⟨declaration.name, declaration.returnType⟩] = true ↔
      pieces (uncommented text) = ["void"] := by
    rw [isVoidList_iff hholds]
    simp [tokensOf]
  refine ⟨_, by simpa using scansWhole_of_parts hparts, ?_⟩
  simp only [hvoid]

/-- A head with tags, brackets and marks gives a parameter, and the lone word `void` gives none. -/
theorem scan_phases_tagged :
    (∃ outer, ScansWhole "int f(/** fast, api */ T<a,(b,c)>* const &g/*,*/)".toList 1 outer ∧
      outer.parameters =
        [⟨"g", ⟨"T<a,(b,c)>* const&", "T<a,(b,c)>", 1, .lvalue, .ofList ["fast,", "api"]⟩⟩]) ∧
    ∃ outer, ScansWhole "int f( void/**/)".toList 1 outer ∧ outer.parameters = [] := by
  constructor
  · have hhead : ScansWhole (signature "/** fast, api */ T<a,(b,c)>* const &g/*,*/".toList []) 1
        ⟨"g", 1, ⟨"T<a,(b,c)>* const&", "T<a,(b,c)>", 1, .lvalue, .ofList ["fast,", "api"]⟩, []⟩ := by
      decide +kernel
    obtain ⟨outer, houter, hparameters⟩ := scan_phases hhead (by decide +kernel)
    have hmore : pieces (uncommented "/** fast, api */ T<a,(b,c)>* const &g/*,*/".toList) ≠ ["void"] := by
      decide +kernel
    rw [if_neg hmore] at hparameters
    exact ⟨outer, houter, hparameters⟩
  · have hhead : ScansWhole (signature " void/**/".toList []) 1
        ⟨"void", 1, ⟨"", "", 0, .none, .empty⟩, []⟩ := by
      decide +kernel
    obtain ⟨outer, houter, hparameters⟩ := scan_phases hhead (by decide +kernel)
    have hvoid : pieces (uncommented " void/**/".toList) = ["void"] := by
      decide +kernel
    rw [if_pos hvoid] at hparameters
    exact ⟨outer, houter, hparameters⟩

end Declaration
end ExportIndex
