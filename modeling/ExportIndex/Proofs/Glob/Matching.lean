import Mathlib.Data.List.Forall2
import ExportIndex.Glob.Pattern

/-!
# The names that a pattern stands for

* `Token.Covers` says which texts a token stands for, and `Covers` which texts a list of tokens stands
  for: those that can be cut into pieces, one for each token.
* `mem_leftovers_iff` — what may be left of a name after one token; `mem_foldl_leftovers_iff` — after
  several.
* `matchesName_iff` — the names that match are those that the tokens stand for.
-/

namespace ExportIndex
namespace Glob

/-- A character is a member of a class. -/
inductive ClassItem.Includes : ClassItem → Char → Prop
  | single (c : Char) : Includes (.single c) c
  | between {low high c : Char} (hlow : low ≤ c) (hhigh : c ≤ high) : Includes (.between low high) c

/-- The texts that a token stands for. -/
inductive Token.Covers : Token → List Char → Prop
  | literal (c : Char) : Covers (.literal c) [c]
  | anyChar (c : Char) : Covers .anyChar [c]
  | anyRun (piece : List Char) : Covers .anyRun piece
  | anyDepth (piece : List Char) : Covers .anyDepth piece
  | member {items : List ClassItem} {c : Char} (h : ∃ item ∈ items, item.Includes c) :
      Covers (.charClass false items) [c]
  | other {items : List ClassItem} {c : Char} (h : ∀ item ∈ items, ¬item.Includes c) :
      Covers (.charClass true items) [c]

/-- A text can be cut into pieces, one for each token, that the tokens stand for. -/
def Covers (tokens : List Token) (text : List Char) : Prop :=
  ∃ pieces : List (List Char), List.Forall₂ Token.Covers tokens pieces ∧ pieces.flatten = text

/-! ### One token -/

variable {token : Token} {tokens : List Token} {before : List (List Char)} {rest : List Char}

theorem ClassItem.matchesChar_iff {item : ClassItem} {c : Char} :
    item.matchesChar c = true ↔ item.Includes c := by
  cases item with
  | single d =>
      rw [matchesChar, beq_iff_eq]
      constructor
      · rintro rfl
        exact .single c
      · rintro ⟨⟩
        rfl
  | between low high =>
      rw [matchesChar, Bool.and_eq_true, decide_eq_true_eq, decide_eq_true_eq]
      constructor
      · rintro ⟨hlow, hhigh⟩
        exact .between hlow hhigh
      · rintro (_ | ⟨hlow, hhigh⟩)
        exact ⟨hlow, hhigh⟩

/-- Whether a token stands for any number of characters. -/
def Token.isRun : Token → Bool
  | .anyRun | .anyDepth => true
  | _ => false

theorem Token.covers_of_isRun (h : token.isRun = true) (piece : List Char) : token.Covers piece := by
  cases token with
  | anyRun => exact .anyRun piece
  | anyDepth => exact .anyDepth piece
  | literal | anyChar | charClass => contradiction

/-- The other tokens stand for one character. -/
theorem Token.covers_iff (h : token.isRun = false) {piece : List Char} :
    token.Covers piece ↔ ∃ c, token.matchesChar c = true ∧ piece = [c] := by
  constructor
  · intro hcovers
    cases hcovers with
    | literal c => exact ⟨c, by simp [matchesChar], rfl⟩
    | anyChar c => exact ⟨c, rfl, rfl⟩
    | anyRun | anyDepth => contradiction
    | member hmember =>
        obtain ⟨item, hitem, hincludes⟩ := hmember
        refine ⟨_, ?_, rfl⟩
        rw [matchesChar, Bool.bne_false, List.any_eq_true]
        exact ⟨item, hitem, ClassItem.matchesChar_iff.2 hincludes⟩
    | other hother =>
        refine ⟨_, ?_, rfl⟩
        rw [matchesChar, Bool.bne_true, Bool.not_eq_true', List.any_eq_false]
        exact fun item hitem hmatches => hother item hitem (ClassItem.matchesChar_iff.1 hmatches)
  · rintro ⟨c, hmatches, rfl⟩
    cases token with
    | literal d =>
        obtain rfl : c = d := by simpa [matchesChar] using hmatches
        exact .literal c
    | anyChar => exact .anyChar c
    | anyRun | anyDepth => contradiction
    | charClass negated items =>
        cases negated with
        | false =>
            rw [matchesChar, Bool.bne_false, List.any_eq_true] at hmatches
            obtain ⟨item, hitem, hmember⟩ := hmatches
            exact .member ⟨item, hitem, ClassItem.matchesChar_iff.1 hmember⟩
        | true =>
            rw [matchesChar, Bool.bne_true, Bool.not_eq_true', List.any_eq_false] at hmatches
            exact .other fun item hitem hmember =>
              hmatches item hitem (ClassItem.matchesChar_iff.2 hmember)

/-! ### What is left of a name -/

/-- The rests of a text are its ends. -/
theorem mem_restsOf {text : List Char} : rest ∈ restsOf text ↔ rest <:+ text := by
  induction text with
  | nil => simp [restsOf]
  | cons c text ih => simp [restsOf, ih, List.suffix_cons_iff]

/-- Every rest ends the rests before it. -/
def Nested (rests : List (List Char)) : Prop :=
  rests.Pairwise fun longer shorter => shorter <:+ longer

theorem nested_restsOf (text : List Char) : Nested (restsOf text) := by
  induction text with
  | nil => exact List.pairwise_singleton ..
  | cons c text ih =>
      refine List.pairwise_cons.2 ⟨fun shorter hshorter => ?_, ih⟩
      exact (mem_restsOf.1 hshorter).trans (List.suffix_cons c text)

theorem Token.restOf?_eq_some_iff {name : List Char} :
    token.restOf? name = some rest ↔ ∃ c, token.matchesChar c = true ∧ name = c :: rest := by
  cases name with
  | nil => simp [restOf?]
  | cons d later =>
      simp only [restOf?, Option.ite_none_right_eq_some, Option.some.injEq, List.cons.injEq]
      constructor
      · rintro ⟨hmatches, hrest⟩
        exact ⟨d, hmatches, rfl, hrest⟩
      · rintro ⟨c, hmatches, rfl, hrest⟩
        exact ⟨hmatches, hrest⟩

theorem Token.leftovers_of_isRun (h : token.isRun = true) (longest : List Char)
    (before : List (List Char)) : token.leftovers (longest :: before) = restsOf longest := by
  cases token with
  | anyRun | anyDepth => rfl
  | literal | anyChar | charClass => contradiction

theorem Token.leftovers_of_not_isRun (h : token.isRun = false) (before : List (List Char)) :
    token.leftovers before = before.filterMap token.restOf? := by
  cases token with
  | anyRun | anyDepth => contradiction
  | literal | anyChar | charClass => rfl

theorem Token.leftovers_nil (token : Token) : token.leftovers [] = [] := by
  cases token <;> rfl

/-- Taking one character off keeps the rests nested. -/
theorem nested_leftovers (token : Token) (h : Nested before) : Nested (token.leftovers before) := by
  cases hrun : token.isRun with
  | true =>
      cases before with
      | nil => rwa [Token.leftovers_nil]
      | cons longest before =>
          rw [Token.leftovers_of_isRun hrun]
          exact nested_restsOf longest
  | false =>
      rw [Token.leftovers_of_not_isRun hrun]
      refine List.Pairwise.filterMap token.restOf? ?_ h
      intro longer shorter hends rest hrest rest' hrest'
      obtain ⟨c, -, rfl⟩ := Token.restOf?_eq_some_iff.1 hrest
      obtain ⟨d, -, rfl⟩ := Token.restOf?_eq_some_iff.1 hrest'
      rcases List.suffix_cons_iff.1 hends with heq | hsuffix
      · exact (List.cons.inj heq).2 ▸ List.suffix_refl rest'
      · exact (List.suffix_cons d rest').trans hsuffix

/-- What may be left after a token is what it leaves of one of the rests. -/
theorem mem_leftovers_iff (h : Nested before) :
    rest ∈ token.leftovers before ↔ ∃ piece, token.Covers piece ∧ piece ++ rest ∈ before := by
  cases hrun : token.isRun with
  | true =>
      cases before with
      | nil => simp [token.leftovers_nil]
      | cons longest before =>
          rw [Token.leftovers_of_isRun hrun, mem_restsOf]
          constructor
          · rintro ⟨piece, rfl⟩
            exact ⟨piece, Token.covers_of_isRun hrun piece, List.mem_cons_self⟩
          · rintro ⟨piece, -, hmem⟩
            have hsuffix : rest <:+ piece ++ rest := List.suffix_append piece rest
            rcases List.mem_cons.1 hmem with heq | hmem
            · exact heq ▸ hsuffix
            · exact hsuffix.trans ((List.pairwise_cons.1 h).1 _ hmem)
  | false =>
      rw [Token.leftovers_of_not_isRun hrun, List.mem_filterMap]
      simp only [Token.restOf?_eq_some_iff, Token.covers_iff hrun]
      constructor
      · rintro ⟨_, hmem, c, hmatches, rfl⟩
        exact ⟨[c], ⟨c, hmatches, rfl⟩, hmem⟩
      · rintro ⟨_, ⟨c, hmatches, rfl⟩, hmem⟩
        exact ⟨_, hmem, c, hmatches, rfl⟩

/-! ### Several tokens -/

theorem covers_nil_iff {text : List Char} : Covers [] text ↔ text = [] := by
  constructor
  · rintro ⟨pieces, hpieces, rfl⟩
    rw [List.forall₂_nil_left_iff.1 hpieces]
    rfl
  · rintro rfl
    exact ⟨[], .nil, rfl⟩

theorem covers_cons_iff {text : List Char} :
    Covers (token :: tokens) text ↔
      ∃ piece later, token.Covers piece ∧ Covers tokens later ∧ piece ++ later = text := by
  constructor
  · rintro ⟨pieces, hpieces, rfl⟩
    obtain ⟨piece, later, hpiece, hlater, rfl⟩ := List.forall₂_cons_left_iff.1 hpieces
    exact ⟨piece, later.flatten, hpiece, ⟨later, hlater, rfl⟩, rfl⟩
  · rintro ⟨piece, _, hpiece, ⟨later, hlater, rfl⟩, rfl⟩
    exact ⟨piece :: later, .cons hpiece hlater, rfl⟩

/-- What may be left after several tokens is what they leave of one of the rests. -/
theorem mem_foldl_leftovers_iff (h : Nested before) :
    rest ∈ tokens.foldl (fun before token => token.leftovers before) before ↔
      ∃ text, Covers tokens text ∧ text ++ rest ∈ before := by
  induction tokens generalizing before with
  | nil => simp [covers_nil_iff]
  | cons token tokens ih =>
      rw [List.foldl_cons, ih (nested_leftovers token h)]
      simp only [mem_leftovers_iff h, covers_cons_iff]
      constructor
      · rintro ⟨later, hlater, piece, hpiece, hmem⟩
        exact ⟨piece ++ later, ⟨piece, later, hpiece, hlater, rfl⟩, by rwa [List.append_assoc]⟩
      · rintro ⟨_, ⟨piece, later, hpiece, hlater, rfl⟩, hmem⟩
        exact ⟨later, hlater, piece, hpiece, by rwa [← List.append_assoc]⟩

/-- The names that match are those that the tokens stand for. -/
theorem matchesName_iff {name : List Char} : matchesName tokens name = true ↔ Covers tokens name := by
  have hmem : [] ∈ tokens.foldl (fun before token => token.leftovers before) [name] ↔
      ∃ text, Covers tokens text ∧ text ++ [] ∈ [name] :=
    mem_foldl_leftovers_iff (List.pairwise_singleton _ name)
  simp only [List.append_nil, List.mem_singleton, exists_eq_right] at hmem
  rw [← hmem, matchesName, List.any_eq_true]
  simp

/-- A star may stand for nothing, and the class for any character but the one it names. -/
example : matchesName [.literal 'x', .anyRun, .charClass true [.single 'h']] "xc".toList = true := by
  decide

end Glob
end ExportIndex
