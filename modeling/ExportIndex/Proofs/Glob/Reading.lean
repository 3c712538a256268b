import Mathlib.Data.List.Forall2
import Mathlib.Data.List.TakeWhile
import ExportIndex.Glob.Search

/-!
# How patterns are read

* `Reads` is the grammar of patterns: which tokens a text stands for, given the character before it.
  `tokens_eq_ok_iff` — a text is read if it is in the grammar, and as the grammar says.
* `IsReadFrom` says of a pattern that it is read from a text: the text is in the grammar, and so is each
  of its components, which are the legs of the search.
* `ofString_eq_ok_iff` — the patterns that can be read.
-/

namespace ExportIndex
namespace Glob

/-- A class behind its opening bracket, and the text behind the class.  Only the first character of a
class may be a closing bracket. -/
inductive ReadsClass : List Char → Token → List Char → Prop
  | members {first : Char} {more later : List Char} (hfirst : first ≠ '!') (hmore : ']' ∉ more) :
      ReadsClass (first :: (more ++ ']' :: later)) (.charClass false (classItems (first :: more))) later
  | others {first : Char} {more later : List Char} (hmore : ']' ∉ more) :
      ReadsClass ('!' :: first :: (more ++ ']' :: later))
        (.charClass true (classItems (first :: more))) later

/-- The tokens that a text stands for behind a given character, or at the beginning. -/
inductive Reads : Option Char → List Char → List Token → Prop
  | nil (previous : Option Char) : Reads previous [] []
  | literal {previous : Option Char} {c : Char} {rest : List Char} {tokens : List Token}
      (hc : c ≠ '?' ∧ c ≠ '*' ∧ c ≠ '[') (h : Reads (some c) rest tokens) :
      Reads previous (c :: rest) (.literal c :: tokens)
  | anyChar {previous : Option Char} {rest : List Char} {tokens : List Token}
      (h : Reads (some '?') rest tokens) : Reads previous ('?' :: rest) (.anyChar :: tokens)
  | anyRun {previous : Option Char} {rest : List Char} {tokens : List Token}
      (hrest : rest.head? ≠ some '*') (h : Reads (some '*') rest tokens) :
      Reads previous ('*' :: rest) (.anyRun :: tokens)
  | lastDepth {previous : Option Char} (hprevious : previous = none ∨ previous = some '/') :
      Reads previous ['*', '*'] [.anyDepth]
  | anyDepth {previous : Option Char} {rest : List Char} {tokens : List Token}
      (hprevious : previous = none ∨ previous = some '/') (h : Reads (some '/') rest tokens) :
      Reads previous ('*' :: '*' :: '/' :: rest) (.anyDepth :: tokens)
  | charClass {previous : Option Char} {text later : List Char} {token : Token}
      {tokens : List Token} (hclass : ReadsClass text token later)
      (h : Reads (some ']') later tokens) : Reads previous ('[' :: text) (token :: tokens)

variable {text later : List Char} {token : Token} {found : List Token}

/-! ### Classes -/

theorem untilBracket_eq_some_iff {more : List Char} :
    untilBracket text = some (more, later) ↔ text = more ++ ']' :: later ∧ ']' ∉ more := by
  have hparts := List.takeWhile_append_dropWhile (p := (· != ']')) (l := text)
  constructor
  · intro h
    unfold untilBracket at h
    split at h
    · contradiction
    · rename_i c rest hdrop
      simp only [Option.some.injEq, Prod.mk.injEq] at h
      obtain ⟨rfl, rfl⟩ := h
      have hc : (c != ']') = false := by
        have := List.head?_dropWhile_not (· != ']') text
        simpa [hdrop] using this
      rw [hdrop, bne_eq_false_iff_eq.1 hc] at hparts
      refine ⟨hparts.symm, fun hmem => ?_⟩
      simpa using List.mem_takeWhile_imp hmem
  · rintro ⟨rfl, hmore⟩
    have hkept : ∀ c ∈ more, (c != ']') = true := fun c hc =>
      bne_iff_ne.2 fun heq => hmore (heq ▸ hc)
    rw [untilBracket, List.dropWhile_append_of_pos hkept, List.takeWhile_append_of_pos hkept]
    simp

theorem readClass_eq_some_iff : readClass text = some (token, later) ↔ ReadsClass text token later := by
  constructor
  · intro h
    unfold readClass at h
    split at h
    · obtain ⟨⟨more, rest⟩, hmore, heq⟩ := Option.map_eq_some_iff.1 h
      obtain ⟨rfl, hnot⟩ := untilBracket_eq_some_iff.1 hmore
      obtain ⟨rfl, rfl⟩ := Prod.mk.inj heq
      exact .others hnot
    · contradiction
    · rename_i first rest hfirst hlast
      obtain ⟨⟨more, rest⟩, hmore, heq⟩ := Option.map_eq_some_iff.1 h
      obtain ⟨rfl, hnot⟩ := untilBracket_eq_some_iff.1 hmore
      obtain ⟨rfl, rfl⟩ := Prod.mk.inj heq
      refine .members ?_ hnot
      rintro rfl
      obtain ⟨c, behind, hbehind⟩ := List.exists_cons_of_ne_nil
        (List.append_ne_nil_of_right_ne_nil more (List.cons_ne_nil ']' rest))
      exact hfirst c behind rfl (by rw [hbehind])
    · contradiction
  · intro h
    cases h with
    | @members first more later hfirst hmore =>
        rw [readClass.eq_def]
        split
        · rename_i heq
          exact absurd (List.cons.inj heq).1 hfirst
        · rename_i heq
          simp at heq
        · rename_i heq
          obtain ⟨rfl, rfl⟩ := List.cons.inj heq
          rw [untilBracket_eq_some_iff.2 ⟨rfl, hmore⟩]
          rfl
        · rename_i heq
          contradiction
    | others hmore =>
        rw [readClass, untilBracket_eq_some_iff.2 ⟨rfl, hmore⟩]
        rfl

/-! ### Texts -/

/-- The number of stars that a text begins with. -/
def starsOf (text : List Char) : Nat :=
  (text.takeWhile (· == '*')).length

theorem starsOf_cons (c : Char) (rest : List Char) :
    starsOf (c :: rest) = if c = '*' then 1 + starsOf rest else 0 := by
  by_cases hc : c = '*'
  · rw [if_pos hc, starsOf, List.takeWhile_cons_of_pos (by simpa using hc), List.length_cons, Nat.add_comm]
    rfl
  · rw [if_neg hc, starsOf, List.takeWhile_cons_of_neg (by simpa using hc), List.length_nil]

theorem starsOf_eq_zero_iff {text : List Char} : starsOf text = 0 ↔ text.head? ≠ some '*' := by
  cases text with
  | nil => simp [starsOf]
  | cons c rest => simp [starsOf_cons]

theorem eq_star_of_starsOf {text : List Char} (h : 0 < starsOf text) : text = '*' :: text.drop 1 := by
  cases text with
  | nil => simp [starsOf] at h
  | cons c rest =>
      rw [starsOf_cons] at h
      split at h
      · rename_i hc
        rw [hc]
        rfl
      · contradiction

theorem map_eq_ok_iff {ε α β : Type} {f : α → β} {result : Except ε α} {b : β} :
    result.map f = .ok b ↔ ∃ a, result = .ok a ∧ f a = b := by
  cases result <;> simp [Except.map]

/-- Whatever is read is in the grammar. -/
theorem reads_of_tokensFrom {position : Nat} {previous : Option Char}
    (h : tokensFrom position previous text = .ok found) : Reads previous text found := by
  fun_induction tokensFrom position previous text generalizing found with
  | case1 position previous =>
      obtain rfl := Except.ok.inj h
      exact .nil previous
  | case2 position previous rest ih =>
      obtain ⟨tokens, htokens, rfl⟩ := map_eq_ok_iff.1 h
      exact .anyChar (ih htokens)
  | case4 position previous rest stars later _ hstars hprevious hlater =>
      obtain rfl := Except.ok.inj h
      have hrest : rest = '*' :: rest.drop 1 := eq_star_of_starsOf (by rw [starsOf]; omega)
      have hdrop : rest.drop 1 = [] := by simpa only [later, hstars] using hlater
      rw [hrest, hdrop]
      exact .lastDepth hprevious
  | case5 position previous rest stars later _ hstars hprevious behind _ hlater =>
      rename_i ih
      obtain ⟨tokens, htokens, rfl⟩ := map_eq_ok_iff.1 h
      have hrest : rest = '*' :: rest.drop 1 := eq_star_of_starsOf (by rw [starsOf]; omega)
      have hdrop : rest.drop 1 = '/' :: behind := by simpa only [later, hstars] using hlater
      rw [hrest, hdrop]
      exact .anyDepth hprevious (ih htokens)
  | case8 position previous rest stars hfew hone _ =>
      rename_i ih
      obtain ⟨tokens, htokens, rfl⟩ := map_eq_ok_iff.1 h
      refine .anyRun (starsOf_eq_zero_iff.1 ?_) (ih htokens)
      rw [starsOf]
      omega
  | case10 position previous text token later hclass _ _ ih =>
      obtain ⟨tokens, htokens, rfl⟩ := map_eq_ok_iff.1 h
      exact .charClass (readClass_eq_some_iff.1 hclass) (ih htokens)
  | case11 position previous c rest hquestion hstar hbracket ih =>
      obtain ⟨tokens, htokens, rfl⟩ := map_eq_ok_iff.1 h
      exact .literal ⟨hquestion, hstar, hbracket⟩ (ih htokens)
  | case3 | case6 | case7 | case9 => contradiction

/-- Every text in the grammar is read. -/
theorem tokensFrom_of_reads {previous : Option Char} (h : Reads previous text found) (position : Nat) :
    tokensFrom position previous text = .ok found := by
  induction h generalizing position with
  | nil => rw [tokensFrom]
  | literal hc _ ih =>
      rw [tokensFrom, if_neg hc.1, if_neg hc.2.1, if_neg hc.2.2, ih]
      rfl
  | anyChar _ ih =>
      rw [tokensFrom, if_pos rfl, ih]
      rfl
  | anyRun hrest _ ih =>
      have hstars := starsOf_eq_zero_iff.2 hrest
      rw [starsOf] at hstars
      rw [tokensFrom]
      simp [hstars, ih, Except.map]
  | lastDepth hprevious =>
      rw [tokensFrom, if_neg (by decide), if_pos rfl]
      simp only [hprevious]
      rfl
  | anyDepth hprevious _ ih =>
      rw [tokensFrom, if_neg (by decide), if_pos rfl]
      simp only [hprevious]
      change Except.map _ _ = _
      rw [ih]
      rfl
  | charClass hclass _ ih =>
      rw [tokensFrom, if_neg (by decide), if_neg (by decide), if_pos rfl]
      split
      · rename_i hnone
        rw [readClass_eq_some_iff.2 hclass] at hnone
        contradiction
      · rename_i hsome
        rw [readClass_eq_some_iff.2 hclass] at hsome
        obtain ⟨rfl, rfl⟩ := Prod.mk.inj (Option.some.inj hsome)
        rw [ih]
        rfl

theorem tokens_eq_ok_iff : tokens text = .ok found ↔ Reads none text found :=
  ⟨reads_of_tokensFrom, fun h => tokensFrom_of_reads h 0⟩

/-! ### Patterns -/

/-- A component is read from the text between two slashes. -/
structure Component.IsReadFrom (component : Component) (piece : List Char) : Prop where
  text : component.text = String.ofList piece
  tokens : Reads none piece component.tokens

/-- A pattern is read from a text: the whole text is in the grammar, and so are its components, each by
itself.  A slash at the end asks for directories. -/
structure IsReadFrom (glob : Glob) (pattern : String) : Prop where
  whole : ∃ tokens, Reads none pattern.toList tokens
  start : glob.start = if Path.isAbsolute pattern then "/" else "."
  legs : ∃ components,
    List.Forall₂ Component.IsReadFrom components (componentPieces pattern) ∧
      glob.legs = legsOf components
  directoriesOnly : glob.directoriesOnly = true ↔ pattern.toList.getLast? = some '/'

theorem Component.ofChars_eq_ok_iff {piece : List Char} {component : Component} :
    ofChars piece = .ok component ↔ component.IsReadFrom piece := by
  rw [ofChars, map_eq_ok_iff]
  constructor
  · rintro ⟨tokens, htokens, rfl⟩
    exact ⟨rfl, tokens_eq_ok_iff.1 htokens⟩
  · rintro ⟨htext, htokens⟩
    exact ⟨component.tokens, tokens_eq_ok_iff.2 htokens, htext ▸ rfl⟩

theorem mapM_ofChars_eq_ok_iff {pieces : List (List Char)} {components : List Component} :
    pieces.mapM Component.ofChars = .ok components ↔
      List.Forall₂ Component.IsReadFrom components pieces := by
  induction pieces generalizing components with
  | nil => simp [pure, Except.pure, eq_comm]
  | cons piece pieces ih =>
      rw [List.mapM_cons, List.forall₂_cons_right_iff]
      simp only [← ih, ← Component.ofChars_eq_ok_iff]
      cases Component.ofChars piece with
      | error error => simp [bind, Except.bind]
      | ok first =>
          cases pieces.mapM Component.ofChars with
          | error error => simp [bind, Except.bind]
          | ok later => simp [bind, Except.bind, pure, Except.pure, eq_comm]

/-- The patterns that can be read. -/
theorem ofString_eq_ok_iff {pattern : String} {glob : Glob} :
    ofString pattern = .ok glob ↔ glob.IsReadFrom pattern := by
  obtain ⟨start, legs, directoriesOnly⟩ := glob
  have hparts : ofString pattern = .ok ⟨start, legs, directoriesOnly⟩ ↔
      ∃ tokens, Glob.tokens pattern.toList = .ok tokens ∧ ∃ components,
        (componentPieces pattern).mapM Component.ofChars = .ok components ∧
          ⟨if Path.isAbsolute pattern then "/" else ".", legsOf components,
            pattern.toList.getLast? = some '/'⟩ = (⟨start, legs, directoriesOnly⟩ : Glob) := by
    rw [ofString]
    cases Glob.tokens pattern.toList with
    | error error => simp
    | ok tokens => simp [map_eq_ok_iff]
  rw [hparts]
  simp only [tokens_eq_ok_iff, mapM_ofChars_eq_ok_iff, mk.injEq]
  constructor
  · rintro ⟨tokens, htokens, components, hcomponents, rfl, rfl, rfl⟩
    exact ⟨⟨tokens, htokens⟩, rfl, ⟨components, hcomponents, rfl⟩, decide_eq_true_iff⟩
  · rintro ⟨⟨tokens, htokens⟩, hstart, ⟨components, hcomponents, hlegs⟩, hslash⟩
    exact ⟨tokens, htokens, components, hcomponents, hstart.symm, hlegs.symm,
      Bool.eq_iff_iff.2 (decide_eq_true_iff.trans hslash.symm)⟩

end Glob
end ExportIndex
