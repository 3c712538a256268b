import ExportIndex.Proofs.Comment.Closing
import ExportIndex.Proofs.Comment.Printing

/-!
# The words of a tag block

Outside all brackets a `/**` block adds its words to the tags, and no other comment adds any.

* `IsTagBlock` tells a tag block by its first characters; `/**/` is none.
* `Adds` lists what the comment of a text adds: the words of a closed tag block, the words of a broken
  one that a blank has ended, and nothing in any other case.
* `IsBody.adds` and `adds_brokenTagsOf` — a comment adds what `Adds` says, whether it is closed or not.
* `tags_of_read` — reading a comment puts exactly these words behind the tags before it.
-/

namespace ExportIndex
namespace Comment

open Text (isBlank)

/-- A tag block, seen from behind its first slash, with `nesting` brackets open around it. -/
structure IsTagBlock (nesting : Nat) (text : List Char) : Prop where
  outside : nesting = 0
  stars : ['*', '*'] <+: text
  not_empty : ¬['*', '*', '/'] <+: text

/-- What the comment of a text adds to the tags, if `rest` is left of the text. -/
inductive Adds (nesting : Nat) (text rest : List Char) : Option Halt → List String → Prop
  | closed {body : List Char} (hblock : IsTagBlock nesting text)
      (htext : text = ['*', '*'] ++ body ++ ['*', '/'] ++ rest) (hfirst : ¬['*', '/'] <:+: body) :
      Adds nesting text rest none (words body)
  | broken (hblock : IsTagBlock nesting text) :
      Adds nesting text rest (some .unterminated) (endedWords (text.drop 2))
  | other {halt : Option Halt} (hblock : ¬IsTagBlock nesting text) : Adds nesting text rest halt []

variable {nesting : Nat} {text body : List Char} {tag : String}

theorem isTagBlock_iff :
    IsTagBlock nesting text ↔
      nesting = 0 ∧ ∃ more, text = '*' :: '*' :: more ∧ more.head? ≠ some '/' := by
  constructor
  · rintro ⟨hnesting, ⟨more, rfl⟩, hempty⟩
    refine ⟨hnesting, more, rfl, fun hhead => hempty ?_⟩
    obtain ⟨rest, rfl⟩ := List.head?_eq_some_iff.1 hhead
    exact ⟨rest, rfl⟩
  · rintro ⟨hnesting, more, rfl, hhead⟩
    refine ⟨hnesting, ⟨more, rfl⟩, ?_⟩
    rintro ⟨rest, hrest⟩
    obtain rfl : '/' :: rest = more := by simpa using hrest
    exact hhead rfl

/-! ### Closed comments -/

/-- The words of a closed block do not begin with a slash: that would have closed it at once. -/
theorem head?_of_isBody {inner : List Char} (h : IsBody ('*' :: '*' :: (inner ++ ['*', '/'])))
    (rest : List Char) : (inner ++ ['*', '/'] ++ rest).head? ≠ some '/' := by
  have hclose : afterClose? (['*'] ++ inner ++ ['*', '/']) = some [] := h
  cases inner with
  | nil => simp
  | cons c inner =>
      obtain ⟨-, hopen⟩ := afterClose?_cons_eq_none (afterClose?_inner hclose)
      simpa using hopen rfl

/-- A closed comment outside all brackets adds the words of its block if it is a tag block. -/
theorem IsBody.adds (h : IsBody body) (nesting : Nat) (rest : List Char) :
    Adds nesting (body ++ rest) rest none (tagsOf nesting body) := by
  by_cases hnesting : nesting = 0
  · subst hnesting
    rcases h.tagsOf_zero with ⟨inner, rfl, htags⟩ | ⟨hstars, htags⟩
    · have hclose : afterClose? (['*'] ++ inner ++ ['*', '/']) = some [] := h
      rw [htags]
      refine .closed (isTagBlock_iff.2 ⟨rfl, _, rfl, head?_of_isBody h rest⟩) (by simp) ?_
      exact not_infix_of_afterClose? (afterClose?_right (afterClose?_inner hclose))
    · rw [htags]
      refine .other fun hblock => ?_
      obtain ⟨-, more, hmore, hhead⟩ := isTagBlock_iff.1 hblock
      -- Two characters of the text belong to the comment, since no comment is shorter.
      match body with
      | [] => contradiction
      | [c] =>
          obtain ⟨rfl, -⟩ : c = '*' ∧ rest = '*' :: more := by simpa using hmore
          contradiction
      | c :: d :: body =>
          obtain ⟨rfl, rfl, rfl⟩ : c = '*' ∧ d = '*' ∧ body ++ rest = more := by simpa using hmore
          rw [hstars body rfl] at hhead
          exact hhead rfl
  · rw [tagsOf_of_ne hnesting]
    exact .other fun hblock => hnesting hblock.outside

/-! ### Broken comments -/

/-- A comment that the text breaks off adds the words that a blank has ended if it is a tag block. -/
theorem adds_brokenTagsOf (h : after? text = none) (nesting : Nat) (rest : List Char) :
    Adds nesting text rest (some .unterminated) (brokenTagsOf nesting text) := by
  unfold brokenTagsOf
  split
  · rename_i more
    have hclose : afterClose? ('*' :: more) = none := h
    obtain ⟨-, hopen⟩ := afterClose?_cons_eq_none hclose
    split
    · rename_i hnesting
      exact .broken (isTagBlock_iff.2 ⟨hnesting, more, rfl, hopen rfl⟩)
    · rename_i hnesting
      exact .other fun hblock => hnesting hblock.outside
  · rename_i hstars
    refine .other fun hblock => ?_
    obtain ⟨-, more, rfl, -⟩ := isTagBlock_iff.1 hblock
    exact hstars more rfl

/-- A word that a blank ends is a word. -/
theorem mem_words_of_mem_endedWords (h : tag ∈ endedWords text) : tag ∈ words text := by
  obtain ⟨hmem, hstars⟩ := List.mem_filter.1 h
  obtain ⟨word, hword, rfl⟩ := List.mem_map.1 hmem
  exact List.mem_filter.2 ⟨List.mem_map_of_mem (List.dropLast_subset _ hword), hstars⟩

theorem isTag_of_mem_brokenTagsOf (h : after? text = none) (htag : tag ∈ brokenTagsOf nesting text) :
    IsTag tag := by
  unfold brokenTagsOf at htag
  split at htag
  · split at htag
    · obtain ⟨hopen, -⟩ := afterClose?_cons_eq_none h
      exact isTag_of_mem_words hopen (mem_words_of_mem_endedWords htag)
    · simp at htag
  · simp at htag

/-! ### All comments -/

/-- What a tag is not: empty, made of stars alone, blank in part, or the end of a block in part. -/
theorem IsTag.not_trivial (h : IsTag tag) :
    tag ≠ "" ∧ tag.toList.all (· == '*') = false ∧ (∀ c ∈ tag.toList, isBlank c = false) ∧
      ¬['*', '/'] <:+: tag.toList := by
  refine ⟨?_, h.not_stars, h.not_blank, not_infix_of_afterClose? h.not_closing⟩
  rintro rfl
  exact absurd h.not_stars (by decide)

/-- Reading a comment puts the words that it adds behind the tags before it: those of a closed tag block,
those of a broken one that a blank has ended, and none in any other case.  None of them is empty, made
of stars alone, or holds a blank or the end of a block. -/
theorem tags_of_read (nesting : Nat) (tags : List String) (r : Reader) :
    ∃ added, (read nesting tags r).tags = tags ++ added ∧
      Adds nesting r.rest (read nesting tags r).reader.rest (read nesting tags r).halt added ∧
      ∀ tag ∈ added, tag ≠ "" ∧ tag.toList.all (· == '*') = false ∧
        (∀ c ∈ tag.toList, isBlank c = false) ∧ ¬['*', '/'] <:+: tag.toList := by
  obtain ⟨past, text, undoable⟩ := r
  cases hafter : after? text with
  | some rest =>
      obtain ⟨body, rfl, hbody⟩ := exists_body hafter
      refine ⟨tagsOf nesting body, ?_⟩
      rw [read_body hbody nesting tags past rest undoable]
      exact ⟨rfl, hbody.adds nesting rest, fun tag htag => (isTag_of_mem_tagsOf hbody htag).not_trivial⟩
  | none =>
      by_cases hopen : ∀ c rest, text = c :: rest → c = '/' ∨ c = '*'
      · obtain ⟨v, hread⟩ := read_unterminated hafter hopen nesting tags past undoable
        refine ⟨brokenTagsOf nesting text, ?_⟩
        rw [hread]
        exact ⟨rfl, adds_brokenTagsOf hafter nesting [],
          fun tag htag => (isTag_of_mem_brokenTagsOf hafter htag).not_trivial⟩
      · push Not at hopen
        obtain ⟨c, rest, rfl, hslash, hstar⟩ := hopen
        refine ⟨[], ?_⟩
        rw [read_malformed hslash hstar nesting tags past rest undoable]
        refine ⟨(List.append_nil tags).symm, .other fun hblock => ?_, nofun⟩
        obtain ⟨-, more, hmore, -⟩ := isTagBlock_iff.1 hblock
        exact hstar (List.cons.inj hmore).1

/-- The text breaks off a tag block: the gutter star is no tag, the star in a word belongs to it, and the
last word is not complete. -/
theorem tags_of_read_gutter :
    (read 0 ["own"] (.startAt "/**\n * a*b c*".toList 1)).tags = ["own", "a*b"] ∧
      "a*b" ≠ "" ∧ "a*b".toList.all (· == '*') = false ∧
        (∀ c ∈ "a*b".toList, isBlank c = false) ∧ ¬['*', '/'] <:+: "a*b".toList := by
  obtain ⟨added, htags, -, hadded⟩ := tags_of_read 0 ["own"] (.startAt "/**\n * a*b c*".toList 1)
  have hread : (read 0 ["own"] (.startAt "/**\n * a*b c*".toList 1)).tags = ["own", "a*b"] := by
    decide +kernel
  have hsame : ["own"] ++ ["a*b"] = ["own"] ++ added := hread.symm.trans htags
  obtain rfl := List.append_cancel_left hsame
  exact ⟨hread, hadded "a*b" List.mem_cons_self⟩

/-- In a closed block the last word is complete, whatever stands before the mark that closes it. -/
example : (read 0 [] (.startAt "/** a*b* c**/ d".toList 1)).tags = ["a*b*", "c*"] := by
  decide +kernel

end Comment
end ExportIndex
