import ExportIndex.Proofs.Comment.Extent
import ExportIndex.TagSet

/-!
# Tags in print

A set of tags is printed as one tag block that lists them, with spaces between.

* `IsTag` says which words can stand in a tag block; `isTag_of_mem_tagsOf` — every tag that a comment
  adds is one of them.
* `TagSet.print` prints a set of tags, as nothing if it is empty.
* `isBody_blockOf` and `tagsOf_blockOf` — a printed block is one whole comment, and its tags are the
  listed ones.
-/

namespace ExportIndex

/-- The tag block that lists a set, or nothing for the empty set. -/
def TagSet.print (tags : TagSet) : String :=
  if tags.words = [] then "" else "/** " ++ " ".intercalate tags.words ++ " */ "

namespace Comment

open Text (isBlank)

/-- A word of a tag block: it has no blank, is not made of stars alone and does not close the block. -/
structure IsTag (word : String) : Prop where
  not_blank : ∀ c ∈ word.toList, isBlank c = false
  not_stars : word.toList.all (· == '*') = false
  not_closing : afterClose? word.toList = none

/-! ### Texts without a closing mark -/

theorem afterClose?_left {before after : List Char} (h : afterClose? (before ++ after) = none) :
    afterClose? before = none := by
  fun_induction afterClose? before with
  | case1 => rfl
  | case2 => rfl
  | case3 c d text hcd =>
      rw [List.cons_append, List.cons_append, afterClose?, if_pos hcd] at h
      contradiction
  | case4 c d text hcd ih =>
      rw [List.cons_append, List.cons_append, afterClose?, if_neg hcd] at h
      exact ih h

theorem afterClose?_right {before after : List Char} (h : afterClose? (before ++ after) = none) :
    afterClose? after = none := by
  induction before with
  | nil => exact h
  | cons c before ih =>
      apply ih
      cases hrest : before ++ after with
      | nil => rfl
      | cons d rest =>
          rw [List.cons_append, hrest, afterClose?] at h
          split at h
          · contradiction
          · exact h

/-- No closing mark reaches across a space. -/
theorem afterClose?_space {before : List Char} (h : afterClose? before = none) (after : List Char) :
    afterClose? (before ++ ' ' :: after) = afterClose? after := by
  have hspace : afterClose? (' ' :: after) = afterClose? after := by
    cases after with
    | nil => rfl
    | cons d after => rw [afterClose?, if_neg (by simp)]
  fun_induction afterClose? before with
  | case1 => exact hspace
  | case2 c =>
      show afterClose? (c :: ' ' :: after) = afterClose? after
      rw [afterClose?, if_neg (by simp), hspace]
  | case3 => contradiction
  | case4 c d text hcd ih =>
      rw [List.cons_append, List.cons_append, afterClose?, if_neg hcd]
      exact ih h

/-- In front of the mark that closes a block there is no other. -/
theorem afterClose?_inner {inner : List Char} (h : afterClose? (inner ++ ['*', '/']) = some []) :
    afterClose? inner = none := by
  fun_induction afterClose? inner with
  | case1 => rfl
  | case2 => rfl
  | case3 c d text hcd =>
      rw [List.cons_append, List.cons_append, afterClose?, if_pos hcd] at h
      simp at h
  | case4 c d text hcd ih =>
      rw [List.cons_append, List.cons_append, afterClose?, if_neg hcd] at h
      exact ih h

/-! ### The tags of a comment -/

/-- A text without blanks that does not close a block adds at most a tag. -/
theorem isTag_of_mem_word {word : List Char} (hword : ∀ c ∈ word, isBlank c = false)
    (hopen : afterClose? word = none) {tag : String} (h : tag ∈ words word) : IsTag tag := by
  rw [words_of_not_blank hword] at h
  split at h
  · simp at h
  · rename_i hstars
    obtain rfl : tag = String.ofList word := by simpa using h
    refine ⟨?_, ?_, ?_⟩
    · simpa using hword
    · simpa using hstars
    · simpa using hopen

/-- The words of a text that does not close a block can stand in a block. -/
theorem isTag_of_mem_words {text : List Char} (hopen : afterClose? text = none) {tag : String}
    (h : tag ∈ words text) : IsTag tag := by
  -- The induction is on what follows the part of the first word that has been passed.
  suffices hpassed : ∀ word, (∀ c ∈ word, isBlank c = false) → afterClose? (word ++ text) = none →
      tag ∈ words (word ++ text) → IsTag tag from hpassed [] (by simp) hopen h
  clear hopen h
  induction text with
  | nil =>
      intro word hword hopen h
      rw [List.append_nil] at hopen h
      exact isTag_of_mem_word hword hopen h
  | cons c text ih =>
      intro word hword hopen h
      by_cases hblank : isBlank c = true
      · rw [words_append hblank, List.mem_append] at h
        rcases h with h | h
        · exact isTag_of_mem_word hword (afterClose?_left hopen) h
        · rw [List.append_cons] at hopen
          exact ih [] (by simp) (afterClose?_right hopen) h
      · rw [List.append_cons] at hopen h
        refine ih (word ++ [c]) ?_ hopen h
        intro d hd
        rcases List.mem_append.1 hd with hd | hd
        · exact hword d hd
        · obtain rfl : d = c := by simpa using hd
          simpa using hblank

/-- Every tag that a comment adds can stand in a tag block. -/
theorem isTag_of_mem_tagsOf {body : List Char} (hbody : IsBody body) {nesting : Nat} {tag : String}
    (h : tag ∈ tagsOf nesting body) : IsTag tag := by
  unfold tagsOf at h
  split at h
  · rename_i text
    split at h
    · have hclose : afterClose? ('*' :: text) = some [] := hbody
      obtain ⟨inner, hinner⟩ := exists_inner hclose
      have hopen : afterClose? inner = none := afterClose?_inner (hinner ▸ hclose)
      cases inner with
      | nil =>
          obtain rfl : text = ['/'] := by simpa using hinner
          exact isTag_of_mem_words rfl h
      | cons c inner =>
          have hopen' : afterClose? ([c] ++ inner) = none := hopen
          obtain ⟨-, rfl⟩ : '*' = c ∧ text = inner ++ ['*', '/'] := by simpa using hinner
          rw [dropLast_dropLast_append] at h
          exact isTag_of_mem_words (afterClose?_right hopen') h
    · simp at h
  · simp at h

/-! ### The printed block -/

/-- The words of a list, each with a space before it. -/
def spaced (words : List String) : List Char :=
  words.flatMap fun word => ' ' :: word.toList

/-- The block that lists the words, seen from behind its first slash. -/
def blockOf (words : List String) : List Char :=
  '*' :: '*' :: (spaced words ++ [' ', '*', '/'])

theorem afterClose?_spaced {tags : List String} (h : ∀ tag ∈ tags, IsTag tag) {before : List Char}
    (hbefore : afterClose? before = none) (after : List Char) :
    afterClose? (before ++ (spaced tags ++ ' ' :: after)) = afterClose? after := by
  induction tags generalizing before with
  | nil => exact afterClose?_space hbefore after
  | cons tag tags ih =>
      have htag := h tag List.mem_cons_self
      have hspaced : spaced (tag :: tags) ++ ' ' :: after =
          ' ' :: (tag.toList ++ (spaced tags ++ ' ' :: after)) := by
        simp [spaced]
      rw [hspaced, afterClose?_space hbefore]
      exact ih (fun tag htag => h tag (List.mem_cons_of_mem _ htag)) htag.not_closing

/-- A printed block is one whole comment. -/
theorem isBody_blockOf {tags : List String} (h : ∀ tag ∈ tags, IsTag tag) :
    IsBody (blockOf tags) := by
  show afterClose? (['*'] ++ (spaced tags ++ ' ' :: ['*', '/'])) = some []
  rw [afterClose?_spaced h rfl]
  rfl

/-- The words in front of a space are followed by those behind it. -/
theorem words_spaced {tags : List String} (h : ∀ tag ∈ tags, IsTag tag) {before : List Char}
    (hbefore : ∀ c ∈ before, isBlank c = false) :
    words (before ++ (spaced tags ++ [' '])) = words before ++ tags := by
  have hspace : isBlank ' ' = true := by decide
  induction tags generalizing before with
  | nil =>
      show words (before ++ ' ' :: []) = words before ++ []
      rw [words_append hspace]
      rfl
  | cons tag tags ih =>
      have htag := h tag List.mem_cons_self
      have hspaced : spaced (tag :: tags) ++ [' '] = ' ' :: (tag.toList ++ (spaced tags ++ [' '])) := by
        simp [spaced]
      have hword : words tag.toList = [tag] := by
        rw [words_of_not_blank htag.not_blank, htag.not_stars, if_neg Bool.false_ne_true,
          String.ofList_toList]
      rw [hspaced, words_append hspace,
        ih (fun tag htag => h tag (List.mem_cons_of_mem _ htag)) htag.not_blank, hword]
      rfl

/-- Outside all brackets a printed block adds the words that it lists. -/
theorem tagsOf_blockOf {tags : List String} (h : ∀ tag ∈ tags, IsTag tag) :
    tagsOf 0 (blockOf tags) = tags := by
  have hinner : (spaced tags ++ [' ', '*', '/']).dropLast.dropLast = spaced tags ++ [' '] := by
    rw [List.append_cons, dropLast_dropLast_append]
  show words (spaced tags ++ [' ', '*', '/']).dropLast.dropLast = tags
  have hempty : ∀ c ∈ ([] : List Char), isBlank c = false := by simp
  rw [hinner]
  exact words_spaced h hempty

theorem spaced_eq {words : List String} (hne : words ≠ []) :
    spaced words = ' ' :: (" ".intercalate words).toList := by
  induction words with
  | nil => contradiction
  | cons first words ih =>
      cases words with
      | nil => simp [spaced]
      | cons second words =>
          have hspaced : spaced (first :: second :: words) =
              ' ' :: first.toList ++ spaced (second :: words) := rfl
          rw [hspaced, ih (List.cons_ne_nil second words), String.intercalate_cons_cons, String.toList_append,
            String.toList_append]
          simp

/-- A printed set is a whole comment with a space behind it, or nothing. -/
theorem toList_print (tags : TagSet) :
    tags.print.toList = if tags.words = [] then [] else '/' :: blockOf tags.words ++ [' '] := by
  unfold TagSet.print
  split
  · rfl
  · rename_i hne
    rw [String.toList_append, String.toList_append, blockOf, spaced_eq hne]
    simp

end Comment
end ExportIndex
