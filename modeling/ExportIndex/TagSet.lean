/-!
# Sets of tags

A set of tags is kept as the list of its members in strictly increasing code point order, so that two
sets with the same members are equal and are always listed alike.

* `insert` and `ofList` build sets; `mem_ofList` says which members they have.
* `ofList_words` says that the listing of a set gives the set back.
-/

namespace ExportIndex

/-- A set of tags, listed in strictly increasing order. -/
structure TagSet where
  words : List String
  increasing : words.Pairwise (· < ·)
  deriving DecidableEq

namespace TagSet

/-- Puts a word into an increasing list, unless it is there. -/
def insertWord (word : String) : List String → List String
  | [] => [word]
  | first :: rest =>
    if word < first then word :: first :: rest
    else if word = first then first :: rest
    else first :: insertWord word rest

theorem mem_insertWord {word other : String} {words : List String} :
    other ∈ insertWord word words ↔ other = word ∨ other ∈ words := by
  induction words with
  | nil => simp [insertWord]
  | cons first rest ih => grind [insertWord]

theorem increasing_insertWord {word : String} {words : List String}
    (h : words.Pairwise (· < ·)) : (insertWord word words).Pairwise (· < ·) := by
  induction words with
  | nil => simp [insertWord]
  | cons first rest ih =>
    obtain ⟨hfirst, hrest⟩ := List.pairwise_cons.1 h
    unfold insertWord
    split
    · rename_i hlt
      refine List.pairwise_cons.2 ⟨fun other hother => ?_, h⟩
      rcases List.mem_cons.1 hother with rfl | hother
      · exact hlt
      · exact String.lt_trans hlt (hfirst other hother)
    · split
      · exact h
      · rename_i hlt hne
        refine List.pairwise_cons.2 ⟨fun other hother => ?_, ih hrest⟩
        rcases mem_insertWord.1 hother with rfl | hother
        · exact Std.lt_of_le_of_ne (String.not_lt.1 hlt) (Ne.symm hne)
        · exact hfirst other hother

/-- The set without members. -/
def empty : TagSet :=
  ⟨[], List.Pairwise.nil⟩

/-- The set with one word more. -/
def insert (set : TagSet) (word : String) : TagSet :=
  ⟨insertWord word set.words, increasing_insertWord set.increasing⟩

/-- The set of the words of a list. -/
def ofList (words : List String) : TagSet :=
  words.foldl insert empty

/-- Whether a word is a member. -/
def contains (set : TagSet) (word : String) : Bool :=
  set.words.contains word

theorem mem_foldl_insert {word : String} (words : List String) (set : TagSet) :
    word ∈ (words.foldl insert set).words ↔ word ∈ set.words ∨ word ∈ words := by
  induction words generalizing set with
  | nil => simp
  | cons first rest ih =>
    rw [List.foldl_cons, ih, insert, mem_insertWord, List.mem_cons]
    grind

theorem mem_ofList {word : String} {words : List String} :
    word ∈ (ofList words).words ↔ word ∈ words := by
  simp [ofList, mem_foldl_insert, empty]

/-- Two sets with the same members are equal. -/
theorem ext_of_mem {s t : TagSet} (h : ∀ word, word ∈ s.words ↔ word ∈ t.words) : s = t := by
  obtain ⟨s, hs⟩ := s
  obtain ⟨t, ht⟩ := t
  simp only [mk.injEq]
  simp only at h
  have perm : s.Perm t :=
    (List.perm_ext_iff_of_nodup (hs.imp fun {a b} hab => by rintro rfl; exact String.lt_irrefl a hab)
      (ht.imp fun {a b} hab => by rintro rfl; exact String.lt_irrefl a hab)).2 h
  exact perm.eq_of_pairwise (fun a b _ _ hab hba => absurd hba (String.lt_asymm hab)) hs ht

/-- The listing of a set gives the set back. -/
theorem ofList_words (set : TagSet) : ofList set.words = set :=
  ext_of_mem fun _ => mem_ofList

end TagSet
end ExportIndex
