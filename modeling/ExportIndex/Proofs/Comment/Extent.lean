import ExportIndex.Comment

/-!
# How far a comment reaches

A comment is read from behind its first slash.  Where it ends is decided by its own characters alone:
a line comment ends with its first line feed, a block with its first `*/`.

* `after?` is what follows the comment that a text opens with; `IsBody` says that a text is one
  comment and nothing more.
* `tagsOf` lists the tags that a comment adds: the words of a `/**` block outside all brackets.  A block
  that the text breaks off adds `brokenTagsOf`: the words that a blank has ended.
* `read_body` — a comment is read to its end, whatever stands before and behind it.
* `read_malformed` and `read_unterminated` are the two ways in which reading fails; with
  `exists_body` they cover every text, so no step back is ever refused.
-/

namespace ExportIndex
namespace Comment

open Text (isBlank)

/-- What follows the first line feed of a text. -/
def afterFeed? : List Char → Option (List Char)
  | [] => none
  | c :: text => if c = '\n' then some text else afterFeed? text

/-- What follows the first star with a slash behind it. -/
def afterClose? : List Char → Option (List Char)
  | [] => none
  | [_] => none
  | c :: d :: text => if c = '*' ∧ d = '/' then some text else afterClose? (d :: text)

/-- What follows the comment whose first slash stands just before the text. -/
def after? : List Char → Option (List Char)
  | '/' :: text => afterFeed? text
  | '*' :: text => afterClose? text
  | _ => none

/-- Whether a text is one whole comment, seen from behind its first slash. -/
def IsBody (body : List Char) : Prop :=
  after? body = some []

/-- The words of a text that are not made of stars alone. -/
def words (text : List Char) : List String :=
  ((text.splitOnP isBlank).map String.ofList).filter fun word => !word.toList.all (· == '*')

/-- The tags that a whole comment adds when `nesting` brackets are open around it. -/
def tagsOf (nesting : Nat) : List Char → List String
  | '*' :: '*' :: text => if nesting = 0 then words text.dropLast.dropLast else []
  | _ => []

/-- The words of a text that a blank ends, without those made of stars alone. -/
def endedWords (text : List Char) : List String :=
  ((text.splitOnP isBlank).dropLast.map String.ofList).filter fun word =>
    !word.toList.all (· == '*')

/-- The tags that a comment adds which the text breaks off. -/
def brokenTagsOf (nesting : Nat) : List Char → List String
  | '*' :: '*' :: text => if nesting = 0 then endedWords text else []
  | _ => []

/-! ### Splitting a text behind its comment -/

theorem exists_of_afterFeed? {text rest : List Char} (h : afterFeed? text = some rest) :
    ∃ body, text = body ++ rest ∧ afterFeed? body = some [] := by
  fun_induction afterFeed? text with
  | case1 => contradiction
  | case2 text =>
      obtain rfl : text = rest := by simpa using h
      exact ⟨['\n'], rfl, by simp [afterFeed?]⟩
  | case3 c text hc ih =>
      obtain ⟨body, rfl, hbody⟩ := ih h
      exact ⟨c :: body, rfl, by simpa [afterFeed?, hc] using hbody⟩

theorem exists_of_afterClose? {text rest : List Char} (h : afterClose? text = some rest) :
    ∃ body, text = body ++ rest ∧ afterClose? body = some [] := by
  fun_induction afterClose? text with
  | case1 => contradiction
  | case2 => contradiction
  | case3 c d text hcd =>
      obtain rfl : text = rest := by simpa using h
      exact ⟨[c, d], rfl, by simp [afterClose?, hcd]⟩
  | case4 c d text hcd ih =>
      obtain ⟨body, htext, hbody⟩ := ih h
      cases body with
      | nil => simp [afterClose?] at hbody
      | cons e body =>
          obtain ⟨rfl, rfl⟩ : d = e ∧ text = body ++ rest := by simpa using htext
          exact ⟨c :: d :: body, rfl, by rw [afterClose?, if_neg hcd, hbody]⟩

/-- A text that goes on behind its comment splits there. -/
theorem exists_body {text rest : List Char} (h : after? text = some rest) :
    ∃ body, text = body ++ rest ∧ IsBody body := by
  unfold after? at h
  split at h
  · obtain ⟨body, rfl, hbody⟩ := exists_of_afterFeed? h
    exact ⟨'/' :: body, rfl, hbody⟩
  · obtain ⟨body, rfl, hbody⟩ := exists_of_afterClose? h
    exact ⟨'*' :: body, rfl, hbody⟩
  · contradiction

theorem afterFeed?_append {body : List Char} (h : afterFeed? body = some []) (rest : List Char) :
    afterFeed? (body ++ rest) = some rest := by
  fun_induction afterFeed? body with
  | case1 => contradiction
  | case2 text =>
      obtain rfl : text = [] := by simpa using h
      exact if_pos rfl
  | case3 c text hc ih =>
      rw [List.cons_append, afterFeed?, if_neg hc]
      exact ih h

theorem afterClose?_append {body : List Char} (h : afterClose? body = some []) (rest : List Char) :
    afterClose? (body ++ rest) = some rest := by
  fun_induction afterClose? body with
  | case1 => contradiction
  | case2 => contradiction
  | case3 c d text hcd =>
      obtain rfl : text = [] := by simpa using h
      exact if_pos hcd
  | case4 c d text hcd ih =>
      rw [List.cons_append, List.cons_append, afterClose?, if_neg hcd]
      exact ih h

/-- Behind a whole comment follows what stands behind it. -/
theorem IsBody.after?_append {body : List Char} (h : IsBody body) (rest : List Char) :
    after? (body ++ rest) = some rest := by
  unfold IsBody after? at h
  split at h
  · exact afterFeed?_append h rest
  · exact afterClose?_append h rest
  · contradiction

/-- A block that is closed ends in a star and a slash. -/
theorem exists_inner {text : List Char} (h : afterClose? text = some []) :
    ∃ inner, text = inner ++ ['*', '/'] := by
  fun_induction afterClose? text with
  | case1 => contradiction
  | case2 => contradiction
  | case3 c d text hcd =>
      obtain rfl : text = [] := by simpa using h
      exact ⟨[], by rw [hcd.1, hcd.2]; rfl⟩
  | case4 c d text hcd ih =>
      obtain ⟨inner, hinner⟩ := ih h
      exact ⟨c :: inner, by rw [hinner]; rfl⟩

theorem getLast?_of_afterFeed? {text : List Char} (h : afterFeed? text = some []) :
    text.getLast? = some '\n' := by
  fun_induction afterFeed? text with
  | case1 => contradiction
  | case2 text =>
      obtain rfl : text = [] := by simpa using h
      rfl
  | case3 c text hc ih => rw [List.getLast?_cons, ih h, Option.getD_some]

/-- A comment ends in a line feed or a slash. -/
theorem IsBody.getLast? {body : List Char} (h : IsBody body) :
    body.getLast? = some '\n' ∨ body.getLast? = some '/' := by
  unfold IsBody after? at h
  split at h
  · left
    rw [List.getLast?_cons, getLast?_of_afterFeed? h, Option.getD_some]
  · obtain ⟨inner, rfl⟩ := exists_inner h
    right
    simp [List.getLast?_cons]
  · contradiction

/-- A block that no star and slash close is not closed behind its first character either, and no slash
follows that if it is a star. -/
theorem afterClose?_cons_eq_none {c : Char} {text : List Char} (h : afterClose? (c :: text) = none) :
    afterClose? text = none ∧ (c = '*' → text.head? ≠ some '/') := by
  cases text with
  | nil => exact ⟨rfl, fun _ => nofun⟩
  | cons d text =>
      rw [afterClose?] at h
      split at h
      · contradiction
      · rename_i hcd
        exact ⟨h, fun hc hd => hcd ⟨hc, by simpa using hd⟩⟩

/-- A star that does not end a text has another character than a slash behind it. -/
theorem exists_of_open {c : Char} {text : List Char} (h : c = '*' → text.head? ≠ some '/')
    (hlast : ¬(c = '*' ∧ text = [])) (hc : c = '*') : ∃ d more, text = d :: more ∧ d ≠ '/' := by
  cases text with
  | nil => exact absurd ⟨hc, rfl⟩ hlast
  | cons d more => exact ⟨d, more, rfl, fun hd => h hc (congrArg some hd)⟩

/-! ### The loops -/

theorem readLine_done {tags : List String} {r : Reader} {reading : Reading}
    (h : lineTurn tags r = .done reading) : readLine tags r = reading := by
  rw [readLine]
  split <;> simp_all

theorem readLine_again {tags : List String} {r r' : Reader}
    (h : lineTurn tags r = .again r') : readLine tags r = readLine tags r' := by
  rw [readLine]
  split <;> simp_all

theorem readBlock_done {tags : List String} {r : Reader} {reading : Reading}
    (h : blockTurn tags r = .done reading) : readBlock tags r = reading := by
  rw [readBlock]
  split <;> simp_all

theorem readBlock_again {tags : List String} {r r' : Reader}
    (h : blockTurn tags r = .again r') : readBlock tags r = readBlock tags r' := by
  rw [readBlock]
  split <;> simp_all

theorem readTags_done {s : TagState} {reading : Reading} (h : tagTurn s = .done reading) :
    readTags s = reading := by
  rw [readTags]
  split <;> simp_all

theorem readTags_again {s s' : TagState} (h : tagTurn s = .again s') :
    readTags s = readTags s' := by
  rw [readTags]
  split <;> simp_all

/-- A line comment is read through its line feed. -/
theorem readLine_append {body : List Char} (h : afterFeed? body = some []) (tags : List String)
    (past rest : List Char) (undoable : Bool) :
    readLine tags ⟨past, body ++ rest, undoable⟩ =
      ⟨none, tags, ⟨body.reverse ++ past, rest, true⟩⟩ := by
  fun_induction afterFeed? body generalizing past undoable with
  | case1 => contradiction
  | case2 text =>
      obtain rfl : text = [] := by simpa using h
      exact readLine_done (by simp [lineTurn, Reader.next?])
  | case3 c text hc ih =>
      have hturn : lineTurn tags ⟨past, c :: text ++ rest, undoable⟩ =
          .again ⟨c :: past, text ++ rest, true⟩ := by
        simp [lineTurn, Reader.next?, hc]
      rw [readLine_again hturn, ih h]
      simp

theorem readLine_unterminated {text : List Char} (h : afterFeed? text = none)
    (tags : List String) (past : List Char) (undoable : Bool) :
    ∃ v, readLine tags ⟨past, text, undoable⟩ =
      ⟨some .unterminated, tags, ⟨text.reverse ++ past, [], v⟩⟩ := by
  fun_induction afterFeed? text generalizing past undoable with
  | case1 => exact ⟨undoable, readLine_done rfl⟩
  | case2 => contradiction
  | case3 c text hc ih =>
      have hturn : lineTurn tags ⟨past, c :: text, undoable⟩ = .again ⟨c :: past, text, true⟩ := by
        simp [lineTurn, Reader.next?, hc]
      rw [readLine_again hturn]
      simpa using ih h (c :: past) true

/-- A character is taken for itself, unless it is a star with a slash or with nothing behind it. -/
theorem blockTurn_again {c : Char} {text : List Char}
    (h : c = '*' → ∃ d more, text = d :: more ∧ d ≠ '/') (tags : List String) (past : List Char)
    (undoable : Bool) :
    ∃ v, blockTurn tags ⟨past, c :: text, undoable⟩ = .again ⟨c :: past, text, v⟩ := by
  by_cases hc : c = '*'
  · obtain ⟨d, more, rfl, hd⟩ := h hc
    exact ⟨false, by simp [blockTurn, Reader.next?, Reader.undo?, hc, hd]⟩
  · exact ⟨true, by simp [blockTurn, Reader.next?, hc]⟩

/-- A block is read through its first star with a slash behind it. -/
theorem readBlock_append {body : List Char} (h : afterClose? body = some []) (tags : List String)
    (past rest : List Char) (undoable : Bool) :
    readBlock tags ⟨past, body ++ rest, undoable⟩ =
      ⟨none, tags, ⟨body.reverse ++ past, rest, true⟩⟩ := by
  fun_induction afterClose? body generalizing past undoable with
  | case1 => contradiction
  | case2 => contradiction
  | case3 c d text hcd =>
      obtain rfl : text = [] := by simpa using h
      exact readBlock_done (by simp [blockTurn, Reader.next?, hcd])
  | case4 c d text hcd ih =>
      have hstar : c = '*' → ∃ e more, d :: text ++ rest = e :: more ∧ e ≠ '/' :=
        fun hc => ⟨d, text ++ rest, rfl, fun hd => hcd ⟨hc, hd⟩⟩
      obtain ⟨v, hturn⟩ := blockTurn_again hstar tags past undoable
      rw [List.cons_append, readBlock_again hturn, ih h]
      simp

theorem readBlock_unterminated {text : List Char} (h : afterClose? text = none)
    (tags : List String) (past : List Char) (undoable : Bool) :
    ∃ v, readBlock tags ⟨past, text, undoable⟩ =
      ⟨some .unterminated, tags, ⟨text.reverse ++ past, [], v⟩⟩ := by
  induction text generalizing past undoable with
  | nil => exact ⟨undoable, readBlock_done rfl⟩
  | cons c text ih =>
      obtain ⟨hrest, hopen⟩ := afterClose?_cons_eq_none h
      by_cases hlast : c = '*' ∧ text = []
      · obtain ⟨rfl, rfl⟩ := hlast
        exact ⟨true, readBlock_done rfl⟩
      · obtain ⟨v, hturn⟩ := blockTurn_again (exists_of_open hopen hlast) tags past undoable
        rw [readBlock_again hturn]
        simpa using ih hrest (c :: past) v

/-! ### The words of a tag block -/

/-- A blank divides a text into two that have their words apart. -/
theorem words_append {blank : Char} (h : isBlank blank = true) (before after : List Char) :
    words (before ++ blank :: after) = words before ++ words after := by
  simp [words, List.splitOnP_append_cons before after h]

/-- A text without blanks is one word. -/
theorem words_of_not_blank {word : List Char} (h : ∀ c ∈ word, isBlank c = false) :
    words word = if word.all (· == '*') then [] else [String.ofList word] := by
  rw [words, List.splitOnP_eq_singleton h]
  by_cases hstars : word.all (· == '*') = true
  · simp [hstars]
  · simp [hstars]

theorem addTag_eq {word : String} (h : ∀ c ∈ word.toList, isBlank c = false) (tags : List String) :
    addTag tags word = tags ++ words word.toList := by
  rw [addTag, words_of_not_blank h]
  split
  · rw [List.append_nil]
  · rw [String.ofList_toList]

theorem dropLast_dropLast_append (inner : List Char) :
    (inner ++ ['*', '/']).dropLast.dropLast = inner := by
  rw [List.append_cons, List.dropLast_concat, List.dropLast_concat]

/-- The character in front of a closed block belongs to its text. -/
theorem dropLast_dropLast_cons {text : List Char} (h : afterClose? text = some []) (c : Char) :
    (c :: text).dropLast.dropLast = c :: text.dropLast.dropLast := by
  obtain ⟨inner, rfl⟩ := exists_inner h
  rw [← List.cons_append, dropLast_dropLast_append, dropLast_dropLast_append]

/-- Inside brackets no comment adds tags. -/
theorem tagsOf_of_ne {nesting : Nat} (h : nesting ≠ 0) (body : List Char) : tagsOf nesting body = [] := by
  unfold tagsOf
  split
  · exact if_neg h
  · rfl

/-- Outside all brackets a comment is a tag block and adds the words between its stars, or it does not
begin like one (`/**/` is an empty block) and adds none. -/
theorem IsBody.tagsOf_zero {body : List Char} (h : IsBody body) :
    (∃ inner, body = '*' :: '*' :: (inner ++ ['*', '/']) ∧ tagsOf 0 body = words inner) ∨
      (∀ more, body = '*' :: '*' :: more → more = ['/']) ∧ tagsOf 0 body = [] := by
  by_cases hstars : ∃ text, body = '*' :: '*' :: text
  · obtain ⟨text, rfl⟩ := hstars
    have hclosed : afterClose? ('*' :: text) = some [] := h
    cases text with
    | nil => simp [afterClose?] at hclosed
    | cons c text =>
        by_cases hc : c = '/'
        · obtain ⟨rfl, rfl⟩ : c = '/' ∧ text = [] := ⟨hc, by simpa [afterClose?, hc] using hclosed⟩
          exact .inr ⟨fun more hmore => by simpa using hmore.symm, by decide⟩
        · rw [afterClose?, if_neg (by simp [hc])] at hclosed
          obtain ⟨inner, hinner⟩ := exists_inner hclosed
          rw [hinner]
          exact .inl ⟨inner, rfl, congrArg words (dropLast_dropLast_append inner)⟩
  · refine .inr ⟨fun more hmore => absurd ⟨more, hmore⟩ hstars, ?_⟩
    unfold tagsOf
    split
    · exact absurd ⟨_, rfl⟩ hstars
    · rfl

theorem endedWords_of_not_blank {word : List Char} (h : ∀ c ∈ word, isBlank c = false) :
    endedWords word = [] := by
  rw [endedWords, List.splitOnP_eq_singleton h]
  rfl

/-- A blank ends the words before it. -/
theorem endedWords_append {blank : Char} (h : isBlank blank = true) (before after : List Char) :
    endedWords (before ++ blank :: after) = words before ++ endedWords after := by
  rw [endedWords, List.splitOnP_append_cons before after h,
    List.dropLast_append_of_ne_nil (List.splitOnP_ne_nil isBlank after), List.map_append,
    List.filter_append, words, endedWords]

/-- A blank ends the word before it. -/
theorem tagTurn_blank {c : Char} (h : isBlank c = true) (word : String) (tags : List String)
    (past text : List Char) (undoable : Bool) :
    tagTurn ⟨word, tags, ⟨past, c :: text, undoable⟩⟩ =
      .again ⟨"", addTag tags word, ⟨c :: past, text, true⟩⟩ := by
  simp [tagTurn, Reader.next?, h]

/-- Any other character belongs to the word, unless it is a star with a slash or with nothing behind
it. -/
theorem tagTurn_again {c : Char} {text : List Char} (hblank : isBlank c = false)
    (h : c = '*' → ∃ d more, text = d :: more ∧ d ≠ '/') (word : String) (tags : List String)
    (past : List Char) (undoable : Bool) :
    ∃ v, tagTurn ⟨word, tags, ⟨past, c :: text, undoable⟩⟩ =
      .again ⟨word.push c, tags, ⟨c :: past, text, v⟩⟩ := by
  by_cases hc : c = '*'
  · obtain ⟨d, more, rfl, hd⟩ := h hc
    subst hc
    exact ⟨false, by simp [tagTurn, Reader.next?, Reader.undo?, hblank, hd]⟩
  · exact ⟨true, by simp [tagTurn, Reader.next?, hblank, hc]⟩

/-- A word goes on with a character that is no blank. -/
theorem not_blank_push {word : String} (hword : ∀ c ∈ word.toList, isBlank c = false) {c : Char}
    (hc : isBlank c = false) : ∀ d ∈ (word.push c).toList, isBlank d = false := by
  intro d hd
  rw [String.toList_push, List.mem_append, List.mem_singleton] at hd
  rcases hd with hd | rfl
  · exact hword d hd
  · exact hc

/-- A tag block is read to its end and adds its words; `word` is what has been read of the first. -/
theorem readTags_append {body : List Char} (h : afterClose? body = some []) {word : String}
    (hword : ∀ c ∈ word.toList, isBlank c = false) (tags : List String) (past rest : List Char)
    (undoable : Bool) :
    readTags ⟨word, tags, ⟨past, body ++ rest, undoable⟩⟩ =
      ⟨none, tags ++ words (word.toList ++ body.dropLast.dropLast),
        ⟨body.reverse ++ past, rest, true⟩⟩ := by
  fun_induction afterClose? body generalizing word tags past undoable with
  | case1 => contradiction
  | case2 => contradiction
  | case3 c d text hcd =>
      obtain rfl : text = [] := by simpa using h
      obtain ⟨rfl, rfl⟩ := hcd
      have hstar : isBlank '*' = false := by decide
      have hturn : tagTurn ⟨word, tags, ⟨past, ['*', '/'] ++ rest, undoable⟩⟩ =
          .done ⟨none, addTag tags word, ⟨'/' :: '*' :: past, rest, true⟩⟩ := by
        simp [tagTurn, Reader.next?, hstar]
      rw [readTags_done hturn, addTag_eq hword]
      simp
  | case4 c d text hcd ih =>
      rw [dropLast_dropLast_cons h c]
      by_cases hblank : isBlank c = true
      · rw [List.cons_append, readTags_again (tagTurn_blank hblank word tags past _ undoable),
          ih h (by simp), words_append hblank, addTag_eq hword]
        simp
      · rw [Bool.not_eq_true] at hblank
        have hstar : c = '*' → ∃ e more, d :: text ++ rest = e :: more ∧ e ≠ '/' :=
          fun hc => ⟨d, text ++ rest, rfl, fun hd => hcd ⟨hc, hd⟩⟩
        obtain ⟨v, hturn⟩ := tagTurn_again hblank hstar word tags past undoable
        rw [List.cons_append, readTags_again hturn, ih h (not_blank_push hword hblank)]
        simp

/-- A tag block that is not closed is read through to the end of the text and adds the words that a
blank has ended. -/
theorem readTags_unterminated {text : List Char} (h : afterClose? text = none) {word : String}
    (hword : ∀ c ∈ word.toList, isBlank c = false) (tags : List String) (past : List Char)
    (undoable : Bool) :
    ∃ v, readTags ⟨word, tags, ⟨past, text, undoable⟩⟩ =
      ⟨some .unterminated, tags ++ endedWords (word.toList ++ text),
        ⟨text.reverse ++ past, [], v⟩⟩ := by
  induction text generalizing word tags past undoable with
  | nil =>
      rw [List.append_nil, endedWords_of_not_blank hword, List.append_nil]
      exact ⟨undoable, readTags_done rfl⟩
  | cons c text ih =>
      obtain ⟨hrest, hopen⟩ := afterClose?_cons_eq_none h
      by_cases hblank : isBlank c = true
      · rw [readTags_again (tagTurn_blank hblank word tags past text undoable),
          endedWords_append hblank, addTag_eq hword]
        have hempty : ∀ e ∈ "".toList, isBlank e = false := by simp
        simpa using ih hrest hempty (tags ++ words word.toList) (c :: past) true
      · rw [Bool.not_eq_true] at hblank
        have hword' := not_blank_push hword hblank
        by_cases hlast : c = '*' ∧ text = []
        · obtain ⟨rfl, rfl⟩ := hlast
          rw [← String.toList_push, endedWords_of_not_blank hword', List.append_nil]
          exact ⟨true, readTags_done rfl⟩
        · obtain ⟨v, hturn⟩ :=
            tagTurn_again hblank (exists_of_open hopen hlast) word tags past undoable
          rw [readTags_again hturn]
          simpa using ih hrest hword' tags (c :: past) v

/-! ### The whole comment -/

theorem readTagBlock_append {text : List Char} (h : afterClose? ('*' :: text) = some [])
    (tags : List String) (past rest : List Char) (undoable : Bool) :
    readTagBlock tags ⟨past, text ++ rest, undoable⟩ =
      ⟨none, tags ++ words text.dropLast.dropLast, ⟨text.reverse ++ past, rest, true⟩⟩ := by
  cases text with
  | nil => simp [afterClose?] at h
  | cons c text =>
      by_cases hc : c = '/'
      · obtain rfl : text = [] := by simpa [afterClose?, hc] using h
        have hnone : words [] = [] := by decide
        simp [readTagBlock, Reader.next?, hc, hnone]
      · rw [afterClose?, if_neg (by simp [hc])] at h
        have hempty : ∀ e ∈ "".toList, isBlank e = false := by simp
        have hread := readTags_append h hempty tags past rest false
        simpa [readTagBlock, Reader.next?, Reader.undo?, hc] using hread

theorem readTagBlock_unterminated {text : List Char} (h : afterClose? ('*' :: text) = none)
    (tags : List String) (past : List Char) (undoable : Bool) :
    ∃ v, readTagBlock tags ⟨past, text, undoable⟩ =
      ⟨some .unterminated, tags ++ endedWords text, ⟨text.reverse ++ past, [], v⟩⟩ := by
  obtain ⟨hrest, hopen⟩ := afterClose?_cons_eq_none h
  cases text with
  | nil => exact ⟨undoable, by rw [endedWords_of_not_blank (by simp), List.append_nil]; rfl⟩
  | cons c text =>
      have hc : c ≠ '/' := fun hc => hopen rfl (congrArg some hc)
      have hempty : ∀ e ∈ "".toList, isBlank e = false := by simp
      simpa [readTagBlock, Reader.next?, Reader.undo?, hc] using
        readTags_unterminated hrest hempty tags past false

/-- Inside brackets, and in any other comment than a tag block, no tags are added. -/
theorem tagsOf_of_not {nesting : Nat} {d : Char} (h : ¬(d = '*' ∧ nesting = 0)) (text : List Char) :
    tagsOf nesting ('*' :: d :: text) = [] := by
  unfold tagsOf
  split
  · rename_i heq
    rw [if_neg fun hn => h ⟨by simpa using (List.cons.inj (List.cons.inj heq).2).1, hn⟩]
  · rfl

theorem brokenTagsOf_of_not {nesting : Nat} {d : Char} (h : ¬(d = '*' ∧ nesting = 0))
    (text : List Char) : brokenTagsOf nesting ('*' :: d :: text) = [] := by
  unfold brokenTagsOf
  split
  · rename_i heq
    rw [if_neg fun hn => h ⟨by simpa using (List.cons.inj (List.cons.inj heq).2).1, hn⟩]
  · rfl

/-- A whole comment is read to its end and adds its tags, whatever stands before and behind it. -/
theorem read_body {body : List Char} (h : IsBody body) (nesting : Nat) (tags : List String)
    (past rest : List Char) (undoable : Bool) :
    read nesting tags ⟨past, body ++ rest, undoable⟩ =
      ⟨none, tags ++ tagsOf nesting body, ⟨body.reverse ++ past, rest, true⟩⟩ := by
  unfold IsBody after? at h
  split at h
  · rename_i text
    simpa [read, Reader.next?, tagsOf] using readLine_append h tags ('/' :: past) rest true
  · rename_i text
    cases text with
    | nil => simp [afterClose?] at h
    | cons d text =>
        -- Inside brackets a second star is taken back and read as part of a plain block.
        by_cases htag : d = '*' ∧ nesting = 0
        · obtain ⟨rfl, rfl⟩ := htag
          simpa [read, Reader.next?, tagsOf] using
            readTagBlock_append h tags ('*' :: '*' :: past) rest true
        · rw [tagsOf_of_not htag]
          simpa [read, Reader.next?, Reader.undo?, htag] using
            readBlock_append h tags ('*' :: past) rest false
  · contradiction

/-- A slash before any other character than a slash or a star opens no comment. -/
theorem read_malformed {c : Char} (hslash : c ≠ '/') (hstar : c ≠ '*') (nesting : Nat)
    (tags : List String) (past rest : List Char) (undoable : Bool) :
    read nesting tags ⟨past, c :: rest, undoable⟩ =
      ⟨some (.flawed .malformedComment), tags, ⟨c :: past, rest, true⟩⟩ := by
  simp [read, Reader.next?, hslash, hstar]

/-- A comment that the text breaks off is read through to the end of the text. -/
theorem read_unterminated {text : List Char} (h : after? text = none)
    (hopen : ∀ c rest, text = c :: rest → c = '/' ∨ c = '*') (nesting : Nat) (tags : List String)
    (past : List Char) (undoable : Bool) :
    ∃ v, read nesting tags ⟨past, text, undoable⟩ =
      ⟨some .unterminated, tags ++ brokenTagsOf nesting text, ⟨text.reverse ++ past, [], v⟩⟩ := by
  cases text with
  | nil => exact ⟨undoable, by simp [read, Reader.next?, brokenTagsOf]⟩
  | cons c text =>
      rcases hopen c text rfl with rfl | rfl
      · simpa [read, Reader.next?, brokenTagsOf] using
          readLine_unterminated h tags ('/' :: past) true
      · cases text with
        | nil => exact ⟨true, by simp [read, Reader.next?, brokenTagsOf]⟩
        | cons d text =>
            by_cases htag : d = '*' ∧ nesting = 0
            · obtain ⟨rfl, rfl⟩ := htag
              simpa [read, Reader.next?, brokenTagsOf] using
                readTagBlock_unterminated h tags ('*' :: '*' :: past) true
            · rw [brokenTagsOf_of_not htag, List.append_nil]
              simpa [read, Reader.next?, Reader.undo?, htag] using
                readBlock_unterminated h tags ('*' :: past) false

end Comment
end ExportIndex
