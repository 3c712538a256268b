import Mathlib.Data.List.TakeWhile
import ExportIndex.Proofs.Json.Reader

/-!
# What is written is read again

A document that is written over several lines is read as the same document.

* `Json.value` is what a document stands for, and `tokensOf` the tokens it is written with.
* `readText_escape` — the characters of a text are found again behind their escapes; `number?_toDigits`
  does the same for the digits of a number.
* `tokens_prettyAt` goes from the written text to its tokens, and `foldlM_tokensOf` from the tokens to
  the value, both by recursion on the document.
* `read?_pretty` joins the two.
-/

namespace ExportIndex
namespace Json

/-! ### Documents as values -/

mutual

/-- What a document stands for. -/
def value : Json → Value
  | .text s => .text s
  | .number n => .number (mkRat n 1)
  | .list items => .list (valuesOf items)
  | .object members => .object (memberValues members)

/-- What the items of a list stand for. -/
def valuesOf : List Json → List Value
  | [] => []
  | item :: rest => value item :: valuesOf rest

/-- What the members of an object stand for. -/
def memberValues : List (String × Json) → List (String × Value)
  | [] => []
  | (key, item) :: rest => (key, value item) :: memberValues rest

end

theorem value_text (s : String) : value (.text s) = .text s := by
  rw [value]

theorem value_number (n : Nat) : value (.number n) = .number n := by
  rw [value, Rat.mkRat_one]
  rfl

theorem value_list (items : List Json) : value (.list items) = .list (valuesOf items) := by
  rw [value]

/-- The items of a list stand each for its own value. -/
theorem valuesOf_map {α : Type} {encode : α → Json} {document : α → Value}
    (h : ∀ a, value (encode a) = document a) (items : List α) :
    valuesOf (items.map encode) = items.map document := by
  induction items with
  | nil => rfl
  | cons a rest ih => rw [List.map_cons, valuesOf, h, ih, List.map_cons]

theorem memberValues_eq_map (members : List (String × Json)) :
    memberValues members = members.map fun member => (member.1, value member.2) := by
  induction members with
  | nil => rfl
  | cons member rest ih => rw [memberValues, ih, List.map_cons]

mutual

/-- The tokens that a document is written with. -/
def tokensOf : Json → List Token
  | .text s => [.text s]
  | .number n => [.number (mkRat n 1)]
  | .list [] => [.openList, .closeList]
  | .list (first :: rest) => .openList :: (tokensOf first ++ itemTokens rest ++ [.closeList])
  | .object [] => [.openObject, .closeObject]
  | .object ((key, first) :: rest) =>
    .openObject :: .text key :: .colon :: (tokensOf first ++ memberTokens rest ++ [.closeObject])

/-- The tokens of the items of a list behind its first. -/
def itemTokens : List Json → List Token
  | [] => []
  | item :: rest => .comma :: (tokensOf item ++ itemTokens rest)

/-- The tokens of the members of an object behind its first. -/
def memberTokens : List (String × Json) → List Token
  | [] => []
  | (key, item) :: rest => .comma :: .text key :: .colon :: (tokensOf item ++ memberTokens rest)

end

/-! ### Texts -/

theorem hexValue?_hexDigit : ∀ n < 16, hexValue? (hexDigit n) = some n := by
  decide

theorem codeUnit?_hexDigit {n : Nat} (h : n < 0x20) (rest : List Char) :
    codeUnit? ('0' :: '0' :: hexDigit (n / 16) :: hexDigit (n % 16) :: rest) = some (n, rest) := by
  have hzero : hexValue? '0' = some 0 := by
    decide
  rw [codeUnit?, hzero, hexValue?_hexDigit (n / 16) (by omega),
    hexValue?_hexDigit (n % 16) (by omega)]
  simp only [Option.some.injEq, Prod.mk.injEq, and_true]
  omega

theorem readText_escaped {text later : List Char} {c : Char}
    (h : escaped? text = some (c, later)) :
    readText ('\\' :: text) = (readText later).map fun (body, behind) => (c :: body, behind) := by
  rw [readText, if_neg (by decide), if_pos rfl]
  split
  · rename_i hnone
    rw [h] at hnone
    contradiction
  · rename_i d behind hsome
    rw [h] at hsome
    injection hsome with hsome
    rw [(Prod.mk.inj hsome).1, (Prod.mk.inj hsome).2]

/-- A character is read back from the way it is written. -/
theorem readText_escapeChar (c : Char) (rest : List Char) :
    readText (escapeChar c ++ rest) =
      (readText rest).map fun (body, behind) => (c :: body, behind) := by
  unfold escapeChar
  -- Seven characters have a letter of their own.
  iterate 7
    split
    · subst c
      exact readText_escaped rfl
  split
  · rename_i hlow
    refine readText_escaped ?_
    change unicode? ('0' :: '0' :: _ :: _ :: rest) = _
    rw [unicode?, codeUnit?_hexDigit hlow]
    simp only
    rw [if_neg (by omega), if_neg (by omega), Char.ofNat_toNat]
  · rename_i hquote hslash _ _ _ _ _ hlow
    change readText (c :: rest) = _
    rw [readText, if_neg hquote, if_neg hslash, if_neg hlow]

theorem readText_escape (text rest : List Char) :
    readText (text.flatMap escapeChar ++ '"' :: rest) = some (text, rest) := by
  induction text with
  | nil => simp [readText]
  | cons c text ih =>
      rw [List.flatMap_cons, List.append_assoc, readText_escapeChar, ih]
      rfl

/-! ### Numbers -/

theorem isDigit_of_mem_toDigits {n : Nat} {c : Char} (h : c ∈ Nat.toDigits 10 n) :
    c.isDigit = true :=
  Nat.isDigit_of_mem_toDigits (by omega) (by omega) h

theorem ne_of_isDigit {c d : Char} (hc : c.isDigit = true) (hd : d.isDigit = false) : c ≠ d := by
  rintro rfl
  rw [hc] at hd
  contradiction

/-- Only zero is written with a zero in front. -/
theorem head?_toDigits {n : Nat} (h : (Nat.toDigits 10 n).head? = some '0') : n = 0 := by
  induction n using Nat.strongRecOn with
  | ind n ih =>
      have hsmall : ∀ n < 10, [n.digitChar].head? = some '0' → n = 0 := by
        decide
      by_cases hn : n < 10
      · rw [Nat.toDigits_of_lt_base hn] at h
        exact hsmall n hn h
      · have hsplit := Nat.toDigits_of_base_le (b := 10) (by omega) (Nat.le_of_not_lt hn)
        rw [hsplit, List.head?_append] at h
        cases hhead : (Nat.toDigits 10 (n / 10)).head? with
        | none => exact absurd (List.head?_eq_none_iff.1 hhead) Nat.toDigits_ne_nil
        | some c =>
            rw [hhead, Option.some_or] at h
            have := ih (n / 10) (by omega) (hhead.trans h)
            omega

theorem whole?_toDigits (n : Nat) : whole? (Nat.toDigits 10 n) = some (Nat.toDigits 10 n) := by
  refine if_pos ⟨Nat.toDigits_ne_nil, List.all_eq_true.2 fun c => isDigit_of_mem_toDigits, ?_⟩
  intro hzero
  rw [head?_toDigits hzero]
  rfl

/-- A number is read back from its digits. -/
theorem number?_toDigits (n : Nat) : number? (Nat.toDigits 10 n) = some (mkRat n 1) := by
  have hdigit {c : Char} (hc : c ∈ Nat.toDigits 10 n) : c.isDigit = true := isDigit_of_mem_toDigits hc
  have hsign : number? (Nat.toDigits 10 n) = unsigned? false (Nat.toDigits 10 n) := by
    unfold number?
    split
    · rename_i rest heq
      have := hdigit (c := '-') (by simp [heq])
      contradiction
    · rfl
  have hletter : ∀ c ∈ Nat.toDigits 10 n, (!(c == 'e' || c == 'E')) = true := by
    intro c hc
    simp [ne_of_isDigit (hdigit hc) (d := 'e') (by decide),
      ne_of_isDigit (hdigit hc) (d := 'E') (by decide)]
  have hpoint : ∀ c ∈ Nat.toDigits 10 n, (c != '.') = true := by
    intro c hc
    simp [ne_of_isDigit (hdigit hc) (d := '.') (by decide)]
  rw [hsign, unsigned?]
  simp only [List.takeWhile_eq_self_iff.2 hletter, List.dropWhile_eq_nil_iff.2 hletter,
    List.takeWhile_eq_self_iff.2 hpoint, List.dropWhile_eq_nil_iff.2 hpoint, whole?_toDigits,
    fraction?, exponent?]
  simp [scaled, Nat.ofDigitChars_ten_toDigits]

/-! ### Tokens -/

/-- A text that a number cannot go on with. -/
def EndsNumber (rest : List Char) : Prop :=
  ∀ c ∈ rest.head?, isNumberChar c = false

theorem tokens_of_nil {text : List Char} (h : text.dropWhile isBlank = []) :
    tokens text = some [] := by
  rw [tokens.eq_def]
  split
  · rfl
  · rename_i hcons
    rw [h] at hcons
    contradiction

theorem tokens_of_cons {text rest : List Char} {c : Char}
    (h : text.dropWhile isBlank = c :: rest) :
    tokens text = (token? c rest).bind fun (token, later) => (tokens later).map (token :: ·) := by
  rw [tokens.eq_def]
  split
  · rename_i hnil
    rw [h] at hnil
    contradiction
  · rename_i d behind hcons
    rw [h] at hcons
    injection hcons with hhead htail
    subst hhead htail
    split <;> rename_i heq <;> rw [heq] <;> rfl

/-- A blank between tokens changes nothing. -/
theorem tokens_blank {c : Char} (h : isBlank c = true) (rest : List Char) :
    tokens (c :: rest) = tokens rest := by
  have hdrop : (c :: rest).dropWhile isBlank = rest.dropWhile isBlank :=
    List.dropWhile_cons_of_pos h
  cases hrest : rest.dropWhile isBlank with
  | nil => rw [tokens_of_nil hrest, tokens_of_nil (hdrop.trans hrest)]
  | cons d later => rw [tokens_of_cons hrest, tokens_of_cons (hdrop.trans hrest)]

theorem tokens_blanks {blanks : List Char} (h : ∀ c ∈ blanks, isBlank c = true) (rest : List Char) :
    tokens (blanks ++ rest) = tokens rest := by
  induction blanks with
  | nil => rfl
  | cons c blanks ih =>
      rw [List.cons_append, tokens_blank (h c List.mem_cons_self),
        ih fun d hd => h d (List.mem_cons_of_mem c hd)]

theorem tokens_token (c : Char) (token : Token) {rest later : List Char} (hc : isBlank c = false)
    (h : token? c rest = some (token, later)) :
    tokens (c :: rest) = (tokens later).map (token :: ·) := by
  rw [tokens_of_cons (List.dropWhile_cons_of_neg (by simp [hc])), h]
  rfl

/-- A line feed behind a document is blank. -/
theorem isBlank_of_mem_feed : ∀ c ∈ "\n".toList, isBlank c = true := by
  simp [isBlank]

theorem toList_newline (depth : Nat) :
    (newline depth).toList = '\n' :: List.replicate (2 * depth) ' ' := by
  simp [newline, String.toList_append]

theorem tokens_newline (depth : Nat) (rest : List Char) :
    tokens ((newline depth).toList ++ rest) = tokens rest := by
  refine tokens_blanks (fun c hc => ?_) rest
  rw [toList_newline] at hc
  rcases List.mem_cons.1 hc with rfl | hc
  · rfl
  · rw [List.eq_of_mem_replicate hc]
    rfl

theorem tokens_quote (s : String) (rest : List Char) :
    tokens ((quote s).toList ++ rest) = (tokens rest).map (.text s :: ·) := by
  have hquote : (quote s).toList ++ rest = '"' :: (s.toList.flatMap escapeChar ++ '"' :: rest) := by
    simp [quote, String.toList_append, String.toList_ofList]
  rw [hquote]
  refine tokens_token '"' (.text s) rfl ?_
  change (readText _).map _ = _
  rw [readText_escape, Option.map_some]
  simp only [String.ofList_toList]

/-- A token that begins with a digit is a number. -/
theorem token?_digit {c : Char} (h : c.isDigit = true) (rest : List Char) :
    token? c rest = (number? (c :: rest.takeWhile isNumberChar)).map
      (.number ·, rest.dropWhile isNumberChar) := by
  unfold token?
  split <;> first | rfl | exact absurd h (by decide)

theorem isNumberChar_of_isDigit {c : Char} (h : c.isDigit = true) : isNumberChar c = true := by
  simp [isNumberChar, h]

theorem tokens_number (n : Nat) {rest : List Char} (h : EndsNumber rest) :
    tokens ((toString n).toList ++ rest) = (tokens rest).map (.number (mkRat n 1) :: ·) := by
  have hdigits : (toString n).toList = Nat.toDigits 10 n := Nat.toList_repr
  have hall : ∀ c ∈ Nat.toDigits 10 n, isNumberChar c = true := fun c hc =>
    isNumberChar_of_isDigit (isDigit_of_mem_toDigits hc)
  have hrest : rest.takeWhile isNumberChar = [] ∧ rest.dropWhile isNumberChar = rest := by
    cases rest with
    | nil => exact ⟨rfl, rfl⟩
    | cons c rest =>
        have hc : ¬isNumberChar c = true := by simp [h c rfl]
        exact ⟨List.takeWhile_cons_of_neg hc, List.dropWhile_cons_of_neg hc⟩
  rw [hdigits]
  cases hsplit : Nat.toDigits 10 n with
  | nil => exact absurd hsplit Nat.toDigits_ne_nil
  | cons c digits =>
      have hc : c.isDigit = true := isDigit_of_mem_toDigits (n := n) (by simp [hsplit])
      have htail : ∀ d ∈ digits, isNumberChar d = true := fun d hd => hall d (by simp [hsplit, hd])
      have hblank : isBlank c = false := by
        simp [isBlank, ne_of_isDigit hc (d := ' ') (by decide),
          ne_of_isDigit hc (d := '\t') (by decide), ne_of_isDigit hc (d := '\n') (by decide),
          ne_of_isDigit hc (d := '\r') (by decide)]
      rw [List.cons_append]
      refine tokens_token c (.number _) hblank ?_
      rw [token?_digit hc, List.takeWhile_append_of_pos htail, List.dropWhile_append_of_pos htail,
        hrest.1, hrest.2, List.append_nil, ← hsplit, number?_toDigits, Option.map_some]

/-! ### Documents -/

theorem endsNumber_of_head {c : Char} (h : isNumberChar c = false) (rest : List Char) :
    EndsNumber (c :: rest) := by
  intro d hd
  rw [← Option.some.inj hd]
  exact h

theorem endsNumber_newline (depth : Nat) (rest : List Char) :
    EndsNumber ((newline depth).toList ++ rest) := by
  rw [toList_newline]
  exact endsNumber_of_head rfl _

theorem endsNumber_prettyItems (depth : Nat) (items : List Json) {rest : List Char}
    (h : EndsNumber rest) : EndsNumber ((prettyItems depth items).toList ++ rest) := by
  cases items with
  | nil => exact h
  | cons item items =>
      simp only [prettyItems, String.toList_append]
      exact endsNumber_of_head rfl _

theorem endsNumber_prettyMembers (depth : Nat) (members : List (String × Json)) {rest : List Char}
    (h : EndsNumber rest) : EndsNumber ((prettyMembers depth members).toList ++ rest) := by
  cases members with
  | nil => exact h
  | cons member members =>
      simp only [prettyMembers, String.toList_append]
      exact endsNumber_of_head rfl _

/-- A key is written with a colon and a space behind it. -/
theorem tokens_key (key : String) (rest : List Char) :
    tokens ((quote key).toList ++ (':' :: ' ' :: rest)) =
      (tokens rest).map fun tokens => .text key :: .colon :: tokens := by
  rw [tokens_quote, tokens_token ':' .colon rfl rfl, tokens_blank rfl, Option.map_map]
  rfl

mutual

/-- The text of a document is cut into the tokens of the document. -/
theorem tokens_prettyAt : ∀ (document : Json) (depth : Nat) {rest : List Char}, EndsNumber rest →
    tokens ((prettyAt depth document).toList ++ rest) = (tokens rest).map (tokensOf document ++ ·)
  | .text s, depth, rest, _ => by
      rw [prettyAt, tokens_quote]
      rfl
  | .number n, depth, rest, h => by
      rw [prettyAt, tokens_number n h]
      rfl
  | .list [], depth, rest, _ => by
      rw [prettyAt]
      change tokens ('[' :: ']' :: rest) = _
      rw [tokens_token '[' .openList rfl rfl, tokens_token ']' .closeList rfl rfl,
        Option.map_map]
      rfl
  | .list (first :: items), depth, rest, _ => by
      have htext : (prettyAt depth (.list (first :: items))).toList ++ rest =
          '[' :: ((newline (depth + 1)).toList ++ ((prettyAt (depth + 1) first).toList ++
            ((prettyItems (depth + 1) items).toList ++ ((newline depth).toList ++ ']' :: rest)))) := by
        simp [prettyAt, String.toList_append]
      have hnewline := endsNumber_newline depth (']' :: rest)
      rw [htext, tokens_token '[' .openList rfl rfl, tokens_newline,
        tokens_prettyAt first _ (endsNumber_prettyItems _ _ hnewline),
        tokens_prettyItems items _ hnewline, tokens_newline,
        tokens_token ']' .closeList rfl rfl]
      simp [tokensOf, Function.comp_def]
  | .object [], depth, rest, _ => by
      rw [prettyAt]
      change tokens ('\x7b' :: '\x7d' :: rest) = _
      rw [tokens_token '\x7b' .openObject rfl rfl, tokens_token '\x7d' .closeObject rfl rfl,
        Option.map_map]
      rfl
  | .object ((key, first) :: members), depth, rest, _ => by
      have htext : (prettyAt depth (.object ((key, first) :: members))).toList ++ rest =
          '\x7b' :: ((newline (depth + 1)).toList ++ ((quote key).toList ++ (':' :: ' ' ::
            ((prettyAt (depth + 1) first).toList ++ ((prettyMembers (depth + 1) members).toList ++
              ((newline depth).toList ++ '\x7d' :: rest)))))) := by
        simp [prettyAt, String.toList_append]
      have hnewline := endsNumber_newline depth ('\x7d' :: rest)
      rw [htext, tokens_token '\x7b' .openObject rfl rfl, tokens_newline, tokens_key,
        tokens_prettyAt first _ (endsNumber_prettyMembers _ _ hnewline),
        tokens_prettyMembers members _ hnewline, tokens_newline,
        tokens_token '\x7d' .closeObject rfl rfl]
      simp [tokensOf, Function.comp_def]

theorem tokens_prettyItems : ∀ (items : List Json) (depth : Nat) {rest : List Char},
    EndsNumber rest → tokens ((prettyItems depth items).toList ++ rest) =
      (tokens rest).map (itemTokens items ++ ·)
  | [], depth, rest, _ => by
      rw [prettyItems]
      simp [itemTokens]
  | item :: items, depth, rest, h => by
      have htext : (prettyItems depth (item :: items)).toList ++ rest =
          ',' :: ((newline depth).toList ++ ((prettyAt depth item).toList ++
            ((prettyItems depth items).toList ++ rest))) := by
        simp [prettyItems, String.toList_append]
      rw [htext, tokens_token ',' .comma rfl rfl, tokens_newline,
        tokens_prettyAt item _ (endsNumber_prettyItems _ _ h), tokens_prettyItems items _ h]
      simp [itemTokens, Function.comp_def]

theorem tokens_prettyMembers : ∀ (members : List (String × Json)) (depth : Nat) {rest : List Char},
    EndsNumber rest → tokens ((prettyMembers depth members).toList ++ rest) =
      (tokens rest).map (memberTokens members ++ ·)
  | [], depth, rest, _ => by
      rw [prettyMembers]
      simp [memberTokens]
  | (key, item) :: members, depth, rest, h => by
      have htext : (prettyMembers depth ((key, item) :: members)).toList ++ rest =
          ',' :: ((newline depth).toList ++ ((quote key).toList ++ (':' :: ' ' ::
            ((prettyAt depth item).toList ++ ((prettyMembers depth members).toList ++ rest))))) := by
        simp [prettyMembers, String.toList_append]
      rw [htext, tokens_token ',' .comma rfl rfl, tokens_newline, tokens_key,
        tokens_prettyAt item _ (endsNumber_prettyMembers _ _ h), tokens_prettyMembers members _ h]
      simp [memberTokens, Function.comp_def]

end

/-! ### Values -/

/-- The first item of a list is read like any other value. -/
theorem foldlM_firstItem (document : Json) (outer : List Frame) (rest : List Token) :
    (tokensOf document ++ rest).foldlM State.step (.firstItem outer) =
      (tokensOf document ++ rest).foldlM State.step (.value (.list [] :: outer)) := by
  match document with
  | .text _ | .number _ | .list [] | .list (_ :: _) | .object [] | .object (_ :: _) => rfl

mutual

/-- Where a value has to follow, the tokens of a document are read as what it stands for. -/
theorem foldlM_tokensOf : ∀ (document : Json) (outer : List Frame) (rest : List Token),
    (tokensOf document ++ rest).foldlM State.step (.value outer) =
      rest.foldlM State.step (.read document.value outer)
  | .text s, outer, rest => rfl
  | .number n, outer, rest => rfl
  | .list [], outer, rest => rfl
  | .list (first :: items), outer, rest => by
      have htokens : tokensOf (.list (first :: items)) ++ rest =
          .openList :: (tokensOf first ++ (itemTokens items ++ .closeList :: rest)) := by
        simp [tokensOf]
      rw [htokens, List.foldlM_cons]
      change (tokensOf first ++ _).foldlM State.step (.firstItem outer) = _
      rw [foldlM_firstItem, foldlM_tokensOf first, foldlM_itemTokens items]
      rfl
  | .object [], outer, rest => rfl
  | .object ((key, first) :: members), outer, rest => by
      have htokens : tokensOf (.object ((key, first) :: members)) ++ rest =
          .openObject :: .text key :: .colon ::
            (tokensOf first ++ (memberTokens members ++ .closeObject :: rest)) := by
        simp [tokensOf]
      rw [htokens, List.foldlM_cons]
      change (tokensOf first ++ _).foldlM State.step (.value (.object [] key :: outer)) = _
      rw [foldlM_tokensOf first, foldlM_memberTokens members]
      rfl

/-- Behind an item the tokens of further items are read up to the end of the list. -/
theorem foldlM_itemTokens : ∀ (items : List Json) (before : List Value) (item : Value)
    (outer : List Frame) (rest : List Token),
    (itemTokens items ++ .closeList :: rest).foldlM State.step (.read item (.list before :: outer)) =
      rest.foldlM State.step (.read (.list (before.reverse ++ item :: valuesOf items)) outer)
  | [], before, item, outer, rest => by
      change rest.foldlM State.step (.read (.list (item :: before).reverse) outer) = _
      rw [List.reverse_cons]
      rfl
  | next :: items, before, item, outer, rest => by
      have htokens : itemTokens (next :: items) ++ .closeList :: rest =
          .comma :: (tokensOf next ++ (itemTokens items ++ .closeList :: rest)) := by
        simp [itemTokens]
      rw [htokens, List.foldlM_cons]
      change (tokensOf next ++ _).foldlM State.step (.value (.list (item :: before) :: outer)) = _
      rw [foldlM_tokensOf next, foldlM_itemTokens items, List.reverse_cons, List.append_assoc]
      rfl

/-- Behind a member the tokens of further members are read up to the end of the object. -/
theorem foldlM_memberTokens : ∀ (members : List (String × Json)) (before : List (String × Value))
    (key : String) (item : Value) (outer : List Frame) (rest : List Token),
    (memberTokens members ++ .closeObject :: rest).foldlM State.step
        (.read item (.object before key :: outer)) =
      rest.foldlM State.step
        (.read (.object (before.reverse ++ (key, item) :: memberValues members)) outer)
  | [], before, key, item, outer, rest => by
      change rest.foldlM State.step (.read (.object ((key, item) :: before).reverse) outer) = _
      rw [List.reverse_cons]
      rfl
  | (next, following) :: members, before, key, item, outer, rest => by
      have htokens : memberTokens ((next, following) :: members) ++ .closeObject :: rest =
          .comma :: .text next :: .colon ::
            (tokensOf following ++ (memberTokens members ++ .closeObject :: rest)) := by
        simp [memberTokens]
      rw [htokens, List.foldlM_cons]
      change (tokensOf following ++ _).foldlM State.step
        (.value (.object ((key, item) :: before) next :: outer)) = _
      rw [foldlM_tokensOf following, foldlM_memberTokens members, List.reverse_cons,
        List.append_assoc]
      rfl

end

/-- A written document is read as what it stands for, whatever blanks follow it. -/
theorem read?_pretty (document : Json) (blanks : String)
    (h : ∀ c ∈ blanks.toList, isBlank c = true) :
    Value.read? (document.pretty ++ blanks) = some document.value := by
  have hends : EndsNumber blanks.toList := by
    intro c hc
    have hblank := h c (List.mem_of_mem_head? hc)
    simp only [isBlank, Bool.or_eq_true, beq_iff_eq] at hblank
    rcases hblank with ((rfl | rfl) | rfl) | rfl <;> rfl
  have hnone : tokens blanks.toList = some [] := by
    rw [← List.append_nil blanks.toList, tokens_blanks h]
    exact tokens_of_nil rfl
  rw [Value.read?, String.toList_append, pretty, tokens_prettyAt document 0 hends, hnone,
    Option.map_some]
  simp only
  rw [foldlM_tokensOf]
  rfl

end Json
end ExportIndex
