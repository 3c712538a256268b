import ExportIndex.Proofs.Comment.Extent

/-!
# The text outside comments

A comment can hide any character, so what a delimiter separates has to be told from the characters
outside comments.

* `outside` lists these characters with their indices, and `plain` the characters alone.  A comment
  that is never closed hides all that follows its slash.
* `Whole` says that a text leaves no comment open: what stands behind it is outside comments or inside
  as if it stood alone.
* `map_snd_outside` and `index_of_mem_outside` — the characters do not depend on where counting
  starts, and the indices are those of the text.
-/

namespace ExportIndex
namespace Comment

/-- Whether a slash just before the text opens a comment. -/
def opens : List Char → Bool
  | c :: _ => c == '/' || c == '*'
  | [] => false

/-- The characters of a text outside comments with their indices, counted from `index` on. -/
def outside (index : Nat) : List Char → List (Nat × Char)
  | [] => []
  | c :: text =>
    if c = '/' ∧ opens text then
      match _h : after? text with
      | some rest => outside (index + 1 + (text.length - rest.length)) rest
      | none => []
    else (index, c) :: outside (index + 1) text
termination_by text => text.length
decreasing_by
  · obtain ⟨body, rfl, -⟩ := exists_body _h
    rw [List.length_cons, List.length_append]
    omega
  · exact Nat.lt_succ_self text.length

/-- The characters of a text outside comments. -/
def plain (text : List Char) : List Char :=
  (outside 0 text).map Prod.snd

/-- A text that leaves no comment open. -/
def Whole (text : List Char) : Prop :=
  ∀ index rest, outside index (text ++ rest) =
    outside index text ++ outside (index + text.length) rest

/-! ### Characters and comments -/

@[simp] theorem outside_nil (index : Nat) : outside index [] = [] := by
  rw [outside]

theorem outside_cons (index : Nat) {c : Char} (h : c ≠ '/') (text : List Char) :
    outside index (c :: text) = (index, c) :: outside (index + 1) text := by
  rw [outside, if_neg fun hopen => h hopen.1]

theorem IsBody.opens_append {body : List Char} (h : IsBody body) (rest : List Char) :
    opens (body ++ rest) = true := by
  unfold IsBody after? at h
  split at h
  · rfl
  · rfl
  · contradiction

/-- A comment is passed over. -/
theorem outside_comment (index : Nat) {body : List Char} (h : IsBody body) (rest : List Char) :
    outside index ('/' :: body ++ rest) = outside (index + ('/' :: body).length) rest := by
  rw [List.cons_append, outside, if_pos ⟨rfl, h.opens_append rest⟩]
  split
  · rename_i hafter
    rw [h.after?_append] at hafter
    obtain rfl := Option.some.inj hafter
    congr 1
    simp only [List.length_append, List.length_cons]
    omega
  · rename_i hafter
    rw [h.after?_append] at hafter
    contradiction

theorem outside_closed (index : Nat) {body : List Char} (h : IsBody body) :
    outside index ('/' :: body) = [] := by
  have hpassed := outside_comment index h []
  rwa [List.append_nil, outside_nil] at hpassed

/-- The characters outside comments are the same wherever counting starts. -/
theorem map_snd_outside (index : Nat) (text : List Char) :
    (outside index text).map Prod.snd = plain text := by
  suffices hsame : ∀ other, (outside index text).map Prod.snd = (outside other text).map Prod.snd from
    hsame 0
  fun_induction outside index text with
  | case1 =>
      intro other
      rw [outside]
  | case2 index c text hopen rest hafter ih =>
      intro other
      rw [outside, if_pos hopen]
      split
      · rename_i hafter'
        obtain rfl := Option.some.inj (hafter.symm.trans hafter')
        exact ih _
      · rename_i hafter'
        rw [hafter] at hafter'
        contradiction
  | case3 index c text hopen hafter =>
      intro other
      rw [outside, if_pos hopen]
      split
      · rename_i hafter'
        rw [hafter] at hafter'
        contradiction
      · rfl
  | case4 index c text hopen ih =>
      intro other
      rw [outside, if_neg hopen, List.map_cons, List.map_cons, ih]

/-- The indices are those of the text. -/
theorem index_of_mem_outside {index i : Nat} {c : Char} {text : List Char}
    (h : (i, c) ∈ outside index text) : index ≤ i ∧ i < index + text.length := by
  fun_induction outside index text with
  | case1 => simp at h
  | case2 index d text hopen rest hafter ih =>
      obtain ⟨body, rfl, -⟩ := exists_body hafter
      have hbounds := ih h
      simp only [List.length_append, List.length_cons] at hbounds ⊢
      omega
  | case3 => simp at h
  | case4 index d text hopen ih =>
      rw [List.length_cons]
      rcases List.mem_cons.1 h with heq | hmem
      · obtain ⟨rfl, rfl⟩ := Prod.mk.inj heq
        omega
      · have hbounds := ih hmem
        omega

/-- A character outside comments is the one of the text at its index. -/
theorem getElem?_of_mem_outside {index i : Nat} {c : Char} {text : List Char}
    (h : (i, c) ∈ outside index text) : text[i - index]? = some c := by
  fun_induction outside index text with
  | case1 => simp at h
  | case2 index d text hopen rest hafter ih =>
      obtain ⟨body, rfl, -⟩ := exists_body hafter
      have hbound := (index_of_mem_outside h).1
      simp only [List.length_append] at hbound h ih
      have hindex : i - index =
          (d :: body).length + (i - (index + 1 + (body.length + rest.length - rest.length))) := by
        rw [List.length_cons]
        omega
      rw [hindex, ← List.cons_append, List.getElem?_append_right (Nat.le_add_right _ _),
        Nat.add_sub_cancel_left]
      exact ih h
  | case3 => simp at h
  | case4 index d text hopen ih =>
      rcases List.mem_cons.1 h with heq | hmem
      · obtain ⟨rfl, rfl⟩ := Prod.mk.inj heq
        simp
      · have hbound := (index_of_mem_outside hmem).1
        rw [(by omega : i - index = i - (index + 1) + 1), List.getElem?_cons_succ]
        exact ih hmem

/-! ### Texts that leave no comment open -/

theorem whole_nil : Whole [] := by
  intro index rest
  rw [outside_nil]
  rfl

theorem whole_char {c : Char} (h : c ≠ '/') : Whole [c] := by
  intro index rest
  rw [List.singleton_append, outside_cons index h, outside_cons index h, outside_nil]
  rfl

theorem whole_comment {body : List Char} (h : IsBody body) : Whole ('/' :: body) := by
  intro index rest
  rw [outside_comment index h, outside_closed index h, List.nil_append]

theorem Whole.append {text more : List Char} (h : Whole text) (hmore : Whole more) :
    Whole (text ++ more) := by
  intro index rest
  rw [List.append_assoc, h, h, hmore, List.append_assoc, List.length_append, Nat.add_assoc]

theorem Whole.plain_append {text : List Char} (h : Whole text) (more : List Char) :
    plain (text ++ more) = plain text ++ plain more := by
  rw [plain, h, List.map_append, map_snd_outside, map_snd_outside]

@[simp] theorem plain_nil : plain [] = [] := by
  rw [plain, outside_nil, List.map_nil]

theorem plain_cons {c : Char} (h : c ≠ '/') (text : List Char) : plain (c :: text) = c :: plain text := by
  rw [plain, outside_cons 0 h, List.map_cons, map_snd_outside]

theorem plain_comment {body : List Char} (h : IsBody body) : plain ('/' :: body) = [] := by
  rw [plain, outside_closed 0 h, List.map_nil]

/-- The comma in the comment is hidden, the one behind it is not. -/
example : outside 3 "a/*,*/,/b".toList = [(3, 'a'), (9, ','), (10, '/'), (11, 'b')] := by
  decide +kernel

end Comment
end ExportIndex
