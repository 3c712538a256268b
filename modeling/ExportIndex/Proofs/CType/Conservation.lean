import ExportIndex.Proofs.CType.Peeling

/-!
# No mark of a type is lost

Every star and every ampersand of a type is counted, or stays in the base type.

* `marksOf` are the marks that are stripped off the fragments of a type; `of_classify?_marks` reads the
  pointer depth and the reference off them.
* `count_fragments` — they and the base type have the marks of all fragments.
* `classify_conserves` — so no mark is lost, and a base type is its own base type.
-/

namespace ExportIndex
namespace CType

open Text (isBlank)

/-! ### Joined texts -/

theorem join_cons {text : String} {texts : List String} (h : texts ≠ []) :
    join (text :: texts) = text ++ " " ++ join texts := by
  cases texts with
  | nil => contradiction
  | cons next texts => exact String.intercalate_cons_cons

/-- Joining adds nothing but spaces. -/
theorem count_join {c : Char} (hc : c ≠ ' ') (texts : List String) :
    (join texts).toList.count c = (texts.flatMap String.toList).count c := by
  induction texts with
  | nil => rfl
  | cons text texts ih =>
      by_cases hlast : texts = []
      · subst hlast
        simp [join]
      · have hspace : " ".toList.count c = 0 := by
          rw [List.count_eq_zero]
          simpa using hc
        rw [join_cons hlast, List.flatMap_cons, String.toList_append, String.toList_append,
          List.count_append, List.count_append, List.count_append, ih, hspace, Nat.add_zero]

theorem head?_join {text : String} (h : text ≠ "") (texts : List String) :
    (join (text :: texts)).toList.head? = text.toList.head? := by
  have hne : text.toList ≠ [] := by simpa using h
  by_cases hlast : texts = []
  · subst hlast
    simp [join]
  · rw [join_cons hlast, String.toList_append, String.toList_append, List.append_assoc,
      List.head?_append_of_ne_nil _ hne]

theorem getLast?_join {text : String} (h : text ≠ "") (texts : List String) :
    (join (texts ++ [text])).toList.getLast? = text.toList.getLast? := by
  have hne : text.toList ≠ [] := by simpa using h
  by_cases hfirst : texts = []
  · subst hfirst
    simp [join]
  · rw [join, String.intercalate_append_of_ne_nil hfirst (List.cons_ne_nil text []),
      String.toList_append, List.getLast?_append_of_ne_nil]
    · simp
    · simpa using h

/-- A word that is none of the joined texts is not the whole. -/
theorem join_ne {word : String} (hword : word ≠ "" ∧ ' ' ∉ word.toList) {texts : List String}
    (h : ∀ text ∈ texts, text ≠ word) : join texts ≠ word := by
  cases texts with
  | nil => exact fun hjoin => hword.1 hjoin.symm
  | cons text texts =>
      by_cases hlast : texts = []
      · subst hlast
        simpa [join] using h text List.mem_cons_self
      · rintro rfl
        refine hword.2 ?_
        rw [join_cons hlast]
        simp

/-! ### Marks and cores -/

/-- The marks that are stripped off the fragments of a type. -/
def marksOf (texts : List String) : List Char :=
  texts.flatMap fun text => (Fragment.ofString text).marks

/-- The cores that make the base type. -/
def coresOf (texts : List String) : List String :=
  ((texts.map Fragment.ofString).filter Fragment.kept).map Fragment.core

namespace Fragment

theorem kept_iff {fragment : Fragment} :
    fragment.kept = true ↔ fragment.core ≠ "" ∧ fragment.core ≠ "const" := by
  simp [kept]

/-- What is not kept has no marks in it. -/
theorem count_core_of_not_kept {fragment : Fragment} (h : ¬fragment.kept = true) {c : Char}
    (hc : c = '*' ∨ c = '&') : fragment.core.toList.count c = 0 := by
  rw [kept_iff, not_and_or, not_not, not_not] at h
  rcases h with h | h
  · rw [h]
    rfl
  · rw [h]
    rcases hc with rfl | rfl <;> decide

end Fragment

theorem isBlank_of_mark {c : Char} (hc : c = '*' ∨ c = '&') : isBlank c = false := by
  rcases hc with rfl | rfl <;> decide

/-- The marks of the fragments are stripped off or stay in the cores. -/
theorem count_fragments {c : Char} (hc : c = '*' ∨ c = '&') (texts : List String) :
    (texts.flatMap String.toList).count c =
      (marksOf texts).count c + ((coresOf texts).flatMap String.toList).count c := by
  induction texts with
  | nil => rfl
  | cons text texts ih =>
      have htext := (Fragment.strips_ofString text).count (isBlank_of_mark hc)
      have hcores : ((coresOf (text :: texts)).flatMap String.toList).count c =
          (Fragment.ofString text).core.toList.count c +
            ((coresOf texts).flatMap String.toList).count c := by
        by_cases hkept : (Fragment.ofString text).kept = true
        · simp [coresOf, hkept]
        · rw [Fragment.count_core_of_not_kept hkept hc]
          simp [coresOf, hkept]
      rw [hcores, marksOf, List.flatMap_cons, List.flatMap_cons, List.count_append, List.count_append,
        ← marksOf]
      omega

/-- The pointer depth and the reference are read off the marks, the base type off the cores. -/
theorem of_classify?_marks {texts tags : List String} {type : CType}
    (h : classify? texts tags = some type) :
    type.full = join texts ∧ type.base = join (coresOf texts) ∧
      type.pointerDepth = (marksOf texts).count '*' ∧
      (type.reference = .none ↔ '&' ∉ marksOf texts) := by
  have hstars (texts : List String) :
      countStars (texts.map Fragment.ofString) = (marksOf texts).count '*' := by
    induction texts with
    | nil => rfl
    | cons text texts ih =>
        rw [marksOf, List.flatMap_cons, List.count_append, Fragment.count_star_marks, ← marksOf, ← ih]
        rfl
  have hrefer (markers : List Marker) (reference : Reference) :
      markers.foldl Marker.refer reference = .none ↔
        reference = .none ∧ ∀ marker ∈ markers, marker = .star := by
    induction markers generalizing reference with
    | nil => simp
    | cons marker markers ih =>
        rw [List.foldl_cons, ih, List.forall_mem_cons]
        cases marker <;> simp [Marker.refer]
  simp only [classify?] at h
  split at h
  · contradiction
  · obtain rfl := Option.some.inj h
    refine ⟨rfl, rfl, hstars texts, ?_⟩
    simp only [hrefer, true_and, marksOf, List.mem_flatMap, Fragment.ampersand_mem_marks, List.mem_map]
    constructor
    · rintro hall ⟨text, htext, marker, hmarker, hne⟩
      exact hne (hall marker ⟨_, ⟨text, htext, rfl⟩, hmarker⟩)
    · rintro hnone marker ⟨_, ⟨text, htext, rfl⟩, hmarker⟩
      by_contra hne
      exact hnone ⟨text, htext, marker, hmarker, hne⟩

theorem of_mem_coresOf {texts : List String} {core : String} (h : core ∈ coresOf texts) :
    core ≠ "" ∧ core ≠ "const" ∧ core.toList.head? ≠ some '*' ∧
      ∀ c ∈ core.toList.getLast?, ¬(c = '*' ∨ c = '&') := by
  obtain ⟨fragment, hfragment, rfl⟩ := List.mem_map.1 h
  obtain ⟨hmem, hkept⟩ := List.mem_filter.1 hfragment
  obtain ⟨text, -, rfl⟩ := List.mem_map.1 hmem
  obtain ⟨hempty, hconst⟩ := Fragment.kept_iff.1 hkept
  have hstrips := Fragment.strips_ofString text
  exact ⟨hempty, hconst, hstrips.head?_ne, hstrips.not_mark⟩

/-! ### Base types -/

/-- A base type has nothing to be stripped off. -/
theorem base_coresOf (texts : List String) :
    (join (coresOf texts)).toList.head? ≠ some '*' ∧
      (∀ c ∈ (join (coresOf texts)).toList.getLast?, ¬(c = '*' ∨ c = '&')) ∧
        join (coresOf texts) ≠ "const" := by
  refine ⟨?_, ?_, join_ne ⟨by decide, by decide⟩ fun core hcore => (of_mem_coresOf hcore).2.1⟩
  · cases hcores : coresOf texts with
    | nil => exact nofun
    | cons core cores =>
        obtain ⟨hempty, -, hhead, -⟩ := of_mem_coresOf (hcores ▸ List.mem_cons_self)
        rwa [head?_join hempty]
  · obtain hcores | ⟨cores, core, hcores⟩ := List.eq_nil_or_concat' (coresOf texts)
    · rw [hcores]
      exact nofun
    · have hmem : core ∈ coresOf texts := by simp [hcores]
      obtain ⟨hempty, -, -, hlast⟩ := of_mem_coresOf hmem
      rwa [hcores, getLast?_join hempty]

/-- A text with nothing to be stripped off is its own base type. -/
theorem classify?_singleton {text : String} (hhead : text.toList.head? ≠ some '*')
    (hlast : ∀ c ∈ text.toList.getLast?, ¬(c = '*' ∨ c = '&')) (hconst : text ≠ "const")
    (tags : List String) : classify? [text] tags = some ⟨text, text, 0, .none, .ofList tags⟩ := by
  have hfragment : Fragment.ofString text = ⟨0, text, []⟩ :=
    Fragment.strips_iff.1 ⟨text.toList, .done hhead, .done hlast⟩
  have hbase : join (([⟨0, text, []⟩].filter Fragment.kept).map Fragment.core) = text := by
    by_cases hempty : text = ""
    · subst hempty
      rfl
    · have hkept : Fragment.kept ⟨0, text, []⟩ = true := Fragment.kept_iff.2 ⟨hempty, hconst⟩
      rw [List.filter_cons_of_pos hkept]
      exact String.intercalate_singleton
  simp only [classify?, List.map_cons, List.map_nil, hfragment, hbase]
  have hclear : ambiguousAfter false false [⟨0, text, []⟩] = false := by
    simp [ambiguousAfter]
  rw [hclear, if_neg Bool.false_ne_true]
  simp [join, countStars, Fragment.stars]

/-- Every star of a type is counted in its depth or stays in its base type, and it has a reference
exactly if an ampersand does not stay there.  The base type neither begins with a star nor ends in a
mark, it is not `const`, and classified alone it is its own base type. -/
theorem classify_conserves {texts tags : List String} {type : CType}
    (h : classify? texts tags = some type) :
    type.full.toList.count '*' = type.pointerDepth + type.base.toList.count '*' ∧
      (type.reference = .none ↔ type.full.toList.count '&' = type.base.toList.count '&') ∧
      type.base.toList.head? ≠ some '*' ∧
      (∀ c ∈ type.base.toList.getLast?, c ≠ '*' ∧ c ≠ '&') ∧
      type.base ≠ "const" ∧
      ∀ tags', classify? [type.base] tags' =
        some ⟨type.base, type.base, 0, .none, .ofList tags'⟩ := by
  obtain ⟨hfull, hbase, hdepth, hreference⟩ := of_classify?_marks h
  obtain ⟨hhead, hlast, hconst⟩ := base_coresOf texts
  have hcount {c : Char} (hc : c = '*' ∨ c = '&') :
      type.full.toList.count c = (marksOf texts).count c + type.base.toList.count c := by
    have hspace : c ≠ ' ' := by
      rintro rfl
      exact absurd hc (by decide)
    rw [hfull, hbase, count_join hspace, count_join hspace, count_fragments hc]
  rw [← hbase] at hhead hlast hconst
  refine ⟨?_, ?_, hhead, ?_, hconst, classify?_singleton hhead hlast hconst⟩
  · rw [hdepth, hcount (.inl rfl)]
  · rw [hreference, ← List.count_eq_zero, hcount (.inr rfl)]
    omega
  · exact fun c hc => not_or.1 (hlast c hc)

/-- In `const T<a*&>* & **` the marks inside the brackets stay, and those outside are counted. -/
theorem classify_conserves_template :
    classify? ["const", "T<a*&>* &", "**"] ["own"] =
        some ⟨"const T<a*&>* & **", "T<a*&>", 3, .lvalue, .ofList ["own"]⟩ ∧
      "const T<a*&>* & **".toList.count '*' = 3 + "T<a*&>".toList.count '*' ∧
      ∀ tags, classify? ["T<a*&>"] tags = some ⟨"T<a*&>", "T<a*&>", 0, .none, .ofList tags⟩ := by
  have hclassify : classify? ["const", "T<a*&>* &", "**"] ["own"] =
      some ⟨"const T<a*&>* & **", "T<a*&>", 3, .lvalue, .ofList ["own"]⟩ := by
    decide +kernel
  obtain ⟨hstars, -, -, -, -, hbase⟩ := classify_conserves hclassify
  exact ⟨hclassify, hstars, hbase⟩

end CType
end ExportIndex
