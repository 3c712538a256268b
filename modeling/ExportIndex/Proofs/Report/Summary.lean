import Mathlib.Data.List.Forall2
import ExportIndex.Report.Summary
import ExportIndex.Proofs.Text.Lines

/-!
# The shape of the summary

The summary is made of blocks, and a block of rows that are aligned with each other.

* `rowsOf` are the names and the types of the rows of a block, and `blockLines` its lines.
* `StartsAt` says that a line shows a name and has the description of a type in a given column.
  `startsAt_row` — in a column that leaves room for the name a row has it there; `length_le_nameWidth` —
  the width of a block leaves room for each of its names, as no name has more characters than bytes.
* `isLine_of_mem_blockLines` — a line feed in a block comes from a name, a source, a type or a tag.
* `renderSummary_aligned` — the blocks stand in the order of the names, the rows of a block are aligned,
  and a block has a line for its header and for each of its rows.
-/

namespace ExportIndex

/-- A text without a line feed. -/
def Text.Unbroken (text : String) : Prop :=
  '\n' ∉ text.toList

instance (text : String) : Decidable (Text.Unbroken text) :=
  inferInstanceAs (Decidable ('\n' ∉ text.toList))

open Text (Unbroken)

/-- A type that is written without a line feed. -/
structure CType.IsUnbroken (type : CType) : Prop where
  full : Unbroken type.full
  base : Unbroken type.base
  tags : ∀ tag ∈ type.tags.words, Unbroken tag

/-- An entry that is written without a line feed. -/
structure Entry.IsUnbroken (entry : Entry) : Prop where
  source : Unbroken entry.source
  name : Unbroken entry.name
  returnType : entry.declaration.returnType.IsUnbroken
  parameters : ∀ parameter ∈ entry.declaration.parameters,
    Unbroken parameter.name ∧ parameter.type.IsUnbroken

namespace Summary

/-- The names and the types of the rows of a block. -/
def rowsOf (declaration : Declaration) : List (String × CType) :=
  (returns, declaration.returnType) ::
    declaration.parameters.map fun parameter => (parameter.name, parameter.type)

/-- The lines of a block: its header and its rows. -/
def blockLines (entry : Entry) : List String :=
  header entry :: (rowsOf entry.declaration).map fun named =>
    row (nameWidth entry.declaration) named.1 named.2

/-- The line shows the name behind two spaces and, at least two spaces later, the description of the
type, which starts in the given column. -/
def StartsAt (column : Nat) (line : String) (named : String × CType) : Prop :=
  ∃ gap, line = "  " ++ named.1 ++ gap ++ describe named.2 ++ "\n" ∧ (∀ c ∈ gap.toList, c = ' ') ∧
    2 ≤ gap.length ∧ ("  " ++ named.1 ++ gap).length = column

/-! ### Columns -/

theorem le_foldl_max (sizes : List Nat) (least : Nat) : least ≤ sizes.foldl max least := by
  induction sizes generalizing least with
  | nil => exact Nat.le_refl least
  | cons size sizes ih => exact Nat.le_trans (Nat.le_max_left least size) (ih _)

theorem le_foldl_max_of_mem {sizes : List Nat} {size : Nat} (h : size ∈ sizes) (least : Nat) :
    size ≤ sizes.foldl max least := by
  induction sizes generalizing least with
  | nil => contradiction
  | cons first sizes ih =>
      rcases List.mem_cons.1 h with rfl | h
      · exact Nat.le_trans (Nat.le_max_right least size) (le_foldl_max sizes _)
      · exact ih h _

/-- No text has more characters than bytes. -/
theorem length_le_utf8ByteSize (text : String) : text.length ≤ text.utf8ByteSize := by
  induction text using String.push_induction with
  | empty => exact Nat.le_refl 0
  | push text c ih =>
      have := c.utf8Size_pos
      rw [String.length_push, String.utf8ByteSize_push]
      omega

/-- A block is wide enough for each of its names. -/
theorem length_le_nameWidth {declaration : Declaration} {named : String × CType}
    (h : named ∈ rowsOf declaration) : named.1.length ≤ nameWidth declaration := by
  refine Nat.le_trans (length_le_utf8ByteSize named.1) ?_
  rcases List.mem_cons.1 h with rfl | h
  · exact le_foldl_max _ _
  · obtain ⟨parameter, hmem, rfl⟩ := List.mem_map.1 h
    have hsize : parameter.name.utf8ByteSize ∈ declaration.parameters.map (·.name.utf8ByteSize) :=
      List.mem_map_of_mem hmem
    exact le_foldl_max_of_mem hsize _

/-- In a column that leaves room for its name a row has its description there. -/
theorem startsAt_row {width : Nat} {named : String × CType} (h : named.1.length ≤ width) :
    StartsAt (width + 4) (row width named.1 named.2) named := by
  have htwo : "  ".length = 2 := rfl
  refine ⟨String.ofList (List.replicate (width - named.1.length) ' ') ++ "  ", ?_, ?_, ?_, ?_⟩
  · simp only [row, pad, String.append_assoc]
  · intro c hc
    rw [String.toList_append, String.toList_ofList, List.mem_append] at hc
    rcases hc with hc | hc
    · exact List.eq_of_mem_replicate hc
    · simpa using hc
  · simp only [String.length_append, htwo]
    omega
  · simp only [String.length_append, String.length_ofList, List.length_replicate, htwo]
    omega

/-! ### Lines -/

theorem block_eq_join (entry : Entry) : block entry = String.join (blockLines entry) := by
  rw [← String.toList_inj]
  simp [block, blockLines, rowsOf, List.flatMap_map]

theorem unbroken_append {first second : String} :
    Unbroken (first ++ second) ↔ Unbroken first ∧ Unbroken second := by
  simp [Unbroken, not_or]

theorem unbroken_intercalate {separator : String} (hseparator : Unbroken separator)
    {texts : List String} (h : ∀ text ∈ texts, Unbroken text) :
    Unbroken (separator.intercalate texts) := by
  induction texts with
  | nil => simp [Unbroken]
  | cons first texts ih =>
      obtain ⟨hfirst, hmore⟩ := List.forall_mem_cons.1 h
      cases texts with
      | nil => simpa using hfirst
      | cons second texts =>
          rw [String.intercalate_cons_cons, unbroken_append, unbroken_append]
          exact ⟨⟨hfirst, hseparator⟩, ih hmore⟩

/-- A number is written in digits. -/
theorem unbroken_toString (n : Nat) : Unbroken (toString n) := by
  intro h
  have hmem : '\n' ∈ Nat.toDigits 10 n := by simpa using h
  have hdigit : '\n'.isDigit = true := Nat.isDigit_of_mem_toDigits (by omega) (by omega) hmem
  contradiction

theorem unbroken_describeReference (reference : Reference) : Unbroken (describeReference reference) := by
  cases reference <;> simp [describeReference, Unbroken]

theorem unbroken_describe {type : CType} (h : type.IsUnbroken) : Unbroken (describe type) := by
  have htags : Unbroken (describeTags type.tags) := by
    unfold describeTags
    split
    · simp [Unbroken]
    · rw [unbroken_append]
      exact ⟨by simp [Unbroken], unbroken_intercalate (by simp [Unbroken]) h.tags⟩
  have hfull : Unbroken (if type.full.isEmpty then "?" else type.full) := by
    split
    · simp [Unbroken]
    · exact h.full
  simp only [describe, unbroken_append, hfull, h.base, unbroken_toString, unbroken_describeReference,
    htags, true_and, and_true]
  simp [Unbroken]

/-- The line is what stands before its only line feed. -/
def IsLine (line : String) : Prop :=
  ∃ body, Unbroken body ∧ line = body ++ "\n"

theorem isLine_row {width : Nat} {named : String × CType} (hname : Unbroken named.1)
    (htype : named.2.IsUnbroken) : IsLine (row width named.1 named.2) := by
  refine ⟨"  " ++ pad width named.1 ++ "  " ++ describe named.2, ?_, rfl⟩
  simp only [pad, unbroken_append, hname, unbroken_describe htype, true_and, and_true]
  simp [Unbroken]

theorem isLine_header {entry : Entry} (h : entry.IsUnbroken) : IsLine (header entry) := by
  refine ⟨entry.name ++ "  (" ++ entry.source ++ ":" ++ toString entry.declaration.line ++ ")", ?_,
    ?_⟩
  · simp only [unbroken_append, h.name, h.source, unbroken_toString, true_and, and_true]
    simp [Unbroken]
  · simp [header, String.append_assoc]

/-- A line feed in a block comes from a name, a source, a type or a tag. -/
theorem isLine_of_mem_blockLines {entry : Entry} (h : entry.IsUnbroken) :
    ∀ line ∈ blockLines entry, IsLine line := by
  intro line hline
  rcases List.mem_cons.1 hline with rfl | hline
  · exact isLine_header h
  · obtain ⟨named, hnamed, rfl⟩ := List.mem_map.1 hline
    rcases List.mem_cons.1 hnamed with rfl | hnamed
    · exact isLine_row (by simp [Unbroken, returns]) h.returnType
    · obtain ⟨parameter, hmem, rfl⟩ := List.mem_map.1 hnamed
      obtain ⟨hname, htype⟩ := h.parameters parameter hmem
      exact isLine_row hname htype

theorem length_blockLines (entry : Entry) :
    (blockLines entry).length = 2 + entry.declaration.parameters.length := by
  simp only [blockLines, rowsOf, List.length_cons, List.length_map]
  omega

/-- The lines of a text. -/
def linesOf (text : String) : List String :=
  (Text.lines text.toList).map fun line => String.ofList line.text

/-- The lines of a text that is joined from lines are these. -/
theorem linesOf_join {lines : List String} (h : ∀ line ∈ lines, IsLine line) :
    linesOf (String.join lines) = lines := by
  have hlines : ∀ line ∈ lines.map String.toList, ∃ body, '\n' ∉ body ∧ line = body ++ ['\n'] := by
    intro line hline
    obtain ⟨text, htext, rfl⟩ := List.mem_map.1 hline
    obtain ⟨body, hbody, rfl⟩ := h text htext
    exact ⟨body.toList, hbody, by simp⟩
  have htexts := congrArg (List.map String.ofList) (Text.map_text_lines_flatten hlines)
  rw [linesOf, String.toList_join, List.flatMap_def]
  simpa [List.map_map, Function.comp_def] using htexts

/-- A summary without a line feed in its entries has the lines of its blocks. -/
theorem linesOf_renderSummary {index : Index} (h : ∀ entry ∈ index.entries, entry.IsUnbroken) :
    linesOf index.renderSummary = index.entries.flatMap blockLines := by
  have hjoin : index.renderSummary = String.join (index.entries.flatMap blockLines) := by
    rw [← String.toList_inj]
    simp [Index.renderSummary, block_eq_join, List.flatMap_map, List.flatMap_assoc]
  rw [hjoin]
  refine linesOf_join fun line hline => ?_
  obtain ⟨entry, hentry, hline⟩ := List.mem_flatMap.1 hline
  exact isLine_of_mem_blockLines (h entry hentry) line hline

theorem length_flatMap_blockLines (entries : List Entry) :
    (entries.flatMap blockLines).length =
      (entries.map fun entry => 2 + entry.declaration.parameters.length).foldr (· + ·) 0 := by
  induction entries with
  | nil => rfl
  | cons entry entries ih =>
      rw [List.flatMap_cons, List.length_append, length_blockLines, ih, List.map_cons,
        List.foldr_cons]

/-! ### The summary -/

/-- A description starts behind its name, with room for two characters. -/
theorem StartsAt.add_le {column : Nat} {line : String} {named : String × CType}
    (h : StartsAt column line named) : ("  " ++ named.1).length + 2 ≤ column := by
  obtain ⟨gap, -, -, hgap, rfl⟩ := h
  rw [String.length_append _ gap]
  omega

/-- In a block the descriptions of all rows start in the same column, at least two columns behind the end
of each name; without a line feed in the entry its lines are its header, the row of the return type and
a row for each parameter, in the order of the call.  The summary is the blocks of the entries, in the
order of their names, and has as many lines as they have. -/
theorem renderSummary_aligned :
    (∀ entry : Entry, ∃ column rows, block entry = header entry ++ String.join rows ∧
      List.Forall₂ (StartsAt column) rows (rowsOf entry.declaration) ∧
      (∀ named ∈ rowsOf entry.declaration, ("  " ++ named.1).length + 2 ≤ column) ∧
      (entry.IsUnbroken → linesOf (block entry) = header entry :: rows ∧
        (linesOf (block entry)).length = 2 + entry.declaration.parameters.length)) ∧
    ∀ index : Index, index.renderSummary = String.join (index.entries.map block) ∧
      (index.entries.map Entry.name).Pairwise (· < ·) ∧
      ((∀ entry ∈ index.entries, entry.IsUnbroken) →
        (linesOf index.renderSummary).length =
          (index.entries.map fun entry =>
            2 + entry.declaration.parameters.length).foldr (· + ·) 0) := by
  constructor
  · intro entry
    have hrows : List.Forall₂ (StartsAt (nameWidth entry.declaration + 4))
        ((rowsOf entry.declaration).map fun named =>
          row (nameWidth entry.declaration) named.1 named.2) (rowsOf entry.declaration) := by
      rw [List.forall₂_map_left_iff, List.forall₂_same]
      exact fun named hnamed => startsAt_row (length_le_nameWidth hnamed)
    refine ⟨_, _, ?_, hrows, fun named hnamed => ?_, fun h => ?_⟩
    · rw [block_eq_join, ← String.toList_inj]
      simp [blockLines]
    · exact (startsAt_row (length_le_nameWidth hnamed)).add_le
    · have hlines : linesOf (block entry) = blockLines entry := by
        rw [block_eq_join]
        exact linesOf_join (isLine_of_mem_blockLines h)
      exact ⟨hlines, hlines ▸ length_blockLines entry⟩
  · intro index
    refine ⟨rfl, List.pairwise_map.2 index.increasing, fun h => ?_⟩
    rw [linesOf_renderSummary h, length_flatMap_blockLines]

/-- The longer name is shorter in characters than in bytes, and both rows leave room for the bytes. -/
theorem renderSummary_aligned_wide :
    ∃ index : Index, (∀ entry ∈ index.entries, entry.IsUnbroken) ∧
      linesOf index.renderSummary = ["make  (a.cpp:2)\n", "  returns    int  [base=int ptr=0]\n",
        "  名前名        int  [base=int ptr=0]\n"] ∧
      (linesOf index.renderSummary).length =
        (index.entries.map fun entry =>
          2 + entry.declaration.parameters.length).foldr (· + ·) 0 := by
  have hunbroken : CType.IsUnbroken ⟨"int", "int", 0, .none, .empty⟩ :=
    ⟨by decide, by decide, by simp [TagSet.empty]⟩
  have hall : ∀ entry ∈ (Index.empty.insert ⟨"a.cpp", ⟨"make", 2, ⟨"int", "int", 0, .none, .empty⟩,
      [⟨"名前名", ⟨"int", "int", 0, .none, .empty⟩⟩]⟩⟩).1.entries, entry.IsUnbroken := by
    intro entry hentry
    obtain rfl : entry = _ := List.mem_singleton.1 hentry
    exact ⟨by decide, by decide, hunbroken, by simpa using ⟨by decide, hunbroken⟩⟩
  exact ⟨_, hall, by decide +kernel, (renderSummary_aligned.2 _).2.2 hall⟩

end Summary
end ExportIndex
