import ExportIndex.Report.Document
import ExportIndex.Proofs.Index.LastDeclaration
import ExportIndex.Proofs.Json.Printing

/-!
# The written document loses nothing

An index is found again in the text that it is written as.

* `CType.document`, `Parameter.document` and `Entry.document` are the values that are read, member by
  member.
* `Json.Value.Unambiguous` says of a value that no object in it has a key twice, so that it does not
  matter which of several members a reader would keep.
* `Json.Value.readAt?` and `Json.Value.listAt?` look up a member of an object by its key and decode it.
* `CType.ofValue?`, `Parameter.ofValue?`, `Declaration.ofValue?`, `Entry.ofValue?` and
  `Index.ofValue?` take a value apart again, key by key; each comes with a lemma that says what it makes
  of the document of a type, a parameter and so on.
* `renderJson_lossless` — the written text is one JSON document, and reading it gives the index back.
-/

namespace ExportIndex

namespace Json.Value

/-- No object in a value has a key twice, at any depth. -/
inductive Unambiguous : Value → Prop
  | null : Unambiguous .null
  | boolean (b : Bool) : Unambiguous (.boolean b)
  | number (q : Rat) : Unambiguous (.number q)
  | text (s : String) : Unambiguous (.text s)
  | list {items : List Value} (h : ∀ item ∈ items, Unambiguous item) : Unambiguous (.list items)
  | object {members : List (String × Value)} (hkeys : (members.map Prod.fst).Nodup)
      (h : ∀ member ∈ members, Unambiguous member.2) : Unambiguous (.object members)

/-! ### Looking up members -/

def text? : Value → Option String
  | .text s => some s
  | _ => none

/-- The natural number that a number is. -/
def natural? : Value → Option Nat
  | .number q => if q.den = 1 ∧ 0 ≤ q.num then some q.num.toNat else none
  | _ => none

def items? : Value → Option (List Value)
  | .list items => some items
  | _ => none

def members? : Value → Option (List (String × Value))
  | .object members => some members
  | _ => none

/-- Decodes the member of an object that has the given key. -/
def readAt? {α : Type} (key : String) (decode : Value → Option α) (value : Value) : Option α :=
  (value.members?.bind (List.lookup key)).bind decode

/-- Decodes the items of the list that stands under a key. -/
def listAt? {α : Type} (key : String) (decode : Value → Option α) (value : Value) :
    Option (List α) :=
  value.readAt? key fun inner => inner.items?.bind (List.mapM decode)

theorem natural?_number (n : Nat) : natural? (.number n) = some n := by
  rw [natural?, if_pos ⟨rfl, Int.natCast_nonneg n⟩]
  rfl

section Members

variable {α : Type} {key : String} {decode : Value → Option α} {item : Value}
  {members : List (String × Value)}

theorem readAt?_head : readAt? key decode (.object ((key, item) :: members)) = decode item := by
  rw [readAt?, members?, Option.bind_some, List.lookup_cons_self, Option.bind_some]

theorem readAt?_tail {other : String} (h : (key == other) = false) :
    readAt? key decode (.object ((other, item) :: members)) =
      readAt? key decode (.object members) := by
  simp only [readAt?, members?, Option.bind_some, List.lookup_cons, h]

end Members

/-- A list is decoded item by item. -/
theorem mapM_map {α : Type} {encode : α → Value} {decode : Value → Option α}
    (h : ∀ a, decode (encode a) = some a) (items : List α) :
    (items.map encode).mapM decode = some items := by
  induction items with
  | nil => rfl
  | cons a rest ih =>
      rw [List.map_cons, List.mapM_cons, h, ih]
      rfl

end Json.Value

open Json (Value)
open Json.Value (Unambiguous text? natural? readAt?_head readAt?_tail mapM_map natural?_number)

/-! ### The values that are read -/

/-- What a type is read as. -/
def CType.document (type : CType) : Value :=
  .object [
    ("full", .text type.full),
    ("base", .text type.base),
    ("pointer_depth", .number type.pointerDepth),
    ("reference", .text type.reference.word),
    ("tags", .list (type.tags.words.map .text))]

/-- What a parameter is read as. -/
def Parameter.document (parameter : Parameter) : Value :=
  .object [("name", .text parameter.name), ("type", parameter.type.document)]

/-- What an entry is read as. -/
def Entry.document (entry : Entry) : Value :=
  .object [
    ("source", .text entry.source),
    ("name", .text entry.name),
    ("line", .number entry.declaration.line),
    ("return_type", entry.declaration.returnType.document),
    ("arguments", .list (entry.declaration.parameters.map Parameter.document))]

theorem CType.value_toJson (type : CType) : type.toJson.value = type.document := by
  have htags : Json.valuesOf (type.tags.words.map .text) = type.tags.words.map .text :=
    Json.valuesOf_map (fun _ => rfl) _
  rw [toJson, Json.value, document]
  simp only [Json.memberValues, Json.value_number, Json.value_text, Json.value_list, htags]

theorem Parameter.value_toJson (parameter : Parameter) : parameter.toJson.value = parameter.document := by
  rw [toJson, Json.value, document]
  simp only [Json.memberValues, Json.value_text, CType.value_toJson]

theorem Entry.value_toJson (entry : Entry) : entry.toJson.value = entry.document := by
  have hparameters := Json.valuesOf_map Parameter.value_toJson entry.declaration.parameters
  rw [toJson, Declaration.members, Json.value, document]
  simp only [Json.memberValues, Json.value_number, Json.value_text, Json.value_list,
    CType.value_toJson, hparameters, name]

theorem CType.unambiguous_document (type : CType) : type.document.Unambiguous := by
  have hkeys : ["full", "base", "pointer_depth", "reference", "tags"].Nodup := by decide
  have htags : (Value.list (type.tags.words.map .text)).Unambiguous := by
    refine .list fun item hitem => ?_
    obtain ⟨tag, -, rfl⟩ := List.mem_map.1 hitem
    exact .text tag
  refine .object hkeys ?_
  simp only [List.forall_mem_cons, List.not_mem_nil, false_implies, implies_true, and_true]
  exact ⟨.text _, .text _, .number _, .text _, htags⟩

theorem Parameter.unambiguous_document (parameter : Parameter) : parameter.document.Unambiguous := by
  have hkeys : ["name", "type"].Nodup := by decide
  refine .object hkeys ?_
  simp only [List.forall_mem_cons, List.not_mem_nil, false_implies, implies_true, and_true]
  exact ⟨.text _, parameter.type.unambiguous_document⟩

theorem Entry.unambiguous_document (entry : Entry) : entry.document.Unambiguous := by
  have hkeys : ["source", "name", "line", "return_type", "arguments"].Nodup := by decide
  have hparameters : (Value.list (entry.declaration.parameters.map Parameter.document)).Unambiguous := by
    refine .list fun item hitem => ?_
    obtain ⟨parameter, -, rfl⟩ := List.mem_map.1 hitem
    exact parameter.unambiguous_document
  refine .object hkeys ?_
  simp only [List.forall_mem_cons, List.not_mem_nil, false_implies, implies_true, and_true]
  exact ⟨.text _, .text _, .number _, entry.declaration.returnType.unambiguous_document, hparameters⟩

/-! ### Taking values apart -/

def Reference.ofWord? (word : String) : Option Reference :=
  if word = "none" then some .none
  else if word = "lvalue" then some .lvalue
  else if word = "rvalue" then some .rvalue
  else none

def CType.ofValue? (value : Value) : Option CType := do
  let full ← value.readAt? "full" text?
  let base ← value.readAt? "base" text?
  let pointerDepth ← value.readAt? "pointer_depth" natural?
  let word ← value.readAt? "reference" text?
  let reference ← Reference.ofWord? word
  let tags ← value.listAt? "tags" text?
  return ⟨full, base, pointerDepth, reference, .ofList tags⟩

def Parameter.ofValue? (value : Value) : Option Parameter := do
  let name ← value.readAt? "name" text?
  let type ← value.readAt? "type" CType.ofValue?
  return ⟨name, type⟩

def Declaration.ofValue? (value : Value) : Option Declaration := do
  let name ← value.readAt? "name" text?
  let line ← value.readAt? "line" natural?
  let returnType ← value.readAt? "return_type" CType.ofValue?
  let parameters ← value.listAt? "arguments" Parameter.ofValue?
  return ⟨name, line, returnType, parameters⟩

/-- An entry is the object of its declaration with the source as one more member. -/
def Entry.ofValue? (value : Value) : Option Entry := do
  let source ← value.readAt? "source" text?
  let declaration ← Declaration.ofValue? value
  return ⟨source, declaration⟩

/-- An entry that stands under its name. -/
def Entry.ofMember? (member : String × Value) : Option Entry :=
  (Entry.ofValue? member.2).filter (·.name == member.1)

/-- An index is an object of entries, each under its name, in increasing order. -/
def Index.ofValue? (value : Value) : Option Index := do
  let members ← value.members?
  let entries ← members.mapM Entry.ofMember?
  if h : entries.Pairwise (·.name < ·.name) then some ⟨entries, h⟩ else none

/-! ### What is decoded -/

theorem Reference.ofWord?_word (reference : Reference) :
    Reference.ofWord? reference.word = some reference := by
  cases reference <;> rfl

theorem CType.ofValue?_document (type : CType) : CType.ofValue? type.document = some type := by
  have htag (tag : String) : text? (.text tag) = some tag := rfl
  have htags := mapM_map htag type.tags.words
  simp [CType.ofValue?, CType.document, Value.listAt?, readAt?_head, readAt?_tail, Value.items?, text?,
    natural?_number, Reference.ofWord?_word, htags, TagSet.ofList_words]

theorem Parameter.ofValue?_document (parameter : Parameter) :
    Parameter.ofValue? parameter.document = some parameter := by
  simp [Parameter.ofValue?, Parameter.document, readAt?_head, readAt?_tail, text?,
    CType.ofValue?_document]

theorem Entry.ofValue?_document (entry : Entry) : Entry.ofValue? entry.document = some entry := by
  have hparameters := mapM_map Parameter.ofValue?_document entry.declaration.parameters
  simp [Entry.ofValue?, Declaration.ofValue?, Entry.document, Entry.name, Value.listAt?, readAt?_head,
    readAt?_tail, Value.items?, text?, natural?_number, CType.ofValue?_document, hparameters]

namespace Index

/-- The members of the document of an index, as they are read. -/
def documentMembers (index : Index) : List (String × Value) :=
  index.entries.map fun entry => (entry.name, entry.document)

theorem value_toJson (index : Index) : index.toJson.value = .object index.documentMembers := by
  rw [toJson, Json.value, Json.memberValues_eq_map, List.map_map, documentMembers]
  simp only [Function.comp_def, Entry.value_toJson]

theorem mapM_ofMember? (entries : List Entry) :
    (entries.map fun entry => (entry.name, entry.document)).mapM Entry.ofMember? = some entries := by
  induction entries with
  | nil => rfl
  | cons entry rest ih =>
      have hentry : Entry.ofMember? (entry.name, entry.document) = some entry := by
        rw [Entry.ofMember?, Entry.ofValue?_document]
        simp
      rw [List.map_cons, List.mapM_cons, hentry, ih]
      rfl

theorem ofValue?_documentMembers (index : Index) :
    Index.ofValue? (.object index.documentMembers) = some index := by
  have hmembers := mapM_ofMember? index.entries
  simp only [ofValue?, Value.members?, documentMembers, Option.bind_eq_bind, Option.bind_some,
    hmembers, index.increasing, dif_pos]

/-- The text of a document that is an object ends with its closing brace. -/
theorem getLast?_pretty_object (members : List (String × Json)) :
    (Json.pretty (.object members)).toList.getLast? = some '\x7d' := by
  cases members with
  | nil => rfl
  | cons member members =>
      rw [Json.pretty, Json.prettyAt, String.toList_append, List.getLast?_append]
      rfl

theorem ofValue?_read?_renderJson (index : Index) :
    (Value.read? index.renderJson).bind Index.ofValue? = some index := by
  rw [renderJson, Json.read?_pretty _ _ Json.isBlank_of_mem_feed, value_toJson, Option.bind_some,
    ofValue?_documentMembers]

/-- An index is written as one JSON document and a line feed.  Reading it gives an object whose keys are
the names in increasing order, each with its entry, and the whole index back; so different indexes are
written differently.  No key stands twice in one object. -/
theorem renderJson_lossless :
    (∀ index : Index, ∃ (document : String) (members : List (String × Value)),
      index.renderJson = document ++ "\n" ∧ document.toList.getLast? = some '\x7d' ∧
      Value.read? document = some (.object members) ∧
      Value.read? index.renderJson = some (.object members) ∧
      members = index.entries.map (fun entry => (entry.name, entry.document)) ∧
      (members.map Prod.fst).Pairwise (· < ·) ∧ (Value.object members).Unambiguous ∧
      members.map (fun member => Entry.ofValue? member.2) = index.entries.map some ∧
      Index.ofValue? (.object members) = some index) ∧
    ∀ index other : Index, index.renderJson = other.renderJson ↔ index = other := by
  refine ⟨fun index => ?_, fun index other => ⟨fun h => ?_, fun h => h ▸ rfl⟩⟩
  · have hnames : index.documentMembers.map Prod.fst = index.entries.map Entry.name := by
      rw [documentMembers, List.map_map]
      rfl
    have hincreasing : (index.documentMembers.map Prod.fst).Pairwise (· < ·) :=
      hnames ▸ index.pairwise_names
    have hunambiguous : (Value.object index.documentMembers).Unambiguous := by
      refine .object (hnames ▸ index.nodup_names) fun member hmember => ?_
      obtain ⟨entry, -, rfl⟩ := List.mem_map.1 hmember
      exact entry.unambiguous_document
    have hread := Json.read?_pretty index.toJson "" (by simp)
    have hread' := Json.read?_pretty index.toJson "\n" Json.isBlank_of_mem_feed
    rw [value_toJson] at hread hread'
    rw [String.append_empty] at hread
    refine ⟨index.toJson.pretty, index.documentMembers, rfl, getLast?_pretty_object _, hread, hread',
      rfl, hincreasing, hunambiguous, ?_, ofValue?_documentMembers index⟩
    rw [documentMembers, List.map_map]
    exact List.map_congr_left fun entry _ => Entry.ofValue?_document entry
  · have hindex := ofValue?_read?_renderJson index
    rw [h, ofValue?_read?_renderJson] at hindex
    exact (Option.some.inj hindex).symm

end Index
end ExportIndex
