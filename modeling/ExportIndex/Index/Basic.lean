import ExportIndex.Source.Basic

/-!
# The index of exports

An index lists one declaration for each name, with the source it came from, in increasing order of
the names.

* `insert` puts an entry in its place and hands back the entry of the same name that gave way.
* `Growth.insert` is the one step in which an index grows: it inserts an entry and reports what gave way.
* `insertAll` inserts what a source exports and `merge` what several sources export, in order, so the
  last declaration of a name stays; `overwritesAll` is what is reported then.
-/

namespace ExportIndex

/-- A declaration and the source it came from. -/
structure Entry where
  source : String
  declaration : Declaration
  deriving DecidableEq

/-- The name an entry is listed under. -/
def Entry.name (entry : Entry) : String :=
  entry.declaration.name

/-- Says that a declaration took the place of an earlier one of the same name. -/
structure Overwrite where
  name : String
  /-- The source of the declaration that gave way. -/
  earlier : String
  /-- The source of the declaration that took its place. -/
  later : String
  deriving DecidableEq, Repr

/-- The report that an entry took the place of a previous one. -/
def Entry.overwrite (entry previous : Entry) : Overwrite :=
  ⟨entry.name, previous.source, entry.source⟩

/-- Entries by name, in strictly increasing order. -/
structure Index where
  entries : List Entry
  increasing : entries.Pairwise (·.name < ·.name)
  deriving DecidableEq

namespace Index

/-- The entry of a name in a list, if there is one. -/
def findEntry (name : String) (entries : List Entry) : Option Entry :=
  entries.find? (·.name == name)

/-- Puts an entry in its place in an increasing list; an entry of the same name gives way and is handed
back. -/
def insertEntry (entry : Entry) : List Entry → List Entry × Option Entry
  | [] => ([entry], none)
  | first :: rest =>
    if entry.name < first.name then (entry :: first :: rest, none)
    else if entry.name = first.name then (entry :: rest, some first)
    else
      let inserted := insertEntry entry rest
      (first :: inserted.1, inserted.2)

theorem name_of_mem_insertEntry {entry other : Entry} {entries : List Entry}
    (h : other ∈ (insertEntry entry entries).1) : other = entry ∨ other ∈ entries := by
  induction entries with
  | nil => simpa [insertEntry] using h
  | cons first rest ih => grind [insertEntry]

theorem increasing_insertEntry {entry : Entry} {entries : List Entry}
    (h : entries.Pairwise (·.name < ·.name)) :
    (insertEntry entry entries).1.Pairwise (·.name < ·.name) := by
  induction entries with
  | nil => simp [insertEntry]
  | cons first rest ih =>
    obtain ⟨hfirst, hrest⟩ := List.pairwise_cons.1 h
    unfold insertEntry
    split
    · rename_i hlt
      refine List.pairwise_cons.2 ⟨fun other hother => ?_, h⟩
      rcases List.mem_cons.1 hother with rfl | hother
      · exact hlt
      · exact String.lt_trans hlt (hfirst other hother)
    · split
      · rename_i heq
        exact List.pairwise_cons.2 ⟨fun other hother => heq ▸ hfirst other hother, hrest⟩
      · rename_i hlt hne
        refine List.pairwise_cons.2 ⟨fun other hother => ?_, ih hrest⟩
        rcases name_of_mem_insertEntry hother with rfl | hother
        · exact Std.lt_of_le_of_ne (String.not_lt.1 hlt) (Ne.symm hne)
        · exact hfirst other hother

/-- The index without entries. -/
def empty : Index :=
  ⟨[], List.Pairwise.nil⟩

/-- The number of names. -/
def size (index : Index) : Nat :=
  index.entries.length

/-- Whether there are no entries. -/
def isEmpty (index : Index) : Bool :=
  index.entries.isEmpty

/-- The entry of a name. -/
def find? (index : Index) (name : String) : Option Entry :=
  findEntry name index.entries

/-- The declaration of a name. -/
def get? (index : Index) (name : String) : Option Declaration :=
  (index.find? name).map Entry.declaration

/-- The source that the declaration of a name came from. -/
def origin? (index : Index) (name : String) : Option String :=
  (index.find? name).map Entry.source

/-- The declarations, in the order of their names. -/
def declarations (index : Index) : List Declaration :=
  index.entries.map Entry.declaration

/-- The index with one entry more, and the entry of the same name that gave way. -/
def insert (index : Index) (entry : Entry) : Index × Option Entry :=
  let inserted := insertEntry entry index.entries
  (⟨inserted.1, increasing_insertEntry index.increasing⟩, inserted.2)

end Index

/-- The entries that the exports of a source make. -/
def SourceExports.entries (exports : SourceExports) : List Entry :=
  exports.declarations.map (⟨exports.source, ·⟩)

/-- An index that grows, and the overwrites reported on the way. -/
structure Growth where
  index : Index
  overwrites : List Overwrite
  deriving DecidableEq

namespace Growth

/-- Nothing is reported of an index that has not grown yet. -/
def start (index : Index) : Growth :=
  ⟨index, []⟩

/-- Inserts an entry, and reports the entry that gave way. -/
def insert (growth : Growth) (entry : Entry) : Growth :=
  let inserted := growth.index.insert entry
  ⟨inserted.1, growth.overwrites ++ (inserted.2.map entry.overwrite).toList⟩

/-- Inserts the exports of a source, in order. -/
def insertAll (growth : Growth) (exports : SourceExports) : Growth :=
  exports.entries.foldl insert growth

end Growth

namespace Index

/-- How an index grows by the exports of several sources, in order. -/
def growth (index : Index) (parts : List SourceExports) : Growth :=
  parts.foldl Growth.insertAll (.start index)

/-- The index with the exports of a source inserted. -/
def insertAll (index : Index) (exports : SourceExports) : Index :=
  (index.growth [exports]).index

/-- The index of the exports of several sources; of two declarations of one name the later stays. -/
def merge (parts : List SourceExports) : Index :=
  (empty.growth parts).index

/-- What inserting the exports of several sources in order overwrites. -/
def overwritesAll (index : Index) (parts : List SourceExports) : List Overwrite :=
  (index.growth parts).overwrites

end Index
end ExportIndex
